import TypedJson.Ty.Read

/-! # Type modules

A type module is a JSON object whose members are the types that it exports.
-/

namespace TypedJson

/-- The exported types under their names, in order. -/
abbrev TypeModule := List (String × Ty)

namespace TypeModule

/-- The mark at which the text goes on after a member with the given rest. -/
def settledAfter (rested : Mark) : Members → Mark
  | .close stop => stop
  | _ => rested

/-- Reads the members of a module after the types read so far. A name that comes twice keeps its first
place and gets the later type. -/
def ofMembers : TypeModule → Members → Reads TypeModule
  | types, .close _ => .ok types
  | _, .broken fault _ => .error ((ReadError.ofFault fault).below .unknown)
  | _, .unpaired _ _ _ fault => .error (.ofFault fault)
  | types, .member name _ _ value rested rest => do
    let type ← (Ty.ofNode value).mapError fun error =>
      (error.settle (settledAfter rested rest)).below (.key name)
    ofMembers (setMember name type types) rest

def ofNode : Node → Reads TypeModule
  | .object _ members => ofMembers [] members
  | other => other.refuse "a map"

/-- Reads a module from the first value of a text. -/
def ofText (text : List Char) : Reads TypeModule := ofNode (Node.ofText text).1

end TypeModule
end TypedJson
