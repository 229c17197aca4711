import TypedJson.Json.Tree

/-! # Reading JSON text

`Node.value` turns a located tree into a value, or gives the first fault with the path to it.
`Json.ofText` reads a whole text, which must hold one value and nothing else.
-/

namespace TypedJson

/-- One step of the way to a part of a value. The step is unknown where a name or the end of an
object should stand. -/
inductive Segment where
  | key (name : String)
  | index (number : Nat)
  | unknown
  deriving DecidableEq, Repr

structure LocatedFault where
  path : List Segment
  fault : Fault

/-- The same fault, seen from one level further out. -/
def LocatedFault.below (segment : Segment) (located : LocatedFault) : LocatedFault :=
  ⟨segment :: located.path, located.fault⟩

def Scalar.value : Scalar → Json
  | .null => .null
  | .bool value => .bool value
  | .number value => .number value
  | .string value => .string value

mutual

def Node.value : Node → Except LocatedFault Json
  | .scalar _ value _ => .ok value.value
  | .array _ items => (items.values 0).map .array
  | .object _ members => members.values.map .object
  | .broken _ _ fault => .error ⟨[], fault⟩

/-- The values of items, the first of which has the given number. -/
def Items.values : Items → Nat → Except LocatedFault (List Json)
  | .close _, _ => .ok []
  | .broken fault, _ => .error ⟨[], fault⟩
  | .item head rest, number => do
    let value ← head.value.mapError (.below (.index number))
    let others ← rest.values (number + 1)
    .ok (value :: others)

def Members.values : Members → Except LocatedFault (List (String × Json))
  | .close _ => .ok []
  | .broken fault _ => .error ⟨[.unknown], fault⟩
  | .unpaired _ _ _ fault => .error ⟨[], fault⟩
  | .member name _ _ value _ rest => do
    let value ← value.value.mapError (.below (.key name))
    let others ← rest.values
    .ok ((name, value) :: others)

end

namespace Json

/-- Reads a text that holds one value; objects keep one member of each name. -/
def ofText (text : List Char) : Except Fault Json :=
  match Node.ofText text with
  | (node, next) =>
    match node.value, next with
    | .error located, _ => .error located.fault
    | .ok value, some next =>
      if next.skipBlank.rest.isEmpty then .ok value.canonical
      else .error (next.skipBlank.fault .trailingCharacters)
    | .ok value, none => .ok value.canonical

def stringOfText? (text : List Char) : Option String :=
  match ofText text with
  | .ok (.string value) => some value
  | _ => none

end Json
end TypedJson
