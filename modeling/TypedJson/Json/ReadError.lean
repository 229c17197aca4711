import TypedJson.Json.Read

/-! # Errors of typed reading

What can be wrong with a value that was expected to have a certain form, where it stands, and how
that is worded.
-/

namespace TypedJson

/-- What stands where something else was expected. -/
inductive Found where
  | null
  | bool (value : Bool)
  | number (value : Number)
  | string (value : String)
  | sequence
  | map

inductive Problem where
  | syntaxFault (reason : Reason)
  | missingField (name : String)
  | duplicateField (name : String)
  | unknownField (name : String) (known : List String)
  | unknownVariant (name : String) (known : List String)
  | invalidType (found : Found) (expected : String)
  | invalidValue (found : Found) (expected : String)
  | invalidLength (length : Nat) (expected : String)

/-- A problem, the way to the value, and the mark that the message names, if it names one. -/
structure ReadError where
  path : List Segment
  problem : Problem
  mark : Option Mark

def Scalar.found : Scalar → Found
  | .null => .null
  | .bool value => .bool value
  | .number value => .number value
  | .string value => .string value

def Json.found : Json → Found
  | .null => .null
  | .bool value => .bool value
  | .number value => .number value
  | .string value => .string value
  | .array _ => .sequence
  | .object _ => .map

namespace Found

def message : Found → String
  | null => "null"
  | bool value => "boolean `" ++ toString value ++ "`"
  | number (.real x) => "floating point `" ++ Number.text (.real x) ++ "`"
  | number value => "integer `" ++ value.text ++ "`"
  | string value => "string " ++ String.ofList (Quoted.forMessage value.toList)
  | sequence => "sequence"
  | map => "map"

end Found

def ticked (name : String) : String := "`" ++ name ++ "`"

/-- The names that would have been right. -/
def alternatives : List String → String
  | [only] => ticked only
  | [first, second] => ticked first ++ " or " ++ ticked second
  | names => "one of " ++ ", ".intercalate (names.map ticked)

namespace Problem

def message : Problem → String
  | syntaxFault reason => reason.message
  | missingField name => "missing field " ++ ticked name
  | duplicateField name => "duplicate field " ++ ticked name
  | unknownField name known => "unknown field " ++ ticked name ++ ", expected " ++ alternatives known
  | unknownVariant name known => "unknown variant " ++ ticked name ++ ", expected " ++ alternatives known
  | invalidType found expected => "invalid type: " ++ found.message ++ ", expected " ++ expected
  | invalidValue found expected => "invalid value: " ++ found.message ++ ", expected " ++ expected
  | invalidLength length expected => "invalid length " ++ toString length ++ ", expected " ++ expected

end Problem

/-- The text of a path: names are joined by dots, and the number of an item stands in brackets. -/
def pathText : List Segment → String
  | [] => ""
  | .index number :: rest => "[" ++ toString number ++ "]" ++ continued rest
  | .key name :: rest => name ++ continued rest
  | .unknown :: rest => "?" ++ continued rest
where
  /-- The text of the steps after the first one. -/
  continued : List Segment → String
    | [] => ""
    | .index number :: rest => "[" ++ toString number ++ "]" ++ continued rest
    | .key name :: rest => "." ++ name ++ continued rest
    | .unknown :: rest => ".?" ++ continued rest

namespace ReadError

def below (segment : Segment) (error : ReadError) : ReadError := { error with path := segment :: error.path }

/-- The same error; a problem without a place of its own gets the given one. -/
def settle (mark : Mark) (error : ReadError) : ReadError :=
  { error with mark := some (error.mark.getD mark) }

def here (problem : Problem) (mark : Mark) : ReadError := ⟨[], problem, some mark⟩

def ofFault (fault : Fault) : ReadError := here (.syntaxFault fault.reason) fault.mark

def ofLocated (located : LocatedFault) : ReadError :=
  ⟨located.path, .syntaxFault located.fault.reason, some located.fault.mark⟩

/-- The wording of an error. A path whose text is a single dot is not mentioned, like the path to
the whole value. -/
def message (error : ReadError) : String :=
  let worded := match error.mark with
    | some mark => mark.locate error.problem.message
    | none => error.problem.message
  if error.path = [] ∨ pathText error.path = "." then worded
  else "at JSON path " ++ pathText error.path ++ ": " ++ worded

end ReadError
end TypedJson
