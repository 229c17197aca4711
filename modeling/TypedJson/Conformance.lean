import TypedJson.Ty.Basic

/-! # Conformance of a value to a type

`Ty.mismatches` compares a JSON value, or its absence, with a type and lists where they disagree. A
value conforms to a type if the list is empty. A union is reported as a whole, an intersection by its
members, and properties that a type does not declare are never reported.
-/

namespace TypedJson

inductive MismatchKind where
  | missingProperty
  | typeMismatch
  | unsupported
  deriving DecidableEq, Repr

/-- A disagreement between a value and a type, at the end of a path of dotted property names. -/
structure Mismatch where
  path : String
  expected : String
  actual : String
  kind : MismatchKind
  deriving DecidableEq, Repr

/-- What is done with types that cannot be compared by structure: they accept every value, or they are
reported. -/
inductive UnsupportedPolicy where
  | permit
  | report
  deriving DecidableEq, Repr

def Mismatch.message (mismatch : Mismatch) : String :=
  let place := if mismatch.path = "" then "<root>" else mismatch.path
  match mismatch.kind with
  | .missingProperty => "Property '" ++ place ++ "' is missing; expected " ++ mismatch.expected
  | .typeMismatch =>
    "Type '" ++ mismatch.actual ++ "' is not assignable to type '" ++ mismatch.expected ++ "' at '" ++
      place ++ "'"
  | .unsupported => "Type '" ++ mismatch.expected ++ "' at '" ++ place ++ "' cannot be checked structurally"

/-- The name of what stands in place of a value. -/
def kindName : Option Json → String
  | none => "undefined"
  | some .null => "null"
  | some (.bool _) => "boolean"
  | some (.number _) => "number"
  | some (.string _) => "string"
  | some (.array _) => "array"
  | some (.object _) => "object"

/-- The path of a property of the value at a path. -/
def childPath (path name : String) : String := if path = "" then name else path ++ "." ++ name

def Primitive.accepts : Primitive → Json → Bool
  | .number, .number _ => true
  | .string, .string _ => true
  | .boolean, .bool _ => true
  | _, _ => false

namespace Ty

/-- The disagreement of a value with a type as a whole. -/
def mismatch (type : Ty) (value : Option Json) (path : String) : Mismatch :=
  ⟨path, type.describe, kindName value, .typeMismatch⟩

/-- Whether a value, or its absence, is accepted by a type that has no parts. -/
def acceptsSimple : Ty → Option Json → Bool
  | any, _ => true
  | never, value | undefined, value => value.isNone
  | null, some .null => true
  | numberLiteral expected, some (.number n) => n.toFloat == expected
  | stringLiteral expected, some (.string s) => s = expected
  | primitive p, some value => p.accepts value
  | _, _ => false

mutual

/-- The disagreements between a type and a value, or its absence. -/
def mismatches (policy : UnsupportedPolicy) : Ty → Option Json → String → List Mismatch
  | union members, value, path =>
    if conformsToAny policy members value path then [] else [(union members).mismatch value path]
  | intersection members, value, path => memberMismatches policy members value path
  | object properties, value, path =>
    match value with
    | some (.object fields) => propertyMismatches policy properties fields path
    | other => [(object properties).mismatch other path]
  | unsupported name, value, path =>
    if policy = .report then [⟨path, name, kindName value, .unsupported⟩] else []
  | simple, value, path => if simple.acceptsSimple value then [] else [simple.mismatch value path]

/-- Some member has no disagreement with the value. -/
def conformsToAny (policy : UnsupportedPolicy) : List Ty → Option Json → String → Bool
  | [], _, _ => false
  | member :: rest, value, path =>
    (member.mismatches policy value path).isEmpty || conformsToAny policy rest value path

def memberMismatches (policy : UnsupportedPolicy) : List Ty → Option Json → String → List Mismatch
  | [], _, _ => []
  | member :: rest, value, path =>
    member.mismatches policy value path ++ memberMismatches policy rest value path

def propertyMismatches (policy : UnsupportedPolicy) :
    List (Property Ty) → List (String × Json) → String → List Mismatch
  | [], _, _ => []
  | ⟨name, type, optional⟩ :: rest, fields, path =>
    (match getMember? name fields with
      | some value => type.mismatches policy (some value) (childPath path name)
      | none =>
        if optional then []
        else [⟨childPath path name, type.describe, kindName none, .missingProperty⟩]) ++
      propertyMismatches policy rest fields path

end

end Ty
end TypedJson
