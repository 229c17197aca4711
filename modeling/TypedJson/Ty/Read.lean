import TypedJson.Json.Expect
import TypedJson.Ty.Basic

/-! # Reading types

A type is exchanged as an object whose kind may stand anywhere among its members; members that the
kind does not use are ignored. In place of an object there may be an array of the kind and its field.
`Ty.ofJson` reads a type from a value. `Ty.ofNode` reads one from a located tree: the kind is read
where it stands, the other members are first read as plain values, and what is wrong with those is
reported for the type as a whole.
-/

namespace TypedJson

def tyTitle : String := "internally tagged enum Ty"

def kindVariants : List (String × Kind) := Kind.all.map fun kind => (kind.name, kind)

def primitiveVariants : List (String × Primitive) :=
  [Primitive.number, .string, .boolean].map fun p => (p.text, p)

namespace Kind

/-- How messages name a form when its fields stand in an array. -/
def title : Kind → String
  | any => "Any"
  | never => "Never"
  | null => "Null"
  | undefined => "Undefined"
  | numberLiteral => "NumberLiteral"
  | stringLiteral => "StringLiteral"
  | primitive => "Primitive"
  | object => "Object"
  | union => "Union"
  | intersection => "Intersection"
  | unsupported => "Unsupported"

/-- The type of a form that carries no field. -/
def bare? : Kind → Option Ty
  | any => some .any
  | never => some .never
  | null => some .null
  | undefined => some .undefined
  | _ => none

/-- The form that a value names, by its name or by its number. -/
def ofJson : Json → Except Problem Kind
  | .string name =>
    match getMember? name kindVariants with
    | some kind => .ok kind
    | none => .error (.unknownVariant name (kindVariants.map (·.1)))
  | .number (.natural n) =>
    match all[n.toNat]? with
    | some kind => .ok kind
    | none => .error (.invalidValue (.number (.natural n))
        ("variant index 0 <= i < " ++ toString all.length))
  | other => .error (.invalidType other.found "variant identifier")

def ofMembers : List (String × Json) → Except Problem Kind
  | [] => .error (.missingField "kind")
  | (name, value) :: rest =>
    if name = "kind" then do
      let kind ← ofJson value
      if (getMember? "kind" rest).isSome then .error (.duplicateField "kind") else .ok kind
    else ofMembers rest

end Kind

def tooManyItems (expected found : Nat) : Problem :=
  .invalidLength found
    (toString expected ++ (if expected = 1 then " element" else " elements") ++ " in sequence")

def floatOfJson : Json → Except Problem Float
  | .number value => .ok value.toFloat
  | other => .error (.invalidType other.found "f64")

def stringOfJson : Json → Except Problem String
  | .string value => .ok value
  | other => .error (.invalidType other.found "a string")

def boolOfJson : Json → Except Problem Bool
  | .bool value => .ok value
  | other => .error (.invalidType other.found "a boolean")

namespace Primitive

def ofName (name : String) : Except Problem Primitive :=
  match getMember? name primitiveVariants with
  | some p => .ok p
  | none => .error (.unknownVariant name (primitiveVariants.map (·.1)))

/-- Expects the name of a primitive type, as a string or as the only name of an object that holds
nothing under it. -/
def ofJson : Json → Except Problem Primitive
  | .string name => ofName name
  | .object [(name, value)] => do
    let p ← ofName name
    match value with
    | .null | .object [] => .ok p
    | other => .error (.invalidType other.found "unit")
  | .object _ => .error (.invalidValue .map "map with a single key")
  | other => .error (.invalidType other.found "string or map")

end Primitive

/-- The fields of a property that have been read so far. -/
structure PartialProperty where
  name : Option String
  type : Option Ty
  optional : Option Bool

def PartialProperty.finish (fields : PartialProperty) : Except Problem (Property Ty) :=
  match fields.name, fields.type with
  | none, _ => .error (.missingField "name")
  | some _, none => .error (.missingField "type")
  | some name, some type => .ok ⟨name, type, fields.optional.getD false⟩

namespace Ty

mutual

def ofJson : Json → Except Problem Ty
  | .object members => do
    let kind ← Kind.ofMembers members
    ofMembers kind none members
  | .array [] => .error (.missingField "kind")
  | .array (head :: rest) => do
    let kind ← Kind.ofJson head
    ofItems kind rest
  | other => .error (.invalidType other.found tyTitle)

/-- Reads a type of a known form from the members of its object, given what was read of its field. -/
def ofMembers (kind : Kind) : Option Ty → List (String × Json) → Except Problem Ty
  | found, [] =>
    match kind.bare?, found with
    | some type, _ => .ok type
    | none, some type => .ok type
    | none, none => .error (.missingField (kind.field?.getD ""))
  | found, (name, value) :: rest =>
    if kind.field? = some name then
      match found with
      | some _ => .error (.duplicateField name)
      | none => do
        let type ← ofField kind value
        ofMembers kind (some type) rest
    else ofMembers kind found rest

def ofItems (kind : Kind) : List Json → Except Problem Ty
  | [] =>
    match kind.bare? with
    | some type => .ok type
    | none => .error (.invalidLength 0 ("struct variant Ty::" ++ kind.title ++ " with 1 element"))
  | value :: rest =>
    if kind.bare?.isSome then .error (tooManyItems 0 (rest.length + 1))
    else do
      let type ← ofField kind value
      if rest.isEmpty then .ok type else .error (tooManyItems 1 (rest.length + 1))

def ofField : Kind → Json → Except Problem Ty
  | .numberLiteral, value => (floatOfJson value).map .numberLiteral
  | .stringLiteral, value => (stringOfJson value).map .stringLiteral
  | .primitive, value => (Primitive.ofJson value).map .primitive
  | .unsupported, value => (stringOfJson value).map .unsupported
  | .object, .array items => (propertiesOfJson items).map .object
  | .union, .array items => (membersOfJson items).map .union
  | .intersection, .array items => (membersOfJson items).map .intersection
  | _, other => .error (.invalidType other.found "a sequence")

def membersOfJson : List Json → Except Problem (List Ty)
  | [] => .ok []
  | item :: rest => do
    let type ← ofJson item
    let others ← membersOfJson rest
    .ok (type :: others)

def propertiesOfJson : List Json → Except Problem (List (Property Ty))
  | [] => .ok []
  | item :: rest => do
    let property ← propertyOfJson item
    let others ← propertiesOfJson rest
    .ok (property :: others)

/-- Reads a property from an object, or from an array of its name, its type and whether it is
optional. -/
def propertyOfJson : Json → Except Problem (Property Ty)
  | .object members => propertyOfMembers ⟨none, none, none⟩ members
  | .array [] => .error (.invalidLength 0 "struct Property with 3 elements")
  | .array [name] => do
    let _ ← stringOfJson name
    .error (.invalidLength 1 "struct Property with 3 elements")
  | .array [name, type] => do
    let name ← stringOfJson name
    let type ← ofJson type
    .ok ⟨name, type, false⟩
  | .array (name :: type :: optional :: rest) => do
    let name ← stringOfJson name
    let type ← ofJson type
    let optional ← boolOfJson optional
    if rest.isEmpty then .ok ⟨name, type, optional⟩ else .error (tooManyItems 3 (rest.length + 3))
  | other => .error (.invalidType other.found "struct Property")

def propertyOfMembers : PartialProperty → List (String × Json) → Except Problem (Property Ty)
  | fields, [] => fields.finish
  | fields, (name, value) :: rest =>
    if name = "name" then
      if fields.name.isSome then .error (.duplicateField name)
      else do
        let text ← stringOfJson value
        propertyOfMembers { fields with name := some text } rest
    else if name = "type" then
      if fields.type.isSome then .error (.duplicateField name)
      else do
        let type ← ofJson value
        propertyOfMembers { fields with type := some type } rest
    else if name = "optional" then
      if fields.optional.isSome then .error (.duplicateField name)
      else do
        let optional ← boolOfJson value
        propertyOfMembers { fields with optional := some optional } rest
    else propertyOfMembers fields rest

end

/-- A problem with the type as a whole, which has no place of its own. -/
def placeless {α : Type} (result : Except Problem α) : Reads α :=
  result.mapError fun problem => ⟨[], problem, none⟩

def expectKind (node : Node) : Reads Kind :=
  match node with
  | .scalar _ (.string name) stop => Node.lookupVariant kindVariants name stop
  | other => other.refuse "variant identifier"

def expectValue (node : Node) : Reads Json := node.value.mapError ReadError.ofLocated

/-- Reads the members of a type: its kind once, and the other members as plain values. -/
def collect : Option Kind → Members → Reads (Kind × List (String × Json))
  | some kind, .close _ => .ok (kind, [])
  | none, .close stop => .error (.here (.missingField "kind") stop)
  | _, .broken fault _ => .error ((ReadError.ofFault fault).below .unknown)
  | found, .unpaired name _ settled fault =>
    if name = "kind" && found.isSome then .error (.here (.duplicateField "kind") settled)
    else .error (.ofFault fault)
  | found, .member name _ settled value _ rest =>
    if name = "kind" then
      if found.isSome then .error (.here (.duplicateField "kind") settled)
      else do
        let kind ← (expectKind value).mapError (.below (.key name))
        collect (some kind) rest
    else do
      let value ← (expectValue value).mapError (.below (.key name))
      let (kind, others) ← collect found rest
      .ok (kind, (name, value) :: others)

def ofNode : Node → Reads Ty
  | .object _ members => do
    let (kind, others) ← collect none members
    placeless (ofMembers kind none others)
  | .array _ (.close stop) => .error (.here (.missingField "kind") stop)
  | .array _ (.broken fault) => .error (.ofFault fault)
  | .array _ (.item head rest) => do
    let kind ← (expectKind head).mapError (.below (.index 0))
    let others ← rest.expectAll expectValue 1
    placeless (ofItems kind others)
  | other => other.refuse tyTitle

def ofText (text : List Char) : Reads Ty := ofNode (Node.ofText text).1

end Ty
end TypedJson
