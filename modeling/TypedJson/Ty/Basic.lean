import TypedJson.Json.Basic

/-! # Structural types

`Ty` describes the JSON values that conform to a type. `Ty.describe` writes a type for a reader, close
to how it would be written in source; `Ty.toJson` writes it as the JSON value it is exchanged as.
-/

namespace TypedJson

/-- The types of scalars that have more than one value. -/
inductive Primitive where
  | number
  | string
  | boolean
  deriving DecidableEq, Repr

/-- A property of an object type. Its type counts only where the property is present. -/
structure Property (τ : Type) where
  name : String
  type : τ
  optional : Bool

/-- A structural type. Only an absent value conforms to `never` and `undefined`. Properties are in the
order of their declaration. An unsupported type is known by its name alone. -/
inductive Ty where
  | any
  | never
  | null
  | undefined
  | numberLiteral (value : Float)
  | stringLiteral (value : String)
  | primitive (primitive : Primitive)
  | object (properties : List (Property Ty))
  | union (members : List Ty)
  | intersection (members : List Ty)
  | unsupported (name : String)

def Primitive.text : Primitive → String
  | .number => "number"
  | .string => "string"
  | .boolean => "boolean"

/-- A number as a literal type shows it: whole numbers below `10 ^ 15` as integers, so that both zeros
look the same. -/
def literalText (x : Float) : String :=
  if x.isNaN then "NaN"
  else if x.isInf then Decimal.signed x ['i', 'n', 'f']
  else match (Decimal.Binary.ofBits x.toBits).whole?.filter (· < Nat.pow 10 15) with
    | some 0 => "0"
    | some n => Decimal.signed x (Decimal.digitsOf n)
    | none => Decimal.plainLayout.write x

namespace Ty

/-- Unions and intersections stand in parentheses where they are members of one another. -/
def isCompound : Ty → Bool
  | union _ | intersection _ => true
  | _ => false

/-- The members of a compound type around a separator; without members it is the empty type. -/
def joinMembers (separator : String) (members : List String) : String :=
  if members.isEmpty then "never" else separator.intercalate members

mutual

def describe : Ty → String
  | any => "any"
  | never => "never"
  | null => "null"
  | undefined => "undefined"
  | numberLiteral value => literalText value
  | stringLiteral value => String.ofList (Quoted.encode value.toList)
  | primitive p => p.text
  | object properties =>
    if properties.isEmpty then "\x7b\x7d"
    else "\x7b " ++ "; ".intercalate (describeProperties properties) ++ " \x7d"
  | union members => joinMembers " | " (describeMembers members)
  | intersection members => joinMembers " & " (describeMembers members)
  | unsupported name => name

def describeProperties : List (Property Ty) → List String
  | [] => []
  | ⟨name, type, optional⟩ :: rest =>
    (name ++ (if optional then "?" else "") ++ ": " ++ type.describe) :: describeProperties rest

def describeMembers : List Ty → List String
  | [] => []
  | member :: rest =>
    (if member.isCompound then "(" ++ member.describe ++ ")" else member.describe) :: describeMembers rest

end

end Ty

inductive Kind where
  | any
  | never
  | null
  | undefined
  | numberLiteral
  | stringLiteral
  | primitive
  | object
  | union
  | intersection
  | unsupported
  deriving DecidableEq, Repr

namespace Kind

/-- The name under which a form is exchanged. -/
def name : Kind → String
  | any => "any"
  | never => "never"
  | null => "null"
  | undefined => "undefined"
  | numberLiteral => "number_literal"
  | stringLiteral => "string_literal"
  | primitive => "primitive"
  | object => "object"
  | union => "union"
  | intersection => "intersection"
  | unsupported => "unsupported"

/-- The name of the one field that a form carries, if it carries one. -/
def field? : Kind → Option String
  | any | never | null | undefined => none
  | numberLiteral | stringLiteral => some "value"
  | primitive => some "primitive"
  | object => some "properties"
  | union | intersection => some "members"
  | unsupported => some "name"

/-- All forms, in the order in which messages list them. -/
def all : List Kind :=
  [any, never, null, undefined, numberLiteral, stringLiteral, primitive, object, union, intersection,
    unsupported]

def tag (kind : Kind) (fields : List (String × Json)) : Json :=
  .object (("kind", .string kind.name) :: fields)

end Kind

namespace Ty

mutual

/-- A type as a JSON object with its kind first and then what belongs to the kind. -/
def toJson : Ty → Json
  | any => Kind.any.tag []
  | never => Kind.never.tag []
  | null => Kind.null.tag []
  | undefined => Kind.undefined.tag []
  | numberLiteral value => Kind.numberLiteral.tag [("value", .number (.real value))]
  | stringLiteral value => Kind.stringLiteral.tag [("value", .string value)]
  | primitive p => Kind.primitive.tag [("primitive", .string p.text)]
  | object properties => Kind.object.tag [("properties", .array (propertiesToJson properties))]
  | union members => Kind.union.tag [("members", .array (membersToJson members))]
  | intersection members => Kind.intersection.tag [("members", .array (membersToJson members))]
  | unsupported name => Kind.unsupported.tag [("name", .string name)]

def propertiesToJson : List (Property Ty) → List Json
  | [] => []
  | ⟨name, type, optional⟩ :: rest =>
    .object [("name", .string name), ("type", type.toJson), ("optional", .bool optional)] ::
      propertiesToJson rest

def membersToJson : List Ty → List Json
  | [] => []
  | member :: rest => member.toJson :: membersToJson rest

end

end Ty
end TypedJson
