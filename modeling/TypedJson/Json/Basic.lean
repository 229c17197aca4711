import TypedJson.Decimal.Layout
import TypedJson.Json.Quoted

/-! # JSON values

`Json` keeps the members of an object in the order in which they were written, repeated names
included; `Json.canonical` keeps one member of each name, with the last value at the first place.
-/

namespace TypedJson

/-- A number as it was written: without fraction and exponent it is an integer of 64 bits if it fits,
and anything else is a floating-point number. -/
inductive Number where
  | natural (n : UInt64)
  | negative (n : Int64)
  | real (x : Float)

inductive Json where
  | null
  | bool (value : Bool)
  | number (value : Number)
  | string (value : String)
  | array (items : List Json)
  | object (members : List (String × Json))

namespace Number

def toFloat : Number → Float
  | natural n => n.toFloat
  | negative n => n.toFloat
  | real x => x

def text : Number → String
  | natural n => toString n.toNat
  | negative n => toString n.toInt
  | real x => Decimal.jsonLayout.write x

end Number

/-- Replaces the value of the first member with the name, or adds a member at the end. -/
def setMember {α : Type} (name : String) (value : α) : List (String × α) → List (String × α)
  | [] => [(name, value)]
  | (other, old) :: rest =>
    if other = name then (other, value) :: rest else (other, old) :: setMember name value rest

/-- The value of the first member with the name. -/
def getMember? {α : Type} (name : String) : List (String × α) → Option α
  | [] => none
  | (other, value) :: rest => if other = name then some value else getMember? name rest

theorem getMember?_setMember {α : Type} (name other : String) (value : α) (members : List (String × α)) :
    getMember? other (setMember name value members) =
      if other = name then some value else getMember? other members := by
  induction members with
  | nil => simp [setMember, getMember?, eq_comm]
  | cons member rest ih =>
    obtain ⟨first, old⟩ := member
    by_cases here : first = name
    · subst here
      by_cases asked : other = first
      · simp [setMember, getMember?, asked]
      · have : ¬ first = other := fun h => asked h.symm
        simp [setMember, getMember?, asked, this]
    · simp only [setMember, if_neg here, getMember?, ih]
      by_cases asked : other = name <;> by_cases found : first = other <;> simp_all

/-- One member of each name: the last value at the place of the first. -/
def uniqueMembers {α : Type} (members : List (String × α)) : List (String × α) :=
  members.foldl (fun kept (name, value) => setMember name value kept) []

namespace Json

mutual

/-- The value with one member of each name in every object. -/
def canonical : Json → Json
  | .array items => .array (canonicalItems items)
  | .object members => .object (uniqueMembers (canonicalMembers members))
  | other => other

def canonicalItems : List Json → List Json
  | [] => []
  | item :: rest => item.canonical :: canonicalItems rest

def canonicalMembers : List (String × Json) → List (String × Json)
  | [] => []
  | (name, value) :: rest => (name, value.canonical) :: canonicalMembers rest

end

end Json
end TypedJson
