import TypedJson.TypeTag
import TypedJson.Proofs.Conformance
import Mathlib.Data.List.Forall2

/-! # Types that accept the same values

A description lists the operands of a type, either of which a value may conform to or all of which it has to.
Types that list operands which accept the same, in the same way, accept the same; a union or an intersection of one
type accepts what that type does, and a union of nothing no present value, as the `never` that is shown for it.
-/

namespace TypedJson.Ty

variable {policy : UnsupportedPolicy} {type other member member' : Ty} {members members' : List Ty}
  {properties properties' : List (Property Ty)} {value : Option Json}

/-! ## Types that are told by their text -/

mutual

/-- A test holds of a type and of all its parts. The types of properties count as parts if this is asked for. -/
def everyPart (declared : Bool) (test : Ty → Bool) : Ty → Bool
  | object properties => test (object properties) && (!declared || everyDeclared declared test properties)
  | union members => test (union members) && everyMember declared test members
  | intersection members => test (intersection members) && everyMember declared test members
  | type => test type

/-- A test holds of the types of all properties and of their parts. -/
def everyDeclared (declared : Bool) (test : Ty → Bool) : List (Property Ty) → Bool
  | [] => true
  | ⟨_, type, _⟩ :: rest => type.everyPart declared test && everyDeclared declared test rest

/-- A test holds of all members of a compound type and of their parts. -/
def everyMember (declared : Bool) (test : Ty → Bool) : List Ty → Bool
  | [] => true
  | member :: rest => member.everyPart declared test && everyMember declared test rest

end

/-- A type that is no unsupported one, and whose properties have ASCII identifiers for names. -/
def isPlain : Ty → Bool
  | object properties => properties.all fun property => TypeTag.isIdentifier property.name.toList
  | unsupported _ => false
  | _ => true

/-- A union of nothing. -/
def isEmptyUnion : Ty → Bool
  | union [] => true
  | _ => false

/-- An intersection of nothing. -/
def isEmptyIntersection : Ty → Bool
  | intersection [] => true
  | _ => false

/-- All parts of a type are plain, and none is an intersection of nothing, which accepts everything. -/
def isLegible (type : Ty) : Bool := type.everyPart true fun part => part.isPlain && !part.isEmptyIntersection

/-- No part of a type that is compared with the value as a whole is a union of nothing, which refuses the absence
of a value. -/
def isFilled (type : Ty) : Bool := type.everyPart false fun part => !part.isEmptyUnion

theorem everyMember_eq_all (declared : Bool) (test : Ty → Bool) (members : List Ty) :
    everyMember declared test members = members.all (everyPart declared test) := by
  induction members with
  | nil => rfl
  | cons member rest ih => rw [everyMember, ih, List.all_cons]

theorem everyDeclared_eq_all (declared : Bool) (test : Ty → Bool) (properties : List (Property Ty)) :
    everyDeclared declared test properties = properties.all fun property => property.type.everyPart declared test := by
  induction properties with
  | nil => rfl
  | cons property rest ih => rw [everyDeclared, ih, List.all_cons]

theorem isLegible_union_iff : (union members).isLegible = true ↔ ∀ member ∈ members, member.isLegible = true := by
  simp [isLegible, everyPart, everyMember_eq_all, isPlain, isEmptyIntersection]

theorem isLegible_intersection_iff : (intersection members).isLegible = true ↔
    members ≠ [] ∧ ∀ member ∈ members, member.isLegible = true := by
  cases members <;> simp [isLegible, everyPart, everyMember, everyMember_eq_all, isPlain, isEmptyIntersection]

theorem isLegible_object_iff : (object properties).isLegible = true ↔
    (∀ property ∈ properties, TypeTag.isIdentifier property.name.toList = true) ∧
      ∀ property ∈ properties, property.type.isLegible = true := by
  simp [isLegible, everyPart, everyDeclared_eq_all, isPlain, isEmptyIntersection]

theorem isFilled_union_iff : (union members).isFilled = true ↔
    members ≠ [] ∧ ∀ member ∈ members, member.isFilled = true := by
  cases members <;> simp [isFilled, everyPart, everyMember, everyMember_eq_all, isEmptyUnion]

theorem isFilled_intersection_iff :
    (intersection members).isFilled = true ↔ ∀ member ∈ members, member.isFilled = true := by
  simp [isFilled, everyPart, everyMember_eq_all, isEmptyUnion]

/-! ## Types that accept the same -/

/-- The same values conform to two types. Their absence counts if neither refuses it for a union of nothing. -/
def Alike (policy : UnsupportedPolicy) (type other : Ty) : Prop :=
  ∀ value, (value = none → type.isFilled = true ∧ other.isFilled = true) →
    (Conforms policy type value ↔ Conforms policy other value)

theorem Alike.refl (type : Ty) : Alike policy type type := fun _ _ => Iff.rfl

theorem Alike.symm (alike : Alike policy type other) : Alike policy other type := fun value filled =>
  (alike value fun absent => (filled absent).symm).symm

/-- How a description lists types: a value conforms to either of them or to both. -/
inductive Joint where
  | either
  | both

/-- What stands between two types. -/
def Joint.text : Joint → List Char
  | either => [' ', '|', ' ']
  | both => [' ', '&', ' ']

/-- A value conforms to listed types. -/
def Joint.Accepts (policy : UnsupportedPolicy) (operands : List Ty) (value : Option Json) : Joint → Prop
  | either => ∃ operand ∈ operands, Conforms policy operand value
  | both => ∀ operand ∈ operands, Conforms policy operand value

/-- How the description of a type lists its operands. -/
def joint : Ty → Joint
  | intersection _ => .both
  | _ => .either

/-- The types that a description lists. -/
def operands : Ty → List Ty
  | union [] => [never]
  | union members | intersection members => members
  | type => [type]

theorem isLegible_operand (legible : type.isLegible = true) (listed : member ∈ type.operands) :
    member.isLegible = true := by
  cases type with
  | union members =>
    cases members with
    | nil => exact List.mem_singleton.mp listed ▸ rfl
    | cons => exact isLegible_union_iff.mp legible member listed
  | intersection members => exact (isLegible_intersection_iff.mp legible).2 member listed
  | _ => exact List.mem_singleton.mp listed ▸ legible

theorem isFilled_operand (filled : type.isFilled = true) (listed : member ∈ type.operands) :
    member.isFilled = true := by
  cases type with
  | union members =>
    cases members with
    | nil => cases filled
    | cons => exact (isFilled_union_iff.mp filled).2 member listed
  | intersection members => exact isFilled_intersection_iff.mp filled member listed
  | _ => exact List.mem_singleton.mp listed ▸ filled

/-- What a type accepts is told by its operands. -/
theorem conforms_iff_accepts (filled : value = none → type.isFilled = true) :
    Conforms policy type value ↔ type.joint.Accepts policy type.operands value := by
  cases type with
  | union members =>
    cases members with
    | nil =>
      -- Nothing conforms to a union of nothing, and no present value to the type that is listed for it.
      refine iff_of_false (fun conforms => ?_) ?_
      · obtain ⟨member, listed, -⟩ := conforms_union_iff.mp conforms
        cases listed
      · rintro ⟨member, listed, conforms⟩
        obtain rfl := List.mem_singleton.mp listed
        cases conforms
        cases filled rfl
    | cons => exact conforms_union_iff
  | intersection members => exact conforms_intersection_iff
  | _ => exact ⟨fun conforms => ⟨_, List.mem_singleton_self _, conforms⟩,
      fun ⟨_, listed, conforms⟩ => List.mem_singleton.mp listed ▸ conforms⟩

theorem exists_related {α : Type} {related : α → α → Prop} {list list' : List α} {entry : α}
    (forall₂ : List.Forall₂ related list list') (listed : entry ∈ list) : ∃ entry' ∈ list', related entry entry' := by
  induction forall₂ with
  | nil => cases listed
  | cons first _ ih =>
    rcases List.mem_cons.mp listed with rfl | listed
    · exact ⟨_, List.mem_cons_self, first⟩
    · obtain ⟨entry', listed', also⟩ := ih listed
      exact ⟨entry', List.mem_cons_of_mem _ listed', also⟩

/-- Types with operands that are alike are alike, if they list them in the same way or there is one only. -/
theorem Alike.of_operands (alike : List.Forall₂ (Alike policy) type.operands other.operands)
    (joint : type.joint = other.joint ∨ type.operands.length = 1) : Alike policy type other := by
  intro value filled
  rw [conforms_iff_accepts fun absent => (filled absent).1, conforms_iff_accepts fun absent => (filled absent).2]
  have same : ∀ member ∈ type.operands, ∀ member' ∈ other.operands, Alike policy member member' →
      (Conforms policy member value ↔ Conforms policy member' value) := fun member listed member' listed' alike =>
    alike value fun absent => ⟨isFilled_operand (filled absent).1 listed, isFilled_operand (filled absent).2 listed'⟩
  have either : Joint.either.Accepts policy type.operands value ↔
      Joint.either.Accepts policy other.operands value := by
    constructor
    · rintro ⟨member, listed, conforms⟩
      obtain ⟨member', listed', related⟩ := exists_related alike listed
      exact ⟨member', listed', (same member listed member' listed' related).mp conforms⟩
    · rintro ⟨member', listed', conforms⟩
      obtain ⟨member, listed, related⟩ := exists_related alike.flip listed'
      exact ⟨member, listed, (same member listed member' listed' related).mpr conforms⟩
  have both : Joint.both.Accepts policy type.operands value ↔ Joint.both.Accepts policy other.operands value := by
    constructor
    · intro conforms member' listed'
      obtain ⟨member, listed, related⟩ := exists_related alike.flip listed'
      exact (same member listed member' listed' related).mp (conforms member listed)
    · intro conforms member listed
      obtain ⟨member', listed', related⟩ := exists_related alike listed
      exact (same member listed member' listed' related).mpr (conforms member' listed')
  rcases joint with joint | single
  · rw [joint]
    cases other.joint
    · exact either
    · exact both
  · obtain ⟨member, only⟩ := List.length_eq_one_iff.mp single
    obtain ⟨member', only'⟩ := List.length_eq_one_iff.mp (alike.length_eq ▸ single)
    rw [only, only'] at either ⊢
    cases type.joint <;> cases other.joint <;> simpa [Joint.Accepts] using either

/-- Two properties have the same name, are both optional or both not, and have types that are alike. -/
structure AlikeProperties (policy : UnsupportedPolicy) (property property' : Property Ty) : Prop where
  name : property.name = property'.name
  optional : property.optional = property'.optional
  type : Alike policy property.type property'.type

theorem conforms_of_alikeProperties
    (alike : ∀ property' ∈ properties', ∃ property ∈ properties, AlikeProperties policy property property')
    (conforms : Conforms policy (object properties) value) : Conforms policy (object properties') value := by
  cases conforms with
  | object present absent =>
    refine .object (fun property' listed' value found => ?_) (fun property' listed' missing => ?_) <;>
      obtain ⟨property, listed, alike⟩ := alike property' listed'
    · exact (alike.type (some value) nofun).mp (present property listed value (alike.name ▸ found))
    · exact alike.optional ▸ absent property listed (alike.name ▸ missing)

theorem AlikeProperties.symm {property property' : Property Ty} (alike : AlikeProperties policy property property') :
    AlikeProperties policy property' property :=
  ⟨alike.name.symm, alike.optional.symm, alike.type.symm⟩

theorem alike_object (alike : List.Forall₂ (AlikeProperties policy) properties properties') :
    Alike policy (object properties) (object properties') := by
  intro value _
  constructor
  · exact conforms_of_alikeProperties fun property' listed' => exists_related alike.flip listed'
  · refine conforms_of_alikeProperties fun property listed => ?_
    obtain ⟨property', listed', related⟩ := exists_related alike listed
    exact ⟨property', listed', related.symm⟩

end TypedJson.Ty
