import TypedJson.Proofs.Conformance
import Mathlib.Data.List.Perm.Basic
import Mathlib.Data.Option.Basic

/-! # Objects are open and unordered

`Json.Reshapes` relates values of which the second comes from the first by putting members of objects in another
order and by adding members, at any depth. A type lists the same disagreements with both, in the same order, if
the names of the added members are not among those of its properties.
-/

namespace TypedJson

theorem getMember?_append {α : Type} (name : String) (members others : List (String × α)) :
    getMember? name (members ++ others) = (getMember? name members).or (getMember? name others) := by
  induction members with
  | nil => rfl
  | cons member rest ih =>
    simp only [List.cons_append, getMember?, ih]
    split
    case isTrue => rfl
    case isFalse => rfl

/-- The order of members does not count if each has a name of its own. -/
theorem getMember?_of_perm {α : Type} {members others : List (String × α)} (perm : members.Perm others)
    (distinct : (members.map Prod.fst).Nodup) (name : String) : getMember? name members = getMember? name others := by
  induction perm with
  | nil => rfl
  | cons member perm ih => simp only [getMember?, ih (List.nodup_cons.mp distinct).2]
  | swap first second rest =>
    have apart : second.1 ≠ first.1 := fun same => (List.nodup_cons.mp distinct).1 (same ▸ List.mem_cons_self)
    simp only [getMember?]
    by_cases asked : first.1 = name
    · rw [if_neg (asked ▸ apart), if_pos asked, if_pos asked]
    · rw [if_neg asked, if_neg asked]
  | trans perm _ ih ih' => exact (ih distinct).trans (ih' ((perm.map Prod.fst).nodup_iff.mp distinct))

namespace Json

/-- The second value comes from the first one by putting the members of objects in another order, where each has
a name of its own, and by adding members whose names are free. -/
inductive Reshapes (free : String → Prop) : Json → Json → Prop
  | refl (value : Json) : Reshapes free value value
  | trans {first second third : Json} (front : Reshapes free first second) (back : Reshapes free second third) :
      Reshapes free first third
  | reorder {members others : List (String × Json)} (distinct : (members.map Prod.fst).Nodup)
      (perm : members.Perm others) : Reshapes free (.object members) (.object others)
  | add {name : String} (unused : free name) (value : Json) (members : List (String × Json)) :
      Reshapes free (.object members) (.object (members ++ [(name, value)]))
  | member {value other : Json} (inside : Reshapes free value other) (before : List (String × Json))
      (name : String) (after : List (String × Json)) :
      Reshapes free (.object (before ++ (name, value) :: after)) (.object (before ++ (name, other) :: after))
  | item {value other : Json} (inside : Reshapes free value other) (before after : List Json) :
      Reshapes free (.array (before ++ value :: after)) (.array (before ++ other :: after))

namespace Reshapes

variable {free : String → Prop} {value other : Json} {fields : List (String × Json)}

/-- What may be added where fewer names are free may be added where more are. -/
theorem mono {more : String → Prop} (wider : ∀ name, free name → more name) (reshapes : Reshapes free value other) :
    Reshapes more value other := by
  induction reshapes with
  | refl value => exact .refl value
  | trans _ _ ih ih' => exact ih.trans ih'
  | reorder distinct perm => exact .reorder distinct perm
  | add unused value members => exact .add (wider _ unused) value members
  | member _ before name after ih => exact ih.member before name after
  | item _ before after ih => exact ih.item before after

theorem kindName_eq (reshapes : Reshapes free value other) : kindName (some value) = kindName (some other) := by
  induction reshapes with
  | trans _ _ ih ih' => exact ih.trans ih'
  | _ => rfl

/-- A type without parts does not look into objects and arrays. -/
theorem acceptsSimple_eq (reshapes : Reshapes free value other) (type : Ty) :
    type.acceptsSimple (some value) = type.acceptsSimple (some other) := by
  induction reshapes with
  | refl => rfl
  | trans _ _ ih ih' => exact ih.trans ih'
  | _ => cases type with
    | primitive p => cases p <;> rfl
    | _ => rfl

theorem refl_looked (looked : Option Json) : Option.Rel (Reshapes free) looked looked := by
  cases looked with
  | none => exact .none
  | some value => exact .some (.refl value)

theorem trans_looked {first second third : Option Json} (front : Option.Rel (Reshapes free) first second)
    (back : Option.Rel (Reshapes free) second third) : Option.Rel (Reshapes free) first third := by
  cases front with
  | none => exact back
  | some front =>
    cases back with
    | some back => exact .some (front.trans back)

/-- An object stays an object. Under a name that is not free it has a member as before, or none as before. -/
theorem exists_fields (reshapes : Reshapes free (.object fields) other) :
    ∃ others, other = .object others ∧ ∀ name, ¬ free name →
      Option.Rel (Reshapes free) (getMember? name fields) (getMember? name others) := by
  generalize started : Json.object fields = start at reshapes
  induction reshapes generalizing fields with
  | refl value => exact ⟨fields, started.symm, fun name _ => refl_looked _⟩
  | trans front back ih ih' =>
    obtain ⟨middle, rfl, looks⟩ := ih started
    obtain ⟨others, rfl, looks'⟩ := ih' rfl
    refine ⟨others, rfl, fun name used => ?_⟩
    exact trans_looked (looks name used) (looks' name used)
  | @reorder members others distinct perm =>
    obtain rfl := Json.object.inj started
    exact ⟨others, rfl, fun name _ => getMember?_of_perm perm distinct name ▸ refl_looked _⟩
  | @add added unused value members =>
    obtain rfl := Json.object.inj started
    refine ⟨_, rfl, fun name used => ?_⟩
    have apart : added ≠ name := fun asked => used (asked ▸ unused)
    rw [getMember?_append, getMember?, if_neg apart, getMember?, Option.or_none]
    exact refl_looked _
  | @member value other inside before name after ih =>
    obtain rfl := Json.object.inj started
    refine ⟨_, rfl, fun asked _ => ?_⟩
    rw [getMember?_append, getMember?_append, getMember?, getMember?]
    cases getMember? asked before with
    | some found => exact refl_looked _
    | none =>
      by_cases here : name = asked
      · rw [if_pos here, if_pos here]
        exact .some inside
      · rw [if_neg here, if_neg here]
        exact refl_looked _
  | item => cases started

end Reshapes
end Json

namespace Ty

variable {policy : UnsupportedPolicy} {type : Ty} {members : List Ty} {properties : List (Property Ty)}
  {path name : String} {free : String → Prop} {value other : Json}

mutual

/-- The names of properties in a type, at every depth. -/
def propertyNames : Ty → List String
  | object properties => declaredNames properties
  | union members | intersection members => memberNames members
  | _ => []

/-- The names of properties, and those in their types. -/
def declaredNames : List (Property Ty) → List String
  | [] => []
  | ⟨name, type, _⟩ :: rest => name :: type.propertyNames ++ declaredNames rest

/-- The names of properties in the members of a compound type. -/
def memberNames : List Ty → List String
  | [] => []
  | member :: rest => member.propertyNames ++ memberNames rest

end

theorem memberNames_eq_flatMap (members : List Ty) : memberNames members = members.flatMap propertyNames := by
  induction members with
  | nil => rfl
  | cons member rest ih => rw [memberNames, ih, List.flatMap_cons]

theorem declaredNames_eq_flatMap (properties : List (Property Ty)) :
    declaredNames properties = properties.flatMap fun property => property.name :: property.type.propertyNames := by
  induction properties with
  | nil => rfl
  | cons property rest ih => rw [declaredNames, ih, List.flatMap_cons]

/-- The names in a part of a type are names in the type. -/
theorem mem_memberNames {member : Ty} (listed : member ∈ members) (named : name ∈ member.propertyNames) :
    name ∈ memberNames members := by
  rw [memberNames_eq_flatMap, List.mem_flatMap]
  exact ⟨member, listed, named⟩

theorem mem_declaredNames {property : Property Ty} (listed : property ∈ properties)
    (named : name ∈ property.name :: property.type.propertyNames) : name ∈ declaredNames properties := by
  rw [declaredNames_eq_flatMap, List.mem_flatMap]
  exact ⟨property, listed, named⟩

/-- Whether a value conforms to some member depends on the lists of the members alone. -/
theorem conformsToAny_congr (policy : UnsupportedPolicy) (path : String) {value other : Option Json}
    (same : ∀ member ∈ members, member.mismatches policy value path = member.mismatches policy other path) :
    conformsToAny policy members value path = conformsToAny policy members other path := by
  rw [Bool.eq_iff_iff, conformsToAny_iff, conformsToAny_iff]
  exact exists_congr fun member => and_congr_right fun listed => by rw [same member listed]

/-- Objects are open and unordered at every depth. A type lists the same disagreements in the same order after
members of objects have been put in another order, and after members have been added whose names are not those
of properties in the type. -/
theorem mismatches_eq_of_reshapes (policy : UnsupportedPolicy) (type : Ty) (path : String) {value other : Json}
    (reshapes : value.Reshapes (· ∉ type.propertyNames) other) :
    type.mismatches policy (some value) path = type.mismatches policy (some other) path := by
  have kinds := reshapes.kindName_eq
  induction type generalizing value other path with
  | object properties ih =>
    cases value with
    | object fields =>
      obtain ⟨others, rfl, looks⟩ := reshapes.exists_fields
      rw [mismatches, mismatches, propertyMismatches_eq_flatMap, propertyMismatches_eq_flatMap]
      refine List.flatMap_congr fun property listed => ?_
      have looked := looks property.name (not_not_intro (mem_declaredNames listed List.mem_cons_self))
      rw [propertyShare, propertyShare]
      generalize getMember? property.name fields = found, getMember? property.name others = kept at looked ⊢
      cases looked with
      | none => rfl
      | some within =>
        have narrower := within.mono fun _ unused named =>
          unused (mem_declaredNames listed (List.mem_cons_of_mem _ named))
        exact ih property listed _ narrower narrower.kindName_eq
    | _ =>
      cases other with
      | object others => simp [kindName] at kinds
      | _ => simp only [mismatches, mismatch, kinds]
  | union members ih =>
    have same := conformsToAny_congr policy path fun member listed =>
      ih member listed path (reshapes.mono fun _ unused named => unused (mem_memberNames listed named)) kinds
    rw [mismatches, mismatches, same, mismatch, mismatch, kinds]
  | intersection members ih =>
    rw [mismatches, mismatches, memberMismatches_eq_flatMap, memberMismatches_eq_flatMap]
    exact List.flatMap_congr fun member listed =>
      ih member listed path (reshapes.mono fun _ unused named => unused (mem_memberNames listed named)) kinds
  | unsupported name => rw [mismatches, mismatches, kinds]
  | _ => simp only [mismatches, mismatch, reshapes.acceptsSimple_eq, kinds]

/-- Two objects, one in the other, with their members in another order and one more member in each. What is said
about a union, about a scalar and about a missing property stays. -/
theorem mismatches_eq_of_reshapes_nested :
    let type := object [⟨"a", union [object [⟨"b", primitive .string, false⟩], null], false⟩,
      ⟨"c", primitive .boolean, true⟩, ⟨"d", any, false⟩]
    let value : Json := .object [("a", .object [("b", .bool true)]), ("c", .string "x")]
    let other : Json := .object [("c", .string "x"), ("z", .array []), ("a", .object [("y", .null), ("b", .bool true)])]
    value.Reshapes (· ∉ type.propertyNames) other ∧ type.mismatches .report (some other) "" =
      [⟨"a", "\x7b b: string \x7d | null", "object", .typeMismatch⟩, ⟨"c", "boolean", "string", .typeMismatch⟩,
        ⟨"d", "any", "undefined", .missingProperty⟩] := by
  intro type value other
  have inner : Json.Reshapes (· ∉ type.propertyNames) (.object [("b", .bool true)])
      (.object [("y", .null), ("b", .bool true)]) :=
    .trans (.add (by decide) .null _) (.reorder (by decide) (.swap _ _ _))
  have added : "z" ∉ type.propertyNames := by decide
  have larger := (inner.member [] "a" [("c", .string "x")]).trans (.add added (.array []) _)
  have reshapes : value.Reshapes (· ∉ type.propertyNames) other :=
    larger.trans (.reorder (by decide) (List.perm_append_comm : List.Perm ([_] ++ [_, _]) _))
  refine ⟨reshapes, ?_⟩
  rw [← mismatches_eq_of_reshapes .report type "" reshapes]
  decide +kernel

end Ty
end TypedJson
