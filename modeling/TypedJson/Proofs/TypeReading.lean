import TypedJson.Proofs.FirstValue
import TypedJson.TypeModule

/-! # The values that are read as types

What a located tree is read as depends on its value alone: `Ty.Taken` relates the values that are accepted to
their types, and `TypeModule.Exports` does the same for modules. At the outermost level the kind has to be a name;
all that stands below is read from plain values.
-/

namespace TypedJson

namespace Ty

variable {found : Option Kind} {kind : Kind} {others members : List (String × Json)} {type : Ty} {value : Json}

/-- The members of a type, split into its kind, which comes once, and the other members in order. -/
inductive Collected : Option Kind → List (String × Json) → Kind → List (String × Json) → Prop
  | done (kind : Kind) : Collected (some kind) [] kind []
  | kind {name : String} {named kind : Kind} {members others : List (String × Json)}
      (listed : getMember? name kindVariants = some named) (rest : Collected (some named) members kind others) :
      Collected none (("kind", .string name) :: members) kind others
  | other {found : Option Kind} {name : String} {value : Json} {kind : Kind} {members others : List (String × Json)}
      (foreign : name ≠ "kind") (rest : Collected found members kind others) :
      Collected found ((name, value) :: members) kind ((name, value) :: others)

/-- A value is taken for a type: an object with its kind among its members, or an array that begins with its kind. -/
inductive Taken : Json → Ty → Prop
  | object {members others : List (String × Json)} {kind : Kind} {type : Ty}
      (collected : Collected none members kind others) (reads : ofMembers kind none others = .ok type) :
      Taken (.object members) type
  | array {name : String} {kind : Kind} {items : List Json} {type : Ty}
      (listed : getMember? name kindVariants = some kind) (reads : ofItems kind items = .ok type) :
      Taken (.array (.string name :: items)) type

theorem Taken.isBracketed (taken : Taken value type) : value.IsBracketed := by
  cases taken with
  | object => exact .object _
  | array => exact .array _

theorem accepts_expectKind : Accepts expectKind fun value kind =>
    ∃ name, value = .string name ∧ getMember? name kindVariants = some kind := by
  refine .of_scalar ?_ (fun _ _ _ => error_ne_ok) (fun _ _ _ => error_ne_ok) (fun _ _ _ _ => error_ne_ok) ?_
  · intro start value stop kind
    cases value <;> simp [expectKind, Node.refuse, Node.lookupVariant_eq_ok_iff, Scalar.value]
  · rintro _ kind ⟨name, rfl, -⟩
    exact ⟨.string name, rfl⟩

theorem accepts_expectValue : Accepts expectValue fun value result => value = result := by
  intro node result
  rw [expectValue, mapError_eq_ok_iff]
  exact ⟨fun valued => ⟨_, valued, rfl⟩, fun ⟨_, valued, same⟩ => same ▸ valued⟩

theorem placeless_eq_ok_iff {result : Except Problem Ty} : placeless result = .ok type ↔ result = .ok type :=
  mapError_eq_ok_iff

theorem collect_eq_ok_iff {members : Members} : collect found members = .ok (kind, others) ↔
    ∃ values, members.values = .ok values ∧ Collected found values kind others := by
  fun_induction collect found members generalizing kind others with
  | case1 named stop =>
    simp only [Except.ok.injEq, Prod.mk.injEq, Members.values, exists_eq_left']
    constructor
    · rintro ⟨rfl, rfl⟩
      exact .done _
    · rintro ⟨⟩
      exact ⟨rfl, rfl⟩
  | case2 stop =>
    refine iff_of_false error_ne_ok ?_
    rintro ⟨_, ⟨⟩, ⟨⟩⟩
  | case3 => exact refused_iff
  | case4 => exact refused_iff
  | case5 => exact refused_iff
  | case6 found _ _ value _ rest again =>
    refine iff_of_false error_ne_ok ?_
    rintro ⟨_, valued, collected⟩
    obtain ⟨first, values, -, -, rfl⟩ := Members.values_member_eq_ok_iff.mp valued
    cases collected with
    | kind => cases again
    | other foreign => exact foreign rfl
  | case7 found _ _ value _ rest new ih =>
    obtain rfl : found = none := Option.not_isSome_iff_eq_none.mp new
    simp only [bind_eq_ok_iff, mapError_eq_ok_iff, accepts_expectKind value _, ih, Members.values_member_eq_ok_iff]
    constructor
    · rintro ⟨named, ⟨_, valued, name, rfl, listed⟩, values, ended, collected⟩
      exact ⟨_, ⟨_, _, valued, ended, rfl⟩, .kind listed collected⟩
    · rintro ⟨_, ⟨first, values, valued, ended, rfl⟩, collected⟩
      cases collected with
      | kind listed collected => exact ⟨_, ⟨_, valued, _, rfl, listed⟩, values, ended, collected⟩
      | other foreign => exact absurd rfl foreign
  | case8 found name _ _ value _ rest foreign ih =>
    simp only [bind_eq_ok_iff, mapError_eq_ok_iff, accepts_expectValue value _, Prod.exists, ih,
      Members.values_member_eq_ok_iff, Except.ok.injEq, Prod.mk.injEq, exists_eq_right]
    constructor
    · rintro ⟨first, valued, _, _, ⟨values, ended, collected⟩, rfl, rfl⟩
      exact ⟨_, ⟨first, values, valued, ended, rfl⟩, .other foreign collected⟩
    · rintro ⟨_, ⟨first, values, valued, ended, rfl⟩, collected⟩
      cases collected with
      | kind => exact absurd rfl foreign
      | other _ collected => exact ⟨first, valued, _, _, ⟨values, ended, collected⟩, rfl, rfl⟩

theorem accepts_ofNode : Accepts ofNode Taken := by
  intro node type
  fun_cases ofNode node with
  | case1 start members =>
    simp only [bind_eq_ok_iff, Prod.exists, collect_eq_ok_iff, placeless_eq_ok_iff, Node.value_object]
    constructor
    · rintro ⟨kind, others, ⟨values, valued, collected⟩, reads⟩
      exact ⟨_, ⟨values, valued, rfl⟩, .object collected reads⟩
    · rintro ⟨_, ⟨values, valued, rfl⟩, taken⟩
      cases taken with
      | object collected reads => exact ⟨_, _, ⟨values, valued, collected⟩, reads⟩
  | case2 start stop =>
    refine iff_of_false error_ne_ok ?_
    rintro ⟨_, ⟨⟩, ⟨⟩⟩
  | case3 => exact refused_iff
  | case4 start head rest =>
    simp only [bind_eq_ok_iff, mapError_eq_ok_iff, accepts_expectKind head _,
      Items.expectAll_eq_ok_iff accepts_expectValue, List.forall₂_eq_eq_eq, exists_eq_right, placeless_eq_ok_iff,
      Node.value_array, Items.values_item_eq_ok_iff]
    constructor
    · rintro ⟨kind, ⟨_, valued, name, rfl, listed⟩, values, ended, reads⟩
      exact ⟨_, ⟨_, ⟨_, values, valued, ended, rfl⟩, rfl⟩, .array listed reads⟩
    · rintro ⟨_, ⟨_, ⟨first, values, valued, ended, rfl⟩, rfl⟩, taken⟩
      cases taken with
      | array listed reads => exact ⟨_, ⟨_, valued, _, rfl, listed⟩, values, ended, reads⟩
  | case5 node object close broken item =>
    cases node with
    | scalar start value stop =>
      refine iff_of_false error_ne_ok ?_
      rintro ⟨_, valued, taken⟩
      cases value <;> cases valued <;> cases taken
    | broken => exact refused_iff
    | object start members => exact absurd rfl (object start members)
    | array start items =>
      cases items with
      | close stop => exact absurd rfl (close start stop)
      | broken fault => exact absurd rfl (broken start fault)
      | item head rest => exact absurd rfl (item start head rest)

end Ty

namespace TypeModule

/-- The members of an object export types, after the types that were exported before. -/
inductive Exports : TypeModule → List (String × Json) → TypeModule → Prop
  | done (types : TypeModule) : Exports types [] types
  | member {name : String} {value : Json} {type : Ty} {types result : TypeModule} {members : List (String × Json)}
      (taken : Ty.Taken value type) (rest : Exports (setMember name type types) members result) :
      Exports types ((name, value) :: members) result

theorem ofMembers_eq_ok_iff {types result : TypeModule} {members : Members} :
    ofMembers types members = .ok result ↔ ∃ values, members.values = .ok values ∧ Exports types values result := by
  fun_induction ofMembers types members with
  | case1 types stop =>
    simp only [Except.ok.injEq, Members.values, exists_eq_left']
    constructor
    · rintro rfl
      exact .done _
    · rintro ⟨⟩
      rfl
  | case2 => exact refused_iff
  | case3 => exact refused_iff
  | case4 types name _ _ value rested rest ih =>
    simp only [bind_eq_ok_iff, mapError_eq_ok_iff, Ty.accepts_ofNode value _, ih, Members.values_member_eq_ok_iff]
    constructor
    · rintro ⟨type, ⟨first, valued, taken⟩, values, ended, exports⟩
      exact ⟨_, ⟨first, values, valued, ended, rfl⟩, .member taken exports⟩
    · rintro ⟨_, ⟨first, values, valued, ended, rfl⟩, exports⟩
      cases exports with
      | member taken exports => exact ⟨_, ⟨first, valued, taken⟩, values, ended, exports⟩

theorem accepts_ofNode : Accepts ofNode fun value types =>
    ∃ members, value = .object members ∧ Exports [] members types := by
  intro node types
  cases node with
  | object start members =>
    simp only [ofNode, ofMembers_eq_ok_iff, Node.value_object]
    constructor
    · rintro ⟨values, valued, exports⟩
      exact ⟨_, ⟨values, valued, rfl⟩, values, rfl, exports⟩
    · rintro ⟨_, ⟨values, valued, rfl⟩, _, ⟨⟩, exports⟩
      exact ⟨values, valued, exports⟩
  | array start items =>
    refine iff_of_false error_ne_ok ?_
    rintro ⟨_, valued, members, rfl, -⟩
    obtain ⟨values, -, ⟨⟩⟩ := Node.value_array.mp valued
  | scalar start value stop =>
    refine iff_of_false error_ne_ok ?_
    rintro ⟨_, valued, members, rfl, -⟩
    cases value <;> cases valued
  | broken => exact refused_iff

end TypeModule
end TypedJson
