import TypedJson.Proofs.Conformance

/-! # What the report of unsupported types adds

A policy says whether types that cannot be compared by structure accept every value or are reported. The report
takes no disagreement away and leaves their order alone. What it adds is about such a type itself, or about a
union that a value conforms to only because such a type in it accepts everything.
-/

namespace TypedJson

/-- The second list comes from the first one by adding entries of a kind. The others stay in their order. -/
inductive Widens {α : Type} (added : α → Prop) : List α → List α → Prop
  | nil : Widens added [] []
  | keep (entry : α) {fewer more : List α} (rest : Widens added fewer more) :
      Widens added (entry :: fewer) (entry :: more)
  | add {entry : α} {fewer more : List α} (new : added entry) (rest : Widens added fewer more) :
      Widens added fewer (entry :: more)

namespace Widens

variable {α β : Type} {added wider : α → Prop} {fewer more : List α}

theorem refl (list : List α) : Widens added list list := by
  induction list with
  | nil => exact .nil
  | cons entry rest ih => exact .keep entry ih

theorem mono (widens : Widens added fewer more) (implies : ∀ entry, added entry → wider entry) :
    Widens wider fewer more := by
  induction widens with
  | nil => exact .nil
  | keep entry _ ih => exact .keep entry ih
  | add new _ ih => exact .add (implies _ new) ih

theorem append {fewer' more' : List α} (front : Widens added fewer more) (back : Widens added fewer' more') :
    Widens added (fewer ++ fewer') (more ++ more') := by
  induction front with
  | nil => exact back
  | keep entry _ ih => exact .keep entry ih
  | add new _ ih => exact .add new ih

/-- Where each part of a list is widened, the whole list is. -/
theorem flatMap {parts : List β} {share larger : β → List α}
    (each : ∀ part ∈ parts, Widens added (share part) (larger part)) :
    Widens added (parts.flatMap share) (parts.flatMap larger) := by
  induction parts with
  | nil => exact .nil
  | cons part rest ih =>
    rw [List.flatMap_cons, List.flatMap_cons]
    obtain ⟨first, others⟩ := List.forall_mem_cons.mp each
    exact first.append (ih others)

theorem sublist (widens : Widens added fewer more) : fewer.Sublist more := by
  induction widens with
  | nil => exact .slnil
  | keep entry _ ih => exact ih.cons_cons entry
  | add _ _ ih => exact ih.cons _

/-- A list is the same if nothing could be added to it. -/
theorem eq_of_forall_not (widens : Widens added fewer more) (none : ∀ entry, ¬ added entry) : fewer = more := by
  induction widens with
  | nil => rfl
  | keep entry _ ih => rw [ih]
  | add new => exact (none _ new).elim

end Widens

namespace Ty

variable {policy : UnsupportedPolicy} {type member : Ty} {members : List Ty} {property : Property Ty}
  {properties : List (Property Ty)} {fields : List (String × Json)} {value found : Option Json} {path : String}
  {names : List String} {mismatch : Mismatch}

mutual

/-- A type that cannot be compared by structure stands somewhere in a type. -/
def hasUnsupported : Ty → Bool
  | unsupported _ => true
  | object properties => anyDeclaredUnsupported properties
  | union members | intersection members => anyUnsupported members
  | _ => false

/-- The type of some property has an unsupported type in it. -/
def anyDeclaredUnsupported : List (Property Ty) → Bool
  | [] => false
  | ⟨_, type, _⟩ :: rest => type.hasUnsupported || anyDeclaredUnsupported rest

/-- Some member of a compound type has an unsupported type in it. -/
def anyUnsupported : List Ty → Bool
  | [] => false
  | member :: rest => member.hasUnsupported || anyUnsupported rest

end

theorem anyUnsupported_eq_any (members : List Ty) : anyUnsupported members = members.any hasUnsupported := by
  induction members with
  | nil => rfl
  | cons member rest ih => rw [anyUnsupported, ih, List.any_cons]

theorem anyDeclaredUnsupported_eq_any (properties : List (Property Ty)) :
    anyDeclaredUnsupported properties = properties.any (·.type.hasUnsupported) := by
  induction properties with
  | nil => rfl
  | cons property rest ih => rw [anyDeclaredUnsupported, ih, List.any_cons]

/-- The parts of a type without unsupported types have none. -/
theorem supported_member (supported : anyUnsupported members = false) (listed : member ∈ members) :
    member.hasUnsupported = false := by
  rw [anyUnsupported_eq_any, List.any_eq_false] at supported
  simpa using supported member listed

theorem supported_property (supported : anyDeclaredUnsupported properties = false) (listed : property ∈ properties) :
    property.type.hasUnsupported = false := by
  rw [anyDeclaredUnsupported_eq_any, List.any_eq_false] at supported
  simpa using supported property listed

/-- A value still conforms under a policy that accepts unsupported types, or if there are none in the type. -/
theorem Conforms.under {other : UnsupportedPolicy} (conforms : Conforms policy type value)
    (lenient : other = .permit ∨ type.hasUnsupported = false) : Conforms other type value := by
  induction conforms with
  | any value => exact .any value
  | never => exact .never
  | undefined => exact .undefined
  | null => exact .null
  | numberLiteral equal => exact .numberLiteral equal
  | stringLiteral text => exact .stringLiteral text
  | number n => exact .number n
  | string text => exact .string text
  | boolean b => exact .boolean b
  | object _ absent ih =>
    exact .object (fun property listed value found =>
      ih property listed value found (lenient.imp_right (supported_property · listed))) absent
  | union listed _ ih => exact .union listed (ih (lenient.imp_right (supported_member · listed)))
  | intersection _ ih =>
    exact .intersection fun member listed => ih member listed (lenient.imp_right (supported_member · listed))
  | unsupported _ name value =>
    rcases lenient with rfl | supported
    · exact .unsupported rfl name value
    · cases supported

theorem Conforms.permit (conforms : Conforms policy type value) : Conforms .permit type value :=
  conforms.under (.inl rfl)

/-- The policy does not matter to a type without unsupported types. -/
theorem Conforms.of_supported (conforms : Conforms policy type value) (supported : type.hasUnsupported = false)
    (other : UnsupportedPolicy) : Conforms other type value :=
  conforms.under (.inr supported)

/-- A type that is compared with a value as a whole lists its own disagreement with it, or none. -/
theorem mismatches_of_isWhole (policy : UnsupportedPolicy) (whole : type.isWhole value = true) (path : String) :
    type.mismatches policy value path = [] ∧ Conforms policy type value ∨
      type.mismatches policy value path = [type.wholeMismatch value path] ∧ ¬ Conforms policy type value := by
  have own {b : Prop} [Decidable b] (given : Mismatch) :
      (if b then [] else [given]) = [] ∨ (if b then [] else [given]) = [given] := by
    split
    case isTrue => exact .inl rfl
    case isFalse => exact .inr rfl
  have only : type.mismatches policy value path = [] ∨
      type.mismatches policy value path = [type.wholeMismatch value path] := by
    cases type with
    | intersection members => cases whole
    | object properties =>
      rcases value with _ | value
      · exact .inr rfl
      · cases value with
        | object fields => cases whole
        | _ => exact .inr rfl
    | unsupported name =>
      cases policy with
      | permit => exact .inl rfl
      | report => exact .inr rfl
    | _ =>
      simp only [mismatches]
      exact own _
  rcases only with quiet | refused
  · exact .inl ⟨quiet, mismatches_eq_nil_iff.mp quiet⟩
  · exact .inr ⟨refused, fun conforms => List.cons_ne_nil _ _ (refused ▸ mismatches_eq_nil_iff.mpr conforms)⟩

/-- At the end of a chain of names a type refuses a value as a whole that it accepts where unsupported types are
permitted. The disagreement says so. -/
def RefusedOnReport (type : Ty) (value : Option Json) (path : String) (mismatch : Mismatch) : Prop :=
  ∃ names place found, Reaches type value names place found ∧ place.isWhole found = true ∧
    Conforms .permit place found ∧ ¬ Conforms .report place found ∧
    mismatch = place.wholeMismatch found (extendPath path names)

theorem RefusedOnReport.of_member (listed : member ∈ members) (refused : RefusedOnReport member value path mismatch) :
    RefusedOnReport (intersection members) value path mismatch := by
  obtain ⟨names, place, found, way, rest⟩ := refused
  exact ⟨names, place, found, .member listed way, rest⟩

theorem RefusedOnReport.of_property {value : Json} (listed : property ∈ properties)
    (present : getMember? property.name fields = some value)
    (refused : RefusedOnReport property.type (some value) (childPath path property.name) mismatch) :
    RefusedOnReport (object properties) (some (.object fields)) path mismatch := by
  obtain ⟨names, place, found, way, rest⟩ := refused
  exact ⟨property.name :: names, place, found, .property listed present way, rest⟩

theorem widens_of_isWhole (whole : type.isWhole value = true) :
    Widens (RefusedOnReport type value path) (type.mismatches .permit value path)
      (type.mismatches .report value path) := by
  rcases mismatches_of_isWhole .permit whole path with ⟨permits, conforms⟩ | ⟨permits, refused⟩
  · rw [permits]
    rcases mismatches_of_isWhole .report whole path with ⟨reports, -⟩ | ⟨reports, refused⟩
    · rw [reports]
      exact .nil
    · rw [reports]
      exact .add ⟨[], type, value, .here type value, whole, conforms, refused, rfl⟩ .nil
  · rw [permits]
    rcases mismatches_of_isWhole .report whole path with ⟨-, conforms⟩ | ⟨reports, -⟩
    · exact (refused conforms.permit).elim
    · rw [reports]
      exact .keep _ .nil

/-- The report adds what is refused because of it, and changes nothing else. -/
theorem widens_refusedOnReport (type : Ty) (value : Option Json) (path : String) :
    Widens (RefusedOnReport type value path) (type.mismatches .permit value path)
      (type.mismatches .report value path) := by
  induction type generalizing value path with
  | intersection members ih =>
    rw [mismatches, mismatches, memberMismatches_eq_flatMap, memberMismatches_eq_flatMap]
    exact .flatMap fun member listed => (ih member listed value path).mono fun _ => .of_member listed
  | object properties ih =>
    rcases value with _ | value
    · exact widens_of_isWhole rfl
    · cases value with
      | object fields =>
        rw [mismatches, mismatches, propertyMismatches_eq_flatMap, propertyMismatches_eq_flatMap]
        refine .flatMap fun property listed => ?_
        unfold propertyShare
        cases present : getMember? property.name fields with
        | some value => exact (ih property listed (some value) _).mono fun _ => .of_property listed present
        | none => exact .refl _
      | _ => exact widens_of_isWhole rfl
  | _ => exact widens_of_isWhole rfl

/-- Only an unsupported type, or a union with one in it, accepts or refuses a value as a whole by the policy. -/
theorem unsupported_or_union (whole : type.isWhole value = true) (accepted : Conforms .permit type value)
    (refused : ¬ Conforms .report type value) :
    (∃ name, type = unsupported name) ∨ ∃ members, type = union members ∧ type.hasUnsupported = true := by
  have inside : type.hasUnsupported = true := by
    cases supported : type.hasUnsupported with
    | true => rfl
    | false => exact (refused (accepted.of_supported supported .report)).elim
  cases type with
  | unsupported name => exact .inl ⟨name, rfl⟩
  | union members => exact .inr ⟨members, rfl, inside⟩
  | intersection members => cases whole
  | object properties =>
    cases accepted with
    | object => cases whole
  | _ => cases inside

/-- No chain of names leads from a type without unsupported types to one with them. -/
theorem Reaches.supported {place : Ty} (way : Reaches type value names place found)
    (supported : type.hasUnsupported = false) : place.hasUnsupported = false := by
  induction way with
  | here => exact supported
  | member listed _ ih => exact ih (supported_member supported listed)
  | property listed _ _ ih => exact ih (supported_property supported listed)

/-- The report of unsupported types only adds. What is listed where they are permitted is listed in the same order
where they are reported. Each other entry is about an unsupported type at the end of a chain of names, or refuses a
union there that has an unsupported type in it. Without unsupported types the lists are the same. -/
theorem report_only_adds (type : Ty) (value : Option Json) (path : String) :
    (type.mismatches .permit value path).Sublist (type.mismatches .report value path) ∧
    Widens (fun mismatch =>
        (∃ names name found, Reaches type value names (unsupported name) found ∧
          mismatch = ⟨extendPath path names, name, kindName found, .unsupported⟩) ∨
        ∃ names members found, Reaches type value names (union members) found ∧
          (union members).hasUnsupported = true ∧
          mismatch = ⟨extendPath path names, (union members).describe, kindName found, .typeMismatch⟩)
      (type.mismatches .permit value path) (type.mismatches .report value path) ∧
    (type.hasUnsupported = false → type.mismatches .permit value path = type.mismatches .report value path) := by
  have widens := widens_refusedOnReport type value path
  refine ⟨widens.sublist, widens.mono ?_, fun supported => widens.eq_of_forall_not ?_⟩
  · rintro mismatch ⟨names, place, found, way, whole, accepted, refused, rfl⟩
    rcases unsupported_or_union whole accepted refused with ⟨name, rfl⟩ | ⟨members, rfl, inside⟩
    · exact .inl ⟨names, name, found, way, rfl⟩
    · exact .inr ⟨names, members, found, way, inside, rfl⟩
  · rintro mismatch ⟨names, place, found, way, -, accepted, refused, -⟩
    exact refused (accepted.of_supported (way.supported supported) .report)

/-- A union of a list and nothing accepts a flag as long as lists are not reported, and so does a list alone. Two
entries come before the one that was there. Where there is no list, there is no difference. -/
theorem report_only_adds_lists :
    let type := object [⟨"a", union [null, unsupported "number[]"], false⟩, ⟨"b", unsupported "string[]", false⟩,
      ⟨"c", never, false⟩]
    let other := intersection [union [null, primitive .string], object [⟨"c", never, true⟩]]
    let value : Json := .object [("a", .bool true), ("b", .null), ("c", .null)]
    let refusal : Mismatch := ⟨"c", "never", "null", .typeMismatch⟩
    type.mismatches .permit (some value) "" = [refusal] ∧
      type.mismatches .report (some value) "" =
        [⟨"a", "null | number[]", "boolean", .typeMismatch⟩, ⟨"b", "string[]", "null", .unsupported⟩, refusal] ∧
      other.hasUnsupported = false ∧
      other.mismatches .permit (some value) "" = other.mismatches .report (some value) "" := by
  intro type other value refusal
  have supported : other.hasUnsupported = false := by decide
  have same := (report_only_adds other (some value) "").2.2 supported
  exact ⟨by decide +kernel, by decide +kernel, supported, same⟩

end Ty
end TypedJson
