import TypedJson.Conformance
import Mathlib.Data.List.Basic

/-! # Conformance and its disagreements

`Ty.Conforms` says by rules which values, or their absence, conform to a type. A type lists no disagreement
with a value exactly if the value conforms. `Ty.Reported` follows a disagreement through properties and
members of intersections to the place it is about, and gives the names on the way.
-/

namespace TypedJson.Ty

variable {policy : UnsupportedPolicy} {type : Ty} {members : List Ty} {properties : List (Property Ty)}
  {fields : List (String × Json)} {value : Option Json} {path : String}

/-- Structural induction. The members of a compound type and the types of the properties of an object type
are parts of it. -/
@[elab_as_elim, induction_eliminator]
theorem induction {motive : Ty → Prop} (any : motive any) (never : motive never) (null : motive null)
    (undefined : motive undefined) (numberLiteral : ∀ value, motive (numberLiteral value))
    (stringLiteral : ∀ value, motive (stringLiteral value)) (primitive : ∀ p, motive (primitive p))
    (object : ∀ properties, (∀ property ∈ properties, motive property.type) → motive (object properties))
    (union : ∀ members, (∀ member ∈ members, motive member) → motive (union members))
    (intersection : ∀ members, (∀ member ∈ members, motive member) → motive (intersection members))
    (unsupported : ∀ name, motive (unsupported name)) (type : Ty) : motive type :=
  @Ty.rec motive (fun properties => ∀ property ∈ properties, motive property.type)
    (fun members => ∀ member ∈ members, motive member) (fun property => motive property.type)
    any never null undefined numberLiteral stringLiteral primitive object union intersection unsupported
    nofun (fun _ _ first others => List.forall_mem_cons.mpr ⟨first, others⟩)
    nofun (fun _ _ first others => List.forall_mem_cons.mpr ⟨first, others⟩)
    (fun _ _ _ part => part) type

/-- A value, or its absence, conforms to a type. Numbers are equal if they are equal as floating-point
numbers, which is what a literal type holds. Optionality excuses the absence of a property alone, and
properties that are not declared are ignored. -/
inductive Conforms (policy : UnsupportedPolicy) : Ty → Option Json → Prop
  | any (value : Option Json) : Conforms policy any value
  | never : Conforms policy never none
  | undefined : Conforms policy undefined none
  | null : Conforms policy null (some .null)
  | numberLiteral {n : Number} {expected : Float} (equal : (n.toFloat == expected) = true) :
      Conforms policy (numberLiteral expected) (some (.number n))
  | stringLiteral (text : String) : Conforms policy (stringLiteral text) (some (.string text))
  | number (n : Number) : Conforms policy (primitive .number) (some (.number n))
  | string (text : String) : Conforms policy (primitive .string) (some (.string text))
  | boolean (b : Bool) : Conforms policy (primitive .boolean) (some (.bool b))
  | object {properties : List (Property Ty)} {fields : List (String × Json)}
      (present : ∀ property ∈ properties, ∀ value, getMember? property.name fields = some value →
        Conforms policy property.type (some value))
      (absent : ∀ property ∈ properties, getMember? property.name fields = none → property.optional = true) :
      Conforms policy (object properties) (some (.object fields))
  | union {members : List Ty} {member : Ty} {value : Option Json} (listed : member ∈ members)
      (conforms : Conforms policy member value) : Conforms policy (union members) value
  | intersection {members : List Ty} {value : Option Json}
      (each : ∀ member ∈ members, Conforms policy member value) : Conforms policy (intersection members) value
  | unsupported (permitted : policy = .permit) (name : String) (value : Option Json) :
      Conforms policy (unsupported name) value

theorem conforms_object_iff : Conforms policy (object properties) (some (.object fields)) ↔
    (∀ property ∈ properties, ∀ value, getMember? property.name fields = some value →
      Conforms policy property.type (some value)) ∧
    ∀ property ∈ properties, getMember? property.name fields = none → property.optional = true := by
  constructor
  · intro conforms
    cases conforms with
    | object present absent => exact ⟨present, absent⟩
  · rintro ⟨present, absent⟩
    exact .object present absent

theorem conforms_union_iff :
    Conforms policy (union members) value ↔ ∃ member ∈ members, Conforms policy member value := by
  constructor
  · intro conforms
    cases conforms with
    | union listed conforms => exact ⟨_, listed, conforms⟩
  · rintro ⟨member, listed, conforms⟩
    exact .union listed conforms

theorem conforms_intersection_iff :
    Conforms policy (intersection members) value ↔ ∀ member ∈ members, Conforms policy member value := by
  constructor
  · intro conforms
    cases conforms with
    | intersection each => exact each
  · exact .intersection

theorem conformsToAny_iff :
    conformsToAny policy members value path = true ↔
      ∃ member ∈ members, member.mismatches policy value path = [] := by
  induction members with
  | nil => simp [conformsToAny]
  | cons member rest ih => simp [conformsToAny, ih]

theorem memberMismatches_eq_flatMap (members : List Ty) : memberMismatches policy members value path =
    members.flatMap fun member => member.mismatches policy value path := by
  induction members with
  | nil => rfl
  | cons member rest ih => rw [memberMismatches, ih, List.flatMap_cons]

/-- What one property contributes to the disagreements of an object type with the fields of an object. -/
def propertyShare (policy : UnsupportedPolicy) (fields : List (String × Json)) (path : String)
    (property : Property Ty) : List Mismatch :=
  match getMember? property.name fields with
  | some value => property.type.mismatches policy (some value) (childPath path property.name)
  | none =>
    if property.optional then []
    else [⟨childPath path property.name, property.type.describe, kindName none, .missingProperty⟩]

theorem propertyMismatches_eq_flatMap (properties : List (Property Ty)) :
    propertyMismatches policy properties fields path = properties.flatMap (propertyShare policy fields path) := by
  induction properties with
  | nil => rfl
  | cons property rest ih => rw [propertyMismatches, ih, List.flatMap_cons]; rfl

theorem propertyShare_eq_nil_iff {property : Property Ty} : propertyShare policy fields path property = [] ↔
    (∀ value, getMember? property.name fields = some value →
      property.type.mismatches policy (some value) (childPath path property.name) = []) ∧
    (getMember? property.name fields = none → property.optional = true) := by
  unfold propertyShare
  cases getMember? property.name fields with
  | none => simp
  | some value => simp

/-- A type lists no disagreement with a value, or with its absence, exactly if it conforms. -/
theorem mismatches_eq_nil_iff : type.mismatches policy value path = [] ↔ Conforms policy type value := by
  induction type generalizing value path with
  | any => exact iff_of_true rfl (.any value)
  | never =>
    cases value with
    | none => exact iff_of_true rfl .never
    | some value => exact iff_of_false nofun nofun
  | undefined =>
    cases value with
    | none => exact iff_of_true rfl .undefined
    | some value => exact iff_of_false nofun nofun
  | null =>
    rcases value with _ | value
    · exact iff_of_false nofun nofun
    · cases value with
      | null => exact iff_of_true rfl .null
      | _ => exact iff_of_false nofun nofun
  | numberLiteral expected =>
    rcases value with _ | value
    · exact iff_of_false nofun nofun
    · cases value with
      | number n =>
        by_cases equal : (n.toFloat == expected) = true
        · exact iff_of_true (by simp [mismatches, acceptsSimple, equal]) (.numberLiteral equal)
        · exact iff_of_false (by simp [mismatches, acceptsSimple, equal]) fun | .numberLiteral same => equal same
      | _ => exact iff_of_false nofun nofun
  | stringLiteral expected =>
    rcases value with _ | value
    · exact iff_of_false nofun nofun
    · cases value with
      | string text =>
        by_cases equal : text = expected
        · subst equal
          exact iff_of_true (by simp [mismatches, acceptsSimple]) (.stringLiteral text)
        · exact iff_of_false (by simp [mismatches, acceptsSimple, equal]) fun | .stringLiteral _ => equal rfl
      | _ => exact iff_of_false nofun nofun
  | primitive p =>
    rcases value with _ | value
    · cases p <;> exact iff_of_false nofun nofun
    · cases p <;> cases value <;>
        first
        | exact iff_of_true rfl (by constructor)
        | exact iff_of_false nofun nofun
  | object properties ih =>
    rcases value with _ | value
    · exact iff_of_false nofun nofun
    · cases value with
      | object fields =>
        rw [mismatches, propertyMismatches_eq_flatMap, List.flatMap_eq_nil_iff, conforms_object_iff]
        simp only [propertyShare_eq_nil_iff]
        constructor
        · intro quiet
          exact ⟨fun property listed value found => (ih property listed).mp ((quiet property listed).1 value found),
            fun property listed => (quiet property listed).2⟩
        · rintro ⟨present, absent⟩ property listed
          exact ⟨fun value found => (ih property listed).mpr (present property listed value found),
            absent property listed⟩
      | _ => exact iff_of_false nofun nofun
  | union members ih =>
    have any : conformsToAny policy members value path = true ↔ Conforms policy (union members) value := by
      rw [conformsToAny_iff, conforms_union_iff]
      exact exists_congr fun member => and_congr_right fun listed => ih member listed
    rw [mismatches, ← any]
    split
    case isTrue some => exact iff_of_true rfl some
    case isFalse none => exact iff_of_false (List.cons_ne_nil _ _) none
  | intersection members ih =>
    rw [mismatches, memberMismatches_eq_flatMap, List.flatMap_eq_nil_iff, conforms_intersection_iff]
    exact forall₂_congr fun member listed => ih member listed
  | unsupported name =>
    cases policy with
    | permit => exact iff_of_true rfl (.unsupported rfl name value)
    | report => exact iff_of_false nofun fun | .unsupported permitted _ _ => nomatch permitted

/-- The list of disagreements decides conformance. A union that a value does not conform to is in it once, at
its own path; an intersection adds the lists of its members, and an object type what each property adds. -/
theorem mismatches_decide_conformance (policy : UnsupportedPolicy) :
    (∀ type value path, type.mismatches policy value path = [] ↔ Conforms policy type value) ∧
    (∀ members value path, ¬ Conforms policy (union members) value →
      (union members).mismatches policy value path =
        [⟨path, (union members).describe, kindName value, .typeMismatch⟩]) ∧
    (∀ members value path, (intersection members).mismatches policy value path =
      members.flatMap fun member => member.mismatches policy value path) ∧
    ∀ properties fields path, (object properties).mismatches policy (some (.object fields)) path =
      properties.flatMap (propertyShare policy fields path) := by
  refine ⟨fun type value path => mismatches_eq_nil_iff, fun members value path refused => ?_,
    fun members value path => ?_, fun properties fields path => ?_⟩
  · have listed : (union members).mismatches policy value path ≠ [] := fun none =>
      refused (mismatches_eq_nil_iff.mp none)
    rw [mismatches] at listed ⊢
    split
    case isTrue any => exact absurd (if_pos any) listed
    case isFalse => rfl
  · rw [mismatches, memberMismatches_eq_flatMap]
  · rw [mismatches, propertyMismatches_eq_flatMap]

/-- A flag that is no text and nothing, and cannot be compared with a list, is refused as a whole. -/
theorem mismatches_decide_conformance_flag :
    ¬ Conforms .report (union [null, primitive .string, unsupported "number[]"]) (some (.bool true)) ∧
      (union [null, primitive .string, unsupported "number[]"]).mismatches .report (some (.bool true)) "a.b" =
        [⟨"a.b", "null | string | number[]", "boolean", .typeMismatch⟩] := by
  have refused : ¬ Conforms .report (union [null, primitive .string, unsupported "number[]"])
      (some (.bool true)) := by
    have listed : (union [null, primitive .string, unsupported "number[]"]).mismatches .report (some (.bool true))
        "a.b" ≠ [] := by decide
    exact mt mismatches_eq_nil_iff.mpr listed
  exact ⟨refused, (mismatches_decide_conformance .report).2.1 _ _ "a.b" refused⟩

/-- The path that a chain of names leads to. -/
def extendPath (path : String) (names : List String) : String := names.foldl childPath path

/-- A chain of names leads from a type and a value to a part of both: through declared properties that are
present, and through members of intersections. -/
inductive Reaches : Ty → Option Json → List String → Ty → Option Json → Prop
  | here (type : Ty) (value : Option Json) : Reaches type value [] type value
  | member {members : List Ty} {member place : Ty} {value found : Option Json} {names : List String}
      (listed : member ∈ members) (way : Reaches member value names place found) :
      Reaches (intersection members) value names place found
  | property {properties : List (Property Ty)} {property : Property Ty} {fields : List (String × Json)}
      {value : Json} {place : Ty} {found : Option Json} {names : List String} (listed : property ∈ properties)
      (present : getMember? property.name fields = some value)
      (way : Reaches property.type (some value) names place found) :
      Reaches (object properties) (some (.object fields)) (property.name :: names) place found

/-- A type is compared with a value as a whole, and not part by part. -/
def isWhole : Ty → Option Json → Bool
  | intersection _, _ => false
  | object _, some (.object _) => false
  | _, _ => true

/-- The disagreement of a value with a type that it is compared with as a whole. -/
def wholeMismatch : Ty → Option Json → String → Mismatch
  | unsupported name, value, path => ⟨path, name, kindName value, .unsupported⟩
  | type, value, path => type.mismatch value path

theorem path_wholeMismatch (type : Ty) (value : Option Json) (path : String) :
    (type.wholeMismatch value path).path = path := by
  cases type <;> rfl

theorem kind_wholeMismatch (type : Ty) (value : Option Json) (path : String) :
    (type.wholeMismatch value path).kind ≠ .missingProperty := by
  cases type <;> simp [wholeMismatch, mismatch]

/-- A disagreement is reported at the end of a chain of names: a value there does not conform, or the last name
is that of a property that has to be there and is not. -/
inductive Reported (policy : UnsupportedPolicy) (type : Ty) (value : Option Json) (path : String) :
    List String → Mismatch → Prop
  | refused {names : List String} {place : Ty} {found : Option Json} (way : Reaches type value names place found)
      (whole : place.isWhole found = true) (refused : ¬ Conforms policy place found) :
      Reported policy type value path names (place.wholeMismatch found (extendPath path names))
  | missing {names : List String} {properties : List (Property Ty)} {fields : List (String × Json)}
      {property : Property Ty} (way : Reaches type value names (object properties) (some (.object fields)))
      (listed : property ∈ properties) (lacking : getMember? property.name fields = none)
      (required : property.optional = false) :
      Reported policy type value path (names ++ [property.name])
        ⟨extendPath path (names ++ [property.name]), property.type.describe, kindName none, .missingProperty⟩

namespace Reported

variable {names : List String} {mismatch : Mismatch}

theorem path_eq (reported : Reported policy type value path names mismatch) :
    mismatch.path = extendPath path names := by
  cases reported with
  | refused => exact path_wholeMismatch ..
  | missing => rfl

theorem member {member : Ty} (listed : member ∈ members)
    (reported : Reported policy member value path names mismatch) :
    Reported policy (intersection members) value path names mismatch := by
  cases reported with
  | refused way whole refused => exact .refused (.member listed way) whole refused
  | missing way declared lacking required => exact .missing (.member listed way) declared lacking required

theorem property {property : Property Ty} {value : Json} (listed : property ∈ properties)
    (present : getMember? property.name fields = some value)
    (reported : Reported policy property.type (some value) (childPath path property.name) names mismatch) :
    Reported policy (object properties) (some (.object fields)) path (property.name :: names) mismatch := by
  cases reported with
  | refused way whole refused => exact .refused (.property listed present way) whole refused
  | missing way declared lacking required => exact .missing (.property listed present way) declared lacking required

end Reported

/-- A type that is compared with a value as a whole lists one disagreement at most, its own. -/
theorem eq_wholeMismatch_of_mem {mismatch : Mismatch} (whole : type.isWhole value = true)
    (listed : mismatch ∈ type.mismatches policy value path) : mismatch = type.wholeMismatch value path := by
  have only {b : Prop} [Decidable b] {own : Mismatch} (listed : mismatch ∈ if b then [] else [own]) :
      mismatch = own := by
    split at listed
    case isTrue => cases listed
    case isFalse => exact List.mem_singleton.mp listed
  cases type with
  | intersection members => cases whole
  | object properties =>
    rcases value with _ | value
    · exact List.mem_singleton.mp listed
    · cases value with
      | object fields => cases whole
      | _ => exact List.mem_singleton.mp listed
  | unsupported name =>
    cases policy with
    | permit => cases listed
    | report => exact List.mem_singleton.mp listed
  | _ =>
    simp only [mismatches] at listed
    exact only listed

theorem exists_reported_of_isWhole {mismatch : Mismatch} (whole : type.isWhole value = true)
    (listed : mismatch ∈ type.mismatches policy value path) :
    ∃ names, Reported policy type value path names mismatch := by
  have refused : ¬ Conforms policy type value :=
    mt mismatches_eq_nil_iff.mpr (List.ne_nil_of_mem listed)
  obtain rfl := eq_wholeMismatch_of_mem whole listed
  exact ⟨[], .refused (.here type value) whole refused⟩

/-- Every disagreement is reported at the end of a chain of names. -/
theorem exists_reported_of_mem {mismatch : Mismatch} (listed : mismatch ∈ type.mismatches policy value path) :
    ∃ names, Reported policy type value path names mismatch := by
  induction type generalizing value path with
  | intersection members ih =>
    rw [mismatches, memberMismatches_eq_flatMap, List.mem_flatMap] at listed
    obtain ⟨member, declared, listed⟩ := listed
    obtain ⟨names, reported⟩ := ih member declared listed
    exact ⟨names, reported.member declared⟩
  | object properties ih =>
    rcases value with _ | value
    · exact exists_reported_of_isWhole rfl listed
    · cases value with
      | object fields =>
        rw [mismatches, propertyMismatches_eq_flatMap, List.mem_flatMap] at listed
        obtain ⟨property, declared, listed⟩ := listed
        unfold propertyShare at listed
        cases found : getMember? property.name fields with
        | some value =>
          rw [found] at listed
          obtain ⟨names, reported⟩ := ih property declared listed
          exact ⟨property.name :: names, reported.property declared found⟩
        | none =>
          rw [found] at listed
          cases required : property.optional with
          | true => simp [required] at listed
          | false =>
            simp only [required, Bool.false_eq_true, if_false, List.mem_singleton] at listed
            exact ⟨[property.name], listed ▸ .missing (.here _ _) declared found required⟩
      | _ => exact exists_reported_of_isWhole rfl listed
  | _ => exact exists_reported_of_isWhole rfl listed

end TypedJson.Ty
