import TypedJson.Proofs.Conformance

/-! # Where disagreements come from

The disagreements that a type lists are those reported at the end of a chain of names, and no others. Each is
about one place: a value that stands there does not conform to the type that is declared for it, or an object
that stands there lacks a property that has to be present.
-/

namespace TypedJson.Ty

variable {policy : UnsupportedPolicy} {type place : Ty} {properties : List (Property Ty)}
  {fields : List (String × Json)} {value found : Option Json} {path : String} {names : List String}
  {mismatch : Mismatch}

/-- How a type is said to refuse a value as a whole. -/
def refusalKind : Ty → MismatchKind
  | unsupported _ => .unsupported
  | _ => .typeMismatch

theorem wholeMismatch_eq (type : Ty) (value : Option Json) (path : String) :
    type.wholeMismatch value path = ⟨path, type.describe, kindName value, type.refusalKind⟩ := by
  cases type <;> rfl

/-- A chain with names in it ends at a value that is there. -/
theorem Reaches.absent (way : Reaches type value names place found) (absent : found = none) :
    names = [] ∧ value = none := by
  induction way with
  | here type value => exact ⟨rfl, absent⟩
  | member listed way ih => exact ih absent
  | property listed present way ih => cases (ih absent).2

/-- What a type lists at the end of a chain of names is listed from the start of the chain. -/
theorem Reaches.mem_mismatches (way : Reaches type value names place found)
    (listed : mismatch ∈ place.mismatches policy found (extendPath path names)) :
    mismatch ∈ type.mismatches policy value path := by
  induction way generalizing path with
  | here type value => exact listed
  | member declared way ih =>
    rw [mismatches, memberMismatches_eq_flatMap, List.mem_flatMap]
    exact ⟨_, declared, ih listed⟩
  | @property properties property fields value place found names declared present way ih =>
    rw [mismatches, propertyMismatches_eq_flatMap, List.mem_flatMap]
    refine ⟨property, declared, ?_⟩
    rw [propertyShare, present]
    exact ih listed

/-- A value that is refused as a whole is listed with the type that refuses it. -/
theorem wholeMismatch_mem (whole : type.isWhole value = true) (refused : ¬ Conforms policy type value)
    (path : String) : type.wholeMismatch value path ∈ type.mismatches policy value path := by
  have given : type.mismatches policy value path ≠ [] := mt mismatches_eq_nil_iff.mp refused
  obtain ⟨own, listed⟩ := List.exists_mem_of_ne_nil _ given
  rwa [← eq_wholeMismatch_of_mem whole listed]

/-- A required property that an object lacks is listed by the object type. -/
theorem missing_mem {property : Property Ty} (listed : property ∈ properties)
    (lacking : getMember? property.name fields = none) (required : property.optional = false) (path : String) :
    ⟨childPath path property.name, property.type.describe, kindName none, .missingProperty⟩ ∈
      (object properties).mismatches policy (some (.object fields)) path := by
  rw [mismatches, propertyMismatches_eq_flatMap, List.mem_flatMap]
  refine ⟨property, listed, ?_⟩
  simp [propertyShare, lacking, required]

theorem extendPath_concat (path : String) (names : List String) (name : String) :
    extendPath path (names ++ [name]) = childPath (extendPath path names) name := List.foldl_concat ..

/-- What is reported at the end of a chain of names is listed. -/
theorem Reported.mem_mismatches (reported : Reported policy type value path names mismatch) :
    mismatch ∈ type.mismatches policy value path := by
  cases reported with
  | refused way whole refused => exact way.mem_mismatches (wholeMismatch_mem whole refused _)
  | missing way listed lacking required =>
    rw [extendPath_concat]
    exact way.mem_mismatches (missing_mem listed lacking required _)

/-- The disagreements that a type lists are those at the places that chains of names lead to, from property to
property and through members of intersections. Either an object lacks a property that is declared and not
optional; or what stands at the place, which can be absent only at the start, does not conform to the type
declared there. -/
theorem mem_mismatches_iff_genuine (policy : UnsupportedPolicy) (type : Ty) (value : Option Json) (path : String)
    (mismatch : Mismatch) : mismatch ∈ type.mismatches policy value path ↔
      (∃ names properties fields property,
        Reaches type value names (object properties) (some (.object fields)) ∧ property ∈ properties ∧
        property.optional = false ∧ getMember? property.name fields = none ∧
        mismatch = ⟨extendPath path (names ++ [property.name]), property.type.describe, "undefined",
          .missingProperty⟩) ∨
      ∃ names place found, Reaches type value names place found ∧ (found = none → names = [] ∧ value = none) ∧
        place.isWhole found = true ∧ ¬ Conforms policy place found ∧
        mismatch = ⟨extendPath path names, place.describe, kindName found, place.refusalKind⟩ := by
  constructor
  · intro listed
    obtain ⟨names, reported⟩ := exists_reported_of_mem listed
    cases reported with
    | refused way whole refused => exact .inr ⟨_, _, _, way, way.absent, whole, refused, wholeMismatch_eq ..⟩
    | missing way declared lacking required => exact .inl ⟨_, _, _, _, way, declared, required, lacking, rfl⟩
  · rintro (⟨names, properties, fields, property, way, declared, required, lacking, rfl⟩ |
      ⟨names, place, found, way, -, whole, refused, rfl⟩)
    · exact (Reported.missing way declared lacking required).mem_mismatches
    · rw [← wholeMismatch_eq]
      exact (Reported.refused way whole refused).mem_mismatches

/-- A property is missing behind an intersection, and a union is refused without a look at its members. -/
example :
    (intersection [object [⟨"a", object [⟨"b", any, false⟩], false⟩], union [null, primitive .string]]).mismatches
      .permit (some (.object [("a", .object [])])) "" =
      [⟨"a.b", "any", "undefined", .missingProperty⟩, ⟨"", "null | string", "object", .typeMismatch⟩] := by
  decide +kernel

end TypedJson.Ty
