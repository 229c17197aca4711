import TypedJson.Proofs.Conformance
import TypedJson.Proofs.Phrase.Scan

/-! # The members that a chain of names leads through

`Phrase.trail` follows a chain of names from an object as it is written to the members of its members, as far as
they are there. Of members with one name the last one counts, since this is the one whose value is kept. A
disagreement that is reported at a chain of names is reported at the end of its trail, or one name further if it
is about a property that is missing: `Phrase.length_trail_of_reported`.
-/

namespace TypedJson

variable {α : Type} {name : String} {names : List String} {place : ℕ} {phrase : Phrase}

/-- The member that is kept of those with one name has the value of the last one. -/
theorem getMember?_uniqueMembers (name : String) (members : List (String × α)) :
    getMember? name (uniqueMembers members) = (members.reverse.find? (·.1 = name)).map (·.2) := by
  induction members using List.reverseRecOn with
  | nil => rfl
  | append_singleton members member ih =>
    have last : uniqueMembers (members ++ [member]) = setMember member.1 member.2 (uniqueMembers members) := by
      simp [uniqueMembers]
    rw [last, getMember?_setMember, ih, List.reverse_append, List.reverse_singleton, List.singleton_append]
    by_cases same : member.1 = name
    · rw [List.find?_cons_of_pos (by simpa using same), if_pos same.symm]
      rfl
    · rw [List.find?_cons_of_neg (by simpa using same), if_neg (Ne.symm same)]

theorem Json.canonicalMembers_eq_map (members : List (String × Json)) :
    canonicalMembers members = members.map fun (name, value) => (name, value.canonical) := by
  induction members with
  | nil => rfl
  | cons member rest ih =>
    rw [canonicalMembers, ih]
    rfl

namespace Phrase

/-- The members of one object, without the members in their values. -/
def Members.own : Members → ℕ → List Entry
  | .last label value _, place => [⟨place, label, value⟩]
  | .more label value behind rest, place => ⟨place, label, value⟩ ::
      rest.own (place + label.text.length + value.text.length + behind.text.length + 1)

/-- The members of a phrase that is an object and begins at a place. -/
def own : Phrase → ℕ → List Entry
  | object members, place => members.own (place + 1)
  | _, _ => []

/-- The member with a name: of those with one name, the last one. -/
def member? (name : String) (phrase : Phrase) (place : ℕ) : Option Entry :=
  (phrase.own place).reverse.find? (·.label.name.value = name)

/-- The members that a chain of names leads through, up to the first name that is missing. -/
def trail : List String → Phrase → ℕ → List Entry
  | [], _, _ => []
  | name :: names, phrase, place =>
    match phrase.member? name place with
    | some entry => entry :: trail names entry.value entry.inside
    | none => []

theorem Members.map_own (members : Members) (place : ℕ) :
    (members.own place).map (fun entry => (entry.label.name.value, entry.value.value)) = members.values := by
  match members with
  | .last label value _ => rfl
  | .more label value behind rest =>
    rw [own, List.map_cons, rest.map_own]
    rfl

/-- Only an object has a value that is an object. -/
theorem values_of_canonical {fields : List (String × Json)} (object : phrase.value.canonical = .object fields)
    (place : ℕ) : fields = uniqueMembers ((phrase.own place).map fun entry =>
      (entry.label.name.value, entry.value.value.canonical)) := by
  cases phrase with
  | word text value written =>
    cases written <;> cases object
  | string literal => cases object
  | emptyArray inside => cases object
  | array items => cases object
  | emptyObject inside =>
    obtain rfl := Json.object.inj object
    rfl
  | object members =>
    obtain rfl := Json.object.inj object
    rw [own, Json.canonicalMembers_eq_map, ← members.map_own (place + 1), List.map_map]
    rfl

/-- A member is found where it is kept. -/
theorem getMember?_eq_map_member? {fields : List (String × Json)} (object : phrase.value.canonical = .object fields)
    (name : String) (place : ℕ) :
    getMember? name fields = (phrase.member? name place).map (·.value.value.canonical) := by
  rw [values_of_canonical object place, getMember?_uniqueMembers, ← List.map_reverse, List.find?_map, Option.map_map]
  rfl

/-- A chain of names that leads to a value leads through a member for each name to a phrase with this value, and
from there on. -/
theorem exists_end_of_reaches {type spot : Ty} {value found : Option Json}
    (way : type.Reaches value names spot found) (phrase : Phrase) (place : ℕ)
    (written : value = some phrase.value.canonical) :
    ∃ (last : Phrase) (inside : ℕ), found = some last.value.canonical ∧
      (trail names phrase place).length = names.length ∧
      ∀ more, trail (names ++ more) phrase place = trail names phrase place ++ trail more last inside := by
  induction way generalizing phrase place with
  | here type value => exact ⟨phrase, place, written, rfl, fun more => rfl⟩
  | member listed way ih => exact ih phrase place written
  | @property properties property fields value spot found names listed present way ih =>
    have object := (Option.some.inj written).symm
    rw [getMember?_eq_map_member? object property.name place] at present
    obtain ⟨entry, found, rfl⟩ := Option.map_eq_some_iff.mp present
    obtain ⟨last, inside, same, length, further⟩ := ih entry.value entry.inside rfl
    refine ⟨last, inside, same, ?_, fun more => ?_⟩
    · simp only [trail, found, List.length_cons, length]
    · simp only [trail, found, List.cons_append, further]

/-- A disagreement is reported at the end of the trail, or one name further if this names a missing property. -/
theorem length_trail_of_reported {policy : UnsupportedPolicy} {type : Ty} {path : String} {mismatch : Mismatch}
    (reported : type.Reported policy (some phrase.value.canonical) path names mismatch) (place : ℕ) :
    names.length = (trail names phrase place).length + if mismatch.kind = .missingProperty then 1 else 0 := by
  cases reported with
  | @refused names spot found way whole refused =>
    obtain ⟨-, -, -, length, -⟩ := exists_end_of_reaches way phrase place rfl
    rw [length, if_neg (Ty.kind_wholeMismatch spot found _), Nat.add_zero]
  | @missing names properties fields property way listed lacking required =>
    obtain ⟨last, inside, same, length, further⟩ := exists_end_of_reaches way phrase place rfl
    have none : last.member? property.name inside = none := by
      rwa [getMember?_eq_map_member? (Option.some.inj same).symm property.name inside,
        Option.map_eq_none_iff] at lacking
    rw [further, trail, none, List.append_nil, length, if_pos rfl, List.length_append]
    rfl

/-- The members of an object stand behind its beginning. -/
theorem Members.le_place_of_mem_own (members : Members) {place : ℕ} {entry : Entry}
    (listed : entry ∈ members.own place) :
    place ≤ entry.place := by
  match members with
  | .last label value _ =>
    obtain rfl := List.mem_singleton.mp listed
    exact le_rfl
  | .more label value behind rest =>
    rcases List.mem_cons.mp listed with rfl | later
    · exact le_rfl
    · have bound := rest.le_place_of_mem_own later
      omega

theorem le_start_of_member? {entry : Entry} (found : phrase.member? name place = some entry) :
    place ≤ entry.start := by
  have listed := List.mem_reverse.mp (List.mem_of_find?_eq_some found)
  cases phrase with
  | object members =>
    have bound := members.le_place_of_mem_own listed
    simp only [Entry.start]
    omega
  | _ => cases listed

theorem Entry.stop_le_inside (entry : Entry) : entry.stop ≤ entry.inside := by
  simp only [stop, start, inside, Label.text, List.length_append]
  omega

end Phrase

/-- The members that a chain of names leads through from the beginning of a writing. -/
def Writing.trail (writing : Writing) (names : List String) : List Phrase.Entry :=
  Phrase.trail names writing.root writing.before.text.length

end TypedJson
