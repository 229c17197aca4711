import TypedJson.Proofs.Conformance
import Mathlib.Data.List.TakeWhile

/-! # What the path of a disagreement tells

A path is one text: the names that lead to a place with a dot between each two of them. It is cut at its dots into
the parts of these names, so it tells places apart as far as their names differ in more than where dots stand. An
empty name before the first other one leaves no trace in a path.
-/

namespace TypedJson

theorem toList_childPath {path : String} (given : path ≠ "") (name : String) :
    (childPath path name).toList = path.toList ++ '.' :: name.toList := by
  rw [childPath, if_neg given, String.toList_append, String.toList_append, List.append_assoc]
  rfl

theorem childPath_ne_empty {path : String} (given : path ≠ "") (name : String) : childPath path name ≠ "" := by
  rw [Ne, ← String.toList_eq_nil_iff, toList_childPath given]
  exact List.append_ne_nil_of_right_ne_nil _ (List.cons_ne_nil _ _)

/-- The parts between the dots of some names. -/
def dottedParts (names : List String) : List (List Char) := names.flatMap fun name => name.toList.splitOn '.'

theorem dottedParts_nil : dottedParts [] = [] := rfl

theorem dottedParts_eq_nil_iff {names : List String} : dottedParts names = [] ↔ names = [] := by
  rw [dottedParts, List.flatMap_eq_nil_iff, List.eq_nil_iff_forall_not_mem]
  exact forall₂_congr fun name _ => iff_false_intro (List.splitOn_ne_nil '.' name.toList)

/-- Names without dots are their own parts. -/
theorem dottedParts_of_plain {names : List String} (plain : ∀ name ∈ names, '.' ∉ name.toList) :
    dottedParts names = names.map String.toList := by
  rw [dottedParts, List.map_eq_flatMap]
  exact List.flatMap_congr fun name listed => List.splitOn_eq_singleton (plain name listed)

namespace Ty

variable {path : String} {names others : List String}

theorem extendPath_ne_empty (given : path ≠ "") (names : List String) : extendPath path names ≠ "" := by
  induction names generalizing path with
  | nil => exact given
  | cons name names ih => exact ih (childPath_ne_empty given name)

/-- A path is cut at its dots into its parts and those of the names that it was extended by. -/
theorem splitOn_extendPath (given : path ≠ "") (names : List String) :
    (extendPath path names).toList.splitOn '.' = path.toList.splitOn '.' ++ dottedParts names := by
  induction names generalizing path with
  | nil => exact (List.append_nil _).symm
  | cons name names ih =>
    have further := ih (childPath_ne_empty given name)
    rw [toList_childPath given, List.splitOn_append_cons_self, List.append_assoc] at further
    exact further

/-- From the root, empty names leave the path empty. -/
theorem extendPath_dropWhile (names : List String) :
    extendPath "" (names.dropWhile (· = "")) = extendPath "" names := by
  induction names with
  | nil => rfl
  | cons name names ih =>
    by_cases empty : name = ""
    · rw [List.dropWhile_cons_of_pos (by simpa using empty), ih, empty]
      rfl
    · rw [List.dropWhile_cons_of_neg (by simpa using empty)]

theorem head?_dropWhile_ne (names : List String) : (names.dropWhile (· = "")).head? ≠ some "" := by
  intro first
  have kept := List.head?_dropWhile_not (· = "") names
  rw [first] at kept
  simp at kept

/-- Where the first name is not empty, the path from the root is empty only at the root, and otherwise it is cut at
its dots into the parts of the names. -/
theorem extendPath_root (given : names.head? ≠ some "") :
    extendPath "" names = "" ∧ names = [] ∨
      extendPath "" names ≠ "" ∧ (extendPath "" names).toList.splitOn '.' = dottedParts names := by
  cases names with
  | nil => exact .inl ⟨rfl, rfl⟩
  | cons name names =>
    have first : name ≠ "" := fun empty => given (congrArg some empty)
    exact .inr ⟨extendPath_ne_empty first names, splitOn_extendPath first names⟩

theorem extendPath_eq_empty_iff (given : names.head? ≠ some "") : extendPath "" names = "" ↔ names = [] := by
  rcases extendPath_root given with ⟨empty, root⟩ | ⟨further, -⟩
  · exact iff_of_true empty root
  · exact iff_of_false further fun root => further (root ▸ rfl)

/-- Two chains of names lead to one path exactly if they have the same parts. -/
theorem extendPath_eq_iff (given : names.head? ≠ some "") (given' : others.head? ≠ some "") :
    extendPath "" names = extendPath "" others ↔ dottedParts names = dottedParts others := by
  rcases extendPath_root given with ⟨empty, rfl⟩ | ⟨-, parts⟩
  · rw [empty, @eq_comm _ "", extendPath_eq_empty_iff given', dottedParts_nil, @eq_comm _ [], dottedParts_eq_nil_iff]
  · rcases extendPath_root given' with ⟨empty, rfl⟩ | ⟨-, parts'⟩
    · rw [empty, extendPath_eq_empty_iff given, dottedParts_nil, dottedParts_eq_nil_iff]
    · rw [← parts, ← parts']
      refine ⟨fun same => by rw [same], fun same => String.toList_inj.mp ?_⟩
      calc (extendPath "" names).toList
          = ['.'].intercalate ((extendPath "" names).toList.splitOn '.') := (List.intercalate_splitOn '.').symm
        _ = (extendPath "" others).toList := by rw [same, List.intercalate_splitOn]

/-- Every disagreement is reported at the end of a chain of names, and its path tells the chain as far as paths can.
Disagreements with one path are at chains that have the same parts between dots after empty names at the start
have been left out; where the path is empty, there are no other names. Of two chains that do not start with an
empty name, each at its own place, the paths are the same exactly if the parts are; so without dots in the names
different chains have different paths, and only the root has the empty one. -/
theorem path_tells_parts (policy : UnsupportedPolicy) (type : Ty) (value : Option Json) :
    (∀ mismatch ∈ type.mismatches policy value "", ∃ names, Reported policy type value "" names mismatch) ∧
    ∀ names others mismatch other, Reported policy type value "" names mismatch →
      Reported policy type value "" others other →
        (mismatch.path = other.path →
          dottedParts (names.dropWhile (· = "")) = dottedParts (others.dropWhile (· = ""))) ∧
        (mismatch.path = "" → ∀ name ∈ names, name = "") ∧
        (names.head? ≠ some "" → others.head? ≠ some "" →
          (mismatch.path = other.path ↔ dottedParts names = dottedParts others) ∧
          (mismatch.path = "" ↔ names = []) ∧
          ((∀ name ∈ names ++ others, '.' ∉ name.toList) → names ≠ others → mismatch.path ≠ other.path)) := by
  refine ⟨fun mismatch listed => exists_reported_of_mem listed, ?_⟩
  intro names others mismatch other reported reported'
  rw [reported.path_eq, reported'.path_eq]
  refine ⟨fun same => ?_, fun empty => ?_, fun given given' => ?_⟩
  · rw [← extendPath_dropWhile names, ← extendPath_dropWhile others] at same
    exact (extendPath_eq_iff (head?_dropWhile_ne names) (head?_dropWhile_ne others)).mp same
  · rw [← extendPath_dropWhile names, extendPath_eq_empty_iff (head?_dropWhile_ne names)] at empty
    simpa [List.dropWhile_eq_nil_iff] using empty
  · refine ⟨extendPath_eq_iff given given', extendPath_eq_empty_iff given, fun plain apart same => apart ?_⟩
    rw [extendPath_eq_iff given given'] at same
    rw [List.forall_mem_append] at plain
    rw [dottedParts_of_plain plain.1, dottedParts_of_plain plain.2] at same
    exact List.map_injective_iff.mpr (fun _ _ => String.toList_inj.mp) same

/-- A value is refused one property deep, and beside it a property is missing. Their paths are different. -/
theorem path_tells_parts_apart :
    let type := object [⟨"a", object [⟨"b", null, false⟩], false⟩, ⟨"c", any, false⟩]
    let value : Json := .object [("a", .object [("b", .bool true)])]
    let refusal : Mismatch := ⟨"a.b", "null", "boolean", .typeMismatch⟩
    let lack : Mismatch := ⟨"c", "any", "undefined", .missingProperty⟩
    Reported .permit type (some value) "" ["a", "b"] refusal ∧ Reported .permit type (some value) "" ["c"] lack ∧
      refusal.path ≠ lack.path := by
  intro type value refusal lack
  have inner : Reported .permit null (some (.bool true)) "a.b" [] refusal :=
    .refused (.here _ _) rfl (mt mismatches_eq_nil_iff.mpr (List.cons_ne_nil refusal []))
  have reported : Reported .permit type (some value) "" ["a", "b"] refusal :=
    .property (List.mem_cons_self ..) rfl (.property (List.mem_cons_self ..) rfl inner)
  have reported' : Reported .permit type (some value) "" ["c"] lack :=
    .missing (.here type (some value)) (List.mem_cons_of_mem _ (List.mem_cons_self ..)) rfl rfl
  have tells := (path_tells_parts .permit type (some value)).2 _ _ _ _ reported reported'
  exact ⟨reported, reported', (tells.2.2 (by decide) (by decide)).2.2 (by decide) (by decide)⟩

/-- A property with a dot in its name and one property in another have the same path, and a property with the empty
name is said to be the root. -/
theorem dotted_names_share_path :
    let type := object [⟨"a.b", null, false⟩, ⟨"a", object [⟨"b", null, false⟩], false⟩, ⟨"", null, false⟩]
    let value : Json := .object [("a.b", .bool true), ("a", .object [("b", .bool true)]), ("", .bool true)]
    let refusal (path : String) : Mismatch := ⟨path, "null", "boolean", .typeMismatch⟩
    type.mismatches .permit (some value) "" = [refusal "a.b", refusal "a.b", refusal ""] ∧
      Reported .permit type (some value) "" ["a.b"] (refusal "a.b") ∧
      Reported .permit type (some value) "" ["a", "b"] (refusal "a.b") ∧
      Reported .permit type (some value) "" [""] (refusal "") ∧
      (refusal "").message = "Type 'boolean' is not assignable to type 'null' at '<root>'" := by
  intro type value refusal
  have refused (path : String) : Reported .permit null (some (.bool true)) path [] (refusal path) :=
    .refused (.here _ _) rfl (mt mismatches_eq_nil_iff.mpr (List.cons_ne_nil (refusal path) []))
  refine ⟨by decide +kernel, ?_, ?_, ?_, by decide +kernel⟩
  · exact .property (List.mem_cons_self ..) rfl (refused "a.b")
  · exact .property (List.mem_cons_of_mem _ (List.mem_cons_self ..)) rfl
      (.property (List.mem_cons_self ..) rfl (refused "a.b"))
  · exact .property (List.mem_cons_of_mem _ (List.mem_cons_of_mem _ (List.mem_cons_self ..))) rfl (refused "")

end Ty
end TypedJson
