import TypedJson.CommandLine.Inputs
import TypedJson.Proofs.Glob.Expansion

/-! # Inputs that are files

An input with a wildcard is a pattern, also if a file has it as its name. Such a pattern still lists the file if each
of its segments matches itself, and mostly only then. A set of characters does not match the brackets that it is
written with, so a file with brackets in its name may be passed over for one that the pattern matches.
-/

namespace TypedJson.CommandLine.Input

open Glob (Pattern)

variable {tree : FileTree} {input : String} {inputs : List String} {group found : List Path}

/-- Each segment of an input matches itself as a pattern, and the last one does not stand for directories. -/
structure IsFaithful (input : String) : Prop where
  selves : ∀ text ∈ Path.segments ⟨input⟩, Pattern.IsSelfMatching text
  last : (Path.segments ⟨input⟩).getLast? ≠ some ['*', '*']

/-- An input without brackets is faithful unless it ends in directories. -/
theorem isFaithful_of_not_mem (plain : '[' ∉ input.toList)
    (last : (Path.segments ⟨input⟩).getLast? ≠ some ['*', '*']) : IsFaithful input where
  selves _ member := Pattern.isSelfMatching_of_not_mem fun bracket => plain (Text.mem_of_mem_splitOn member bracket).1
  last := last

/-- What an input resolves to. Anything but a pattern is a path. A pattern that is the path of a file lists this path,
though without the current directory, if it is faithful, and only then unless it stands for directories before its
end. -/
structure Resolves (tree : FileTree) (input : String) (group : List Path) : Prop where
  path : isPattern input = false → group = [⟨input⟩]
  pattern : isPattern input = true → Glob.expand tree input = .ok group ∧ group ≠ []
  kept {name : FileName} {content : List UInt8} (pattern : isPattern input = true)
    (file : tree.entryAt true ⟨input⟩ = .ok (name, .file content)) (faithful : IsFaithful input) :
    ∃ path ∈ group, path.components = Path.route ⟨input⟩ ∧ tree.entryAt true path = .ok (name, .file content)
  lost {name : FileName} {content : List UInt8} {path : Path} (pattern : isPattern input = true)
    (file : tree.entryAt true ⟨input⟩ = .ok (name, .file content))
    (single : ['*', '*'] ∉ (Path.segments ⟨input⟩).dropLast) (member : path ∈ group)
    (route : path.route = Path.route ⟨input⟩) (leads : tree.entryAt true path = .ok (name, .file content)) :
    IsFaithful input

theorem resolves_of_paths (named : tree.IsWellNamed)
    (resolved : paths (Glob.expand tree) input = .ok group) : Resolves tree input group := by
  unfold paths at resolved
  split at resolved
  next pattern =>
    split at resolved
    · cases resolved
    · cases resolved
    next found some expanded =>
      cases resolved
      have nonempty : group ≠ [] := fun none => some none
      refine ⟨fun path => absurd pattern (by simp [path]), fun _ => ⟨expanded, nonempty⟩, ?_, ?_⟩
      · intro name content _ file faithful
        exact Glob.exists_mem_expand named expanded nonempty file faithful.selves faithful.last
      · intro name content path _ file single member route leads
        obtain ⟨selves, last⟩ := Glob.isSelfMatching_of_mem_expand named expanded file single member route leads
        exact ⟨selves, last⟩
  next path =>
    cases resolved
    exact ⟨fun _ => rfl, fun pattern => absurd pattern path, fun pattern => absurd pattern path,
      fun pattern => absurd pattern path⟩

/-- The paths of inputs are those of one input after the other. -/
theorem allPaths_resolves (named : tree.IsWellNamed)
    (resolved : allPaths (Glob.expand tree) inputs = .ok found) :
    ∃ groups, found = groups.flatten ∧ List.Forall₂ (Resolves tree) inputs groups := by
  obtain ⟨groups, all, same⟩ := bind_eq_ok_iff.mp resolved
  cases same
  exact ⟨groups, rfl, (forall₂_of_mapM all).imp fun _ _ => resolves_of_paths named⟩

/-- Three files, of which two have names that are patterns. -/
def patternNames : FileTree := ⟨[], [(["a1.json"], .file [1]), (["a?.json"], .file [2]), (["a[1].json"], .file [3])]⟩

theorem namesIn_patternNames :
    Glob.PathPattern.namesIn patternNames ⟨"."⟩ = ["a1.json", "a?.json", "a[1].json"] :=
  List.mergeSort_of_pairwise (by decide +kernel)

theorem isWellNamed_patternNames : patternNames.IsWellNamed := by
  intro entry member part inside
  simp only [patternNames, List.mem_cons, List.not_mem_nil, or_false] at member
  rcases member with rfl | rfl | rfl <;> obtain rfl := List.mem_singleton.mp inside <;>
    exact ⟨by decide, by decide, by decide⟩

/-- What a pattern of one segment finds there. -/
theorem expand_patternNames {text : String} {segment : Pattern}
    (read : Glob.PathPattern.ofText text = .ok ⟨⟨"."⟩, [segment], false⟩) (wild : segment.literal? = none)
    (single : segment.isRecursive = false) (shown : Glob.PathPattern.hiddenDirectories segment = []) :
    Glob.expand patternNames text = .ok (["a1.json", "a?.json", "a[1].json"].flatMap fun name =>
      if segment.isMatch name.toList then [⟨name⟩] else []) := by
  have inside : patternNames.isDirectory ⟨"."⟩ = true := by decide +kernel
  have child (name : String) : Glob.PathPattern.child ⟨"."⟩ name = ⟨name⟩ := rfl
  rw [Glob.expand, read, Except.map, Glob.PathPattern.matchesIn]
  change Except.ok (Glob.PathPattern.search patternNames false (164 + 1) [segment] ⟨"."⟩) = _
  rw [Glob.PathPattern.search, wild, shown, namesIn_patternNames, inside]
  simp only [single, child]
  rfl

/-- Two of its names, taken as patterns. -/
theorem allPaths_patternNames : allPaths (Glob.expand patternNames) ["a?.json", "a[1].json"] =
    .ok [⟨"a1.json"⟩, ⟨"a?.json"⟩, ⟨"a1.json"⟩] := by
  have question : Glob.PathPattern.ofText "a?.json" =
      .ok ⟨⟨"."⟩, [.literal 'a' :: .anyCharacter :: ".json".toList.map .literal], false⟩ := by cbv
  have set : Glob.PathPattern.ofText "a[1].json" =
      .ok ⟨⟨"."⟩, [.literal 'a' :: .oneOf [.single '1'] :: ".json".toList.map .literal], false⟩ := by cbv
  have first : paths (Glob.expand patternNames) "a?.json" = .ok [⟨"a1.json"⟩, ⟨"a?.json"⟩] := by
    rw [paths, if_pos (by decide +kernel), expand_patternNames question rfl rfl rfl]
    rfl
  have second : paths (Glob.expand patternNames) "a[1].json" = .ok [⟨"a1.json"⟩] := by
    rw [paths, if_pos (by decide +kernel), expand_patternNames set rfl rfl rfl]
    rfl
  rw [allPaths, List.mapM_cons, List.mapM_cons, first, second]
  rfl

/-- The file with a question mark in its name is listed after the other one that the pattern matches. -/
theorem allPaths_resolves_patternNames :
    patternNames.IsWellNamed ∧
    ∃ first second, [(⟨"a1.json"⟩ : Path), ⟨"a?.json"⟩, ⟨"a1.json"⟩] = first ++ second ∧
      Resolves patternNames "a?.json" first ∧ Resolves patternNames "a[1].json" second ∧
      ∃ path ∈ first, path.components = [.name "a?.json"] ∧
        patternNames.entryAt true path = .ok (["a?.json"], .file [2]) := by
  obtain ⟨groups, whole, all⟩ := allPaths_resolves isWellNamed_patternNames allPaths_patternNames
  obtain ⟨first, others, resolves, rest, rfl⟩ := List.forall₂_cons_left_iff.mp all
  obtain ⟨second, none, resolves', done, rfl⟩ := List.forall₂_cons_left_iff.mp rest
  cases done
  refine ⟨isWellNamed_patternNames, first, second, by simpa using whole, resolves, resolves', ?_⟩
  have faithful : IsFaithful "a?.json" := isFaithful_of_not_mem (by decide) (by decide +kernel)
  exact resolves.kept (by decide +kernel) (by rfl) faithful

/-- The file with brackets in its name exists, and only another file is checked for it. -/
theorem brackets_passed_over :
    allPaths (Glob.expand patternNames) ["a?.json", "a[1].json"] = .ok [⟨"a1.json"⟩, ⟨"a?.json"⟩, ⟨"a1.json"⟩] ∧
    patternNames.entryAt true ⟨"a[1].json"⟩ = .ok (["a[1].json"], .file [3]) ∧
    ∀ path ∈ [(⟨"a1.json"⟩ : Path), ⟨"a?.json"⟩, ⟨"a1.json"⟩], path.same ⟨"a[1].json"⟩ = false ∧
      patternNames.samePlace path ⟨"a[1].json"⟩ = false :=
  ⟨allPaths_patternNames, by rfl, by decide +kernel⟩

end TypedJson.CommandLine.Input
