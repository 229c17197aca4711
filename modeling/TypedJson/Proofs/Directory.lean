import TypedJson.Proofs.Path
import TypedJson.TypeSource
import TypedJson.Workspace

/-! # The directory of a document

The path of an artifact and the directory in which the source of a type is looked up are made from the path of
the document apart from each other. For a plain file name they agree: the artifact lies in this directory. So a
source that is relative to the one is relative to the other, and documents share an artifact, and with it the
key of their tickets, exactly if they share their directory.
-/

namespace TypedJson

/-- The name of an entry of a directory. -/
structure Path.IsPlainName (name : String) : Prop where
  given : name ≠ ""
  whole : '/' ∉ name.toList
  apart : name ≠ "." ∧ name ≠ ".."

namespace Path

variable {path first second : Path} {name : String} {front : List Component} {last : Component}

theorem IsPlainName.relative (plain : IsPlainName name) : (⟨name⟩ : Path).isAbsolute = false :=
  isAbsolute_of_not_mem plain.whole

theorem IsPlainName.segments_eq (plain : IsPlainName name) : (⟨name⟩ : Path).segments = [name.toList] :=
  List.splitOn_eq_singleton plain.whole

theorem IsPlainName.isIdle_eq (plain : IsPlainName name) : isIdle name.toList = false := by
  have current : name.toList ≠ ['.'] := fun same => plain.apart.1 (String.toList_inj.mp same)
  simp [isIdle, plain.given, current]

/-- A plain name is one segment, and this counts. -/
theorem IsPlainName.filterMap_segments (plain : IsPlainName name) :
    (⟨name⟩ : Path).segments.filterMap componentOf? = [.name name] := by
  have parent : name.toList ≠ ['.', '.'] := fun same => plain.apart.2 (String.toList_inj.mp same)
  rw [plain.segments_eq]
  simp [componentOf?, plain.isIdle_eq, parent]

theorem IsPlainName.components_eq (plain : IsPlainName name) : (⟨name⟩ : Path).components = [.name name] := by
  rw [components, anchor?_of_counts plain.segments_eq plain.isIdle_eq, plain.filterMap_segments]
  rfl

/-- Only the root and the empty path lie in no directory. -/
theorem parent?_eq_none_iff : path.parent? = none ↔ path.components = [] ∨ path.components = [.root] := by
  rw [parent?_eq]
  rcases path.splitAnchor_cases with ⟨rest, -, written, parts⟩ | ⟨others, -, all, parts⟩ | ⟨unanchored, parts⟩
  · rw [components_root written, parts]
    by_cases none : dropIdleEnd (rest.splitOn '/') = []
    · simp [none, filterMap_eq_nil_iff.mpr none]
    · simp [none, mt filterMap_eq_nil_iff.mp none]
  · rw [components_current all, parts]
    split <;> simp
  · have whole : path.components = path.segments.filterMap componentOf? := by simp [components, unanchored]
    have rooted : path.segments.filterMap componentOf? ≠ [.root] := by
      intro root
      have counted : Component.root ∈ path.segments.filterMap componentOf? := root ▸ List.mem_singleton_self _
      obtain ⟨segment, -, counts⟩ := List.mem_filterMap.mp counted
      unfold componentOf? at counts
      split at counts
      · cases counts
      · split at counts <;> cases counts
    rw [parts, whole]
    by_cases none : dropIdleEnd path.segments = []
    · simp [none, filterMap_eq_nil_iff.mpr none]
    · simp [none, rooted, mt filterMap_eq_nil_iff.mp none]

/-- The directory of an entry has the components before the last one. -/
theorem exists_parent? (parts : path.components = front ++ [last]) (entry : last ≠ .root) :
    ∃ parent, path.parent? = some parent ∧ parent.components = front := by
  cases directory : path.parent? with
  | none =>
    rcases parent?_eq_none_iff.mp directory with empty | root
    · simp [empty] at parts
    · have same : [] ++ [Component.root] = front ++ [last] := root.symm.trans parts
      exact (entry (List.singleton_inj.mp (List.append_inj' same rfl).2).symm).elim
  | some parent =>
    have before := path.components_parent?
    rw [directory, parts, List.dropLast_concat] at before
    exact ⟨parent, rfl, before⟩

/-- What is joined to a directory does not depend on how the directory is written. -/
theorem components_join_congr (same : first.components = second.components) (entry : Path) :
    (first.join entry).components = (second.join entry).components := by
  rw [components_join, components_join, same]

end Path

theorem Document.components_directory (document : Document) :
    document.directory.components = document.id.components.dropLast := by
  rw [← document.id.components_parent?, directory]
  cases document.id.parent? <;> rfl

namespace Artifact

variable {fileName : String}

/-- Under a plain name the artifact is an entry of the directory of its document. -/
theorem components_pathFor_of_plain (plain : Path.IsPlainName fileName) (document : Document) :
    (pathFor document.id fileName).components = document.directory.components ++ [.name fileName] := by
  rw [components_pathFor, document.components_directory, plain.relative, plain.components_eq,
    plain.filterMap_segments]
  split
  case isTrue alone => rw [alone.resolve_left Bool.false_ne_true, List.nil_append]
  case isFalse => rfl

/-- Under a plain name artifacts lie in the directories of their documents. So they are the same exactly if these
are, sources are looked up in the directory that the artifact lies in, and requests that write artifacts draw
their tickets for the same key exactly if their documents share the directory. -/
theorem same_pathFor_iff_same_directory (plain : Path.IsPlainName fileName) (first second : Document) :
    ((pathFor first.id fileName).same (pathFor second.id fileName) = true ↔
      first.directory.same second.directory = true) ∧
    (∃ parent, (pathFor first.id fileName).parent? = some parent ∧ parent.same first.directory = true ∧
      ∀ tag : TypeTag, (tag.sourceIn parent).same (tag.sourceIn first.directory) = true) ∧
    ∀ (workspace other after after' : Workspace) (staged staged' : Staged),
      workspace.configuration.artifactFileName = fileName → other.configuration.artifactFileName = fileName →
      workspace.stage .checker first = some (after, staged) → other.stage .checker second = some (after', staged') →
        (staged.ticket.key = staged'.ticket.key ↔ first.directory.same second.directory = true) := by
  have shared : (pathFor first.id fileName).components = (pathFor second.id fileName).components ↔
      first.directory.same second.directory = true := by
    rw [components_pathFor_of_plain plain, components_pathFor_of_plain plain, List.append_left_inj, Path.same_iff]
  refine ⟨Path.same_iff.trans shared, ?_, ?_⟩
  · obtain ⟨parent, directory, same⟩ := Path.exists_parent? (components_pathFor_of_plain plain first) nofun
    exact ⟨parent, directory, Path.same_iff.mpr same,
      fun tag => Path.same_iff.mpr (Path.components_join_congr same _)⟩
  · intro workspace other after after' staged staged' named named' stage stage'
    obtain ⟨tag, -, drawn⟩ := Option.map_eq_some_iff.mp stage
    obtain ⟨tag', -, drawn'⟩ := Option.map_eq_some_iff.mp stage'
    cases drawn
    cases drawn'
    simp only [ofDocument, named, named']
    exact shared

/-- A tagged document with a path. -/
def taggedAt (path : String) : Document :=
  ⟨⟨path⟩, "json", "\x7b\"$type\":\x7b\"$from\":\"m\",\"$import\":\"T\"\x7d\x7d"⟩

/-- Two documents have one artifact and draw tickets for one key, though their directory is written in two ways.
A directory that names its parent is another one. -/
theorem same_pathFor_iff_same_directory_written : Path.IsPlainName defaultFileName ∧
    (pathFor ⟨"/w//a.json"⟩ defaultFileName).same (pathFor ⟨"/w/./b.json"⟩ defaultFileName) = true ∧
    (pathFor ⟨"/w//a.json"⟩ defaultFileName).same (pathFor ⟨"/w/../b.json"⟩ defaultFileName) = false ∧
    ∃ after after' staged staged',
      (Workspace.empty .default).stage .checker (taggedAt "/w//a.json") = some (after, staged) ∧
      (Workspace.empty .default).stage .checker (taggedAt "/w/./b.json") = some (after', staged') ∧
      staged.ticket.key = staged'.ticket.key := by
  have plain : Path.IsPlainName defaultFileName := ⟨by decide, by decide, by decide⟩
  obtain ⟨same, -, keys⟩ := same_pathFor_iff_same_directory plain (taggedAt "/w//a.json") (taggedAt "/w/./b.json")
  have other := (same_pathFor_iff_same_directory plain (taggedAt "/w//a.json") (taggedAt "/w/../b.json")).1
  have shared : (taggedAt "/w//a.json").directory.same (taggedAt "/w/./b.json").directory = true := by
    decide +kernel
  have apart : (taggedAt "/w//a.json").directory.same (taggedAt "/w/../b.json").directory = false := by
    decide +kernel
  have staging (path : String) : ((Workspace.empty .default).stage .checker (taggedAt path)).isSome = true := by
    rw [Workspace.stage, Option.isSome_map]
    change (TypeTag.ofText? (taggedAt "").text.toList).isSome = true
    decide +kernel
  obtain ⟨⟨after, staged⟩, stage⟩ := Option.isSome_iff_exists.mp (staging "/w//a.json")
  obtain ⟨⟨after', staged'⟩, stage'⟩ := Option.isSome_iff_exists.mp (staging "/w/./b.json")
  refine ⟨plain, same.mpr shared, ?_, after, after', staged, staged', stage, stage', ?_⟩
  · rw [Bool.eq_false_iff]
    exact fun mixed => Bool.false_ne_true (apart.symm.trans (other.mp mixed))
  · exact (keys _ _ after after' staged staged' rfl rfl stage stage').mpr shared

end Artifact
end TypedJson
