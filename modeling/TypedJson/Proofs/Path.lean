import TypedJson.Artifact
import Mathlib.Data.List.DropRight

/-! # Paths by their components

The components of a joined path and of the directory of a path are functions of the components of what
they are made from. So the artifacts of two documents are one file if the documents are.
-/

namespace TypedJson.Text

/-- The segments of a text between separators hold the other characters of the text. -/
theorem mem_of_mem_splitOn {sep c : Char} {text segment : List Char} (member : segment ∈ text.splitOn sep)
    (inside : c ∈ segment) : c ∈ text ∧ c ≠ sep := by
  induction text generalizing segment with
  | nil =>
    obtain rfl := List.mem_singleton.mp member
    cases inside
  | cons first rest ih =>
    rw [List.splitOn_cons_eq_if_modifyHead] at member
    split at member
    case isTrue =>
      rcases List.mem_cons.mp member with rfl | later
      · cases inside
      · exact (ih later inside).imp_left (List.mem_cons_of_mem _)
    case isFalse other =>
      obtain ⟨head, others, parts⟩ := List.exists_cons_of_ne_nil (List.splitOn_ne_nil sep rest)
      rw [parts] at member ih
      rcases List.mem_cons.mp member with rfl | later
      · rcases List.mem_cons.mp inside with rfl | inside
        · exact ⟨List.mem_cons_self, fun same => other (beq_iff_eq.mpr same)⟩
        · exact (ih List.mem_cons_self inside).imp_left (List.mem_cons_of_mem _)
      · exact (ih (List.mem_cons_of_mem _ later) inside).imp_left (List.mem_cons_of_mem _)

theorem not_mem_of_mem_splitOn {sep : Char} {text segment : List Char} (member : segment ∈ text.splitOn sep) :
    sep ∉ segment :=
  fun inside => (mem_of_mem_splitOn member inside).2 rfl

end TypedJson.Text

namespace TypedJson.Path

variable {path : Path} {segment rest : List Char} {segments others : List (List Char)}

theorem segments_ne_nil (path : Path) : path.segments ≠ [] := List.splitOn_ne_nil '/' path.text.toList

theorem intercalate_segments (path : Path) : ['/'].intercalate path.segments = path.text.toList :=
  List.intercalate_splitOn '/'

theorem not_mem_of_mem_segments (member : segment ∈ path.segments) : '/' ∉ segment :=
  Text.not_mem_of_mem_splitOn member

/-- A separator in a path separates the segments before it from those behind it. -/
theorem segments_append {front more : List Char} (written : path.text.toList = front ++ '/' :: more) :
    path.segments = front.splitOn '/' ++ more.splitOn '/' := by
  rw [Path.segments, written, List.splitOn_append_cons_self]

theorem segments_root (written : path.text.toList = '/' :: rest) : path.segments = [] :: rest.splitOn '/' :=
  @segments_append path [] rest written

theorem isAbsolute_iff : path.isAbsolute = true ↔ ∃ rest, path.text.toList = '/' :: rest := by
  rw [isAbsolute, decide_eq_true_eq, List.head?_eq_some_iff]

theorem isAbsolute_of_not_mem (whole : '/' ∉ path.text.toList) : path.isAbsolute = false := by
  refine Bool.eq_false_iff.mpr fun absolute => whole ?_
  obtain ⟨rest, written⟩ := isAbsolute_iff.mp absolute
  exact written ▸ List.mem_cons_self

/-- A path whose first segment is not empty is relative. -/
theorem isAbsolute_of_segments (parts : path.segments = segment :: others) (given : segment ≠ []) :
    path.isAbsolute = false := by
  refine Bool.eq_false_iff.mpr fun absolute => given ?_
  obtain ⟨rest, written⟩ := isAbsolute_iff.mp absolute
  rw [segments_root written, List.cons.injEq] at parts
  exact parts.1.symm

theorem componentOf?_eq_none_iff : componentOf? segment = none ↔ isIdle segment = true := by
  unfold componentOf?
  split
  case isTrue idle => simp [idle]
  case isFalse counts => split <;> simp [counts]

/-- A path that starts with a separator, and what follows it. -/
theorem components_root (written : path.text.toList = '/' :: rest) :
    path.components = .root :: (rest.splitOn '/').filterMap componentOf? := by
  simp [components, anchor?, isAbsolute, segments_root written, written, componentOf?, isIdle]

/-- A path that starts in the current directory, and what follows. -/
theorem components_current (parts : path.segments = ['.'] :: others) :
    path.components = .current :: others.filterMap componentOf? := by
  have relative := isAbsolute_of_segments parts (List.cons_ne_nil _ _)
  simp [components, anchor?, relative, parts, componentOf?, isIdle]

/-- A path whose first segment counts has no anchor. -/
theorem anchor?_of_counts (parts : path.segments = segment :: others) (counts : isIdle segment = false) :
    path.anchor? = none := by
  simp only [isIdle, Bool.or_eq_false_iff, decide_eq_false_iff_not] at counts
  simp [anchor?, isAbsolute_of_segments parts counts.1, parts, counts]

/-- A path without an anchor is empty, or its first segment counts. -/
theorem counts_of_anchor? (unanchored : path.anchor? = none) (parts : path.segments = segment :: others) :
    path.segments = [[]] ∨ isIdle segment = false := by
  refine or_iff_not_imp_right.mpr fun idle => ?_
  simp only [isIdle, Bool.not_eq_false, Bool.or_eq_true, decide_eq_true_eq] at idle
  have relative : path.isAbsolute = false := by
    cases absolute : path.isAbsolute with
    | false => rfl
    | true => simp [anchor?, absolute] at unanchored
  rcases idle with rfl | rfl
  · cases others with
    | nil => exact parts
    | cons second rest =>
      -- a separator stands behind the empty segment, so the text begins with it
      have written : path.text.toList = '/' :: ['/'].intercalate (second :: rest) := by
        rw [← path.intercalate_segments, parts]
        rfl
      exact absurd (isAbsolute_iff.mpr ⟨_, written⟩) (by simp [relative])
  · simp [anchor?, relative, parts] at unanchored

theorem filterMap_splitOn_intercalate (apart : ∀ segment ∈ segments, '/' ∉ segment) :
    ((['/'].intercalate segments).splitOn '/').filterMap componentOf? =
      segments.filterMap componentOf? := by
  cases segments with
  | nil => rfl
  | cons first others => rw [List.splitOn_intercalate '/' apart (by simp)]

theorem dropIdleEnd_eq_rdropWhile (segments : List (List Char)) :
    dropIdleEnd segments = segments.rdropWhile isIdle := rfl

theorem filterMap_dropIdleEnd (segments : List (List Char)) :
    (dropIdleEnd segments).filterMap componentOf? = segments.filterMap componentOf? := by
  rw [dropIdleEnd_eq_rdropWhile]
  induction segments using List.reverseRecOn with
  | nil => rfl
  | append_singleton segments last ih =>
    by_cases idle : isIdle last = true
    · simp [idle, ih, componentOf?_eq_none_iff.mpr idle]
    · rw [List.rdropWhile_concat_neg isIdle _ _ idle]

theorem prefix_dropIdleEnd (segments : List (List Char)) : dropIdleEnd segments <+: segments :=
  List.rdropWhile_prefix isIdle segments

/-- Segments end in one that counts once those that do not count are dropped from the end. -/
theorem dropIdleEnd_concat (kept : dropIdleEnd segments ≠ []) :
    ∃ component, segments.filterMap componentOf? =
      (dropIdleEnd segments).dropLast.filterMap componentOf? ++ [component] := by
  have counts : componentOf? ((dropIdleEnd segments).getLast kept) ≠ none := fun none =>
    List.rdropWhile_last_not isIdle segments kept (componentOf?_eq_none_iff.mp none)
  obtain ⟨component, counted⟩ := Option.ne_none_iff_exists'.mp counts
  refine ⟨component, ?_⟩
  rw [← filterMap_dropIdleEnd segments]
  conv_lhs => rw [← List.dropLast_append_getLast kept, List.filterMap_append]
  simp [counted]

theorem filterMap_eq_nil_iff : segments.filterMap componentOf? = [] ↔ dropIdleEnd segments = [] := by
  constructor
  · intro none
    by_contra kept
    obtain ⟨component, all⟩ := dropIdleEnd_concat kept
    simp [none] at all
  · intro none
    rw [← filterMap_dropIdleEnd, none, List.filterMap_nil]

/-- The segments of the directory are the first ones of a path. -/
theorem prefix_directory (segments : List (List Char)) :
    dropIdleEnd (dropIdleEnd segments).dropLast <+: segments :=
  ((prefix_dropIdleEnd _).trans (List.dropLast_prefix _)).trans (prefix_dropIdleEnd segments)

theorem filterMap_directory (segments : List (List Char)) :
    (dropIdleEnd (dropIdleEnd segments).dropLast).filterMap componentOf? =
      (segments.filterMap componentOf?).dropLast := by
  rw [filterMap_dropIdleEnd]
  by_cases none : dropIdleEnd segments = []
  · rw [none, filterMap_eq_nil_iff.mpr none]
    rfl
  · obtain ⟨component, all⟩ := dropIdleEnd_concat none
    rw [all, List.dropLast_concat]

/-- The anchor of a path, the text it takes up, and the segments after it. -/
theorem splitAnchor_cases (path : Path) :
    (∃ rest, path.anchor? = some .root ∧ path.text.toList = '/' :: rest ∧
        path.splitAnchor = (['/'], rest.splitOn '/')) ∨
      (∃ others, path.anchor? = some .current ∧ path.segments = ['.'] :: others ∧
        path.splitAnchor = (['.'], [] :: others)) ∨
      path.anchor? = none ∧ path.splitAnchor = ([], path.segments) := by
  by_cases absolute : path.isAbsolute = true
  · refine .inl ?_
    have anchored : path.anchor? = some .root := by simp [anchor?, absolute]
    obtain ⟨rest, written⟩ := isAbsolute_iff.mp absolute
    exact ⟨rest, anchored, written, by simp [splitAnchor, anchored, written]⟩
  by_cases current : path.segments.head? = some ['.']
  · refine .inr (.inl ?_)
    have anchored : path.anchor? = some .current := by simp [anchor?, absolute, current]
    obtain ⟨others, parts⟩ := List.head?_eq_some_iff.mp current
    -- the text after the first character has the same segments, but for the first
    have written : path.text.toList = '.' :: ['/'].intercalate ([] :: others) := by
      rw [← path.intercalate_segments, parts]
      cases others <;> rfl
    refine ⟨others, anchored, parts, ?_⟩
    simp only [splitAnchor, anchored, written, List.take_succ_cons, List.take_zero, List.drop_succ_cons,
      List.drop_zero, Prod.mk.injEq, true_and]
    refine List.splitOn_intercalate '/' (fun segment member => ?_) (by simp)
    rcases List.mem_cons.mp member with rfl | later
    · exact List.not_mem_nil
    · exact path.not_mem_of_mem_segments (parts ▸ List.mem_cons_of_mem _ later)
  · have unanchored : path.anchor? = none := by simp [anchor?, absolute, current]
    exact .inr (.inr ⟨unanchored, by simp [splitAnchor, unanchored]⟩)

theorem parent?_eq (path : Path) : path.parent? =
    if dropIdleEnd path.splitAnchor.2 = [] then if path.splitAnchor.1 = ['.'] then some ⟨""⟩ else none
    else some ⟨String.ofList (path.splitAnchor.1 ++
      ['/'].intercalate (dropIdleEnd (dropIdleEnd path.splitAnchor.2).dropLast))⟩ := by
  unfold parent?
  cases counted : dropIdleEnd path.splitAnchor.2 <;> simp [counted]

/-- A text of segments after the current directory. -/
theorem components_current_intercalate (first : segments <+: [] :: others)
    (apart : ∀ segment ∈ segments, '/' ∉ segment) :
    components ⟨String.ofList ('.' :: ['/'].intercalate segments)⟩ =
      .current :: segments.filterMap componentOf? := by
  cases segments with
  | nil => rfl
  | cons segment rest =>
    obtain rfl := (List.cons_prefix_cons.mp first).1
    have written : '.' :: ['/'].intercalate ([] :: rest) = ['/'].intercalate (['.'] :: rest) := by
      cases rest <;> rfl
    have apart' : ∀ segment ∈ ['.'] :: rest, '/' ∉ segment := by
      intro segment member
      rcases List.mem_cons.mp member with rfl | later
      · decide
      · exact apart segment (List.mem_cons_of_mem _ later)
    have parts : Path.segments ⟨String.ofList ('.' :: ['/'].intercalate ([] :: rest))⟩ = ['.'] :: rest := by
      simp only [Path.segments, String.toList_ofList, written]
      exact List.splitOn_intercalate '/' apart' (by simp)
    rw [components_current parts]
    simp [componentOf?, isIdle]

/-- A text of segments of which the first counts. -/
theorem components_intercalate (counts : ∀ segment ∈ segments.head?, isIdle segment = false)
    (apart : ∀ segment ∈ segments, '/' ∉ segment) :
    components ⟨String.ofList (['/'].intercalate segments)⟩ = segments.filterMap componentOf? := by
  cases segments with
  | nil => rfl
  | cons segment rest =>
    have all : Path.segments ⟨String.ofList (['/'].intercalate (segment :: rest))⟩ = segment :: rest := by
      simp only [Path.segments, String.toList_ofList]
      exact List.splitOn_intercalate '/' apart (by simp)
    rw [components, anchor?_of_counts all (counts segment rfl), all]
    rfl

/-- The directory of a path has all components but the last. -/
theorem components_parent? (path : Path) :
    (path.parent?.map components).getD [] = path.components.dropLast := by
  rw [parent?_eq]
  rcases path.splitAnchor_cases with ⟨rest, -, written, parts⟩ | ⟨others, -, all, parts⟩ | ⟨unanchored, parts⟩
  · -- the directory keeps the separator at the start
    have apart : ∀ segment ∈ dropIdleEnd (dropIdleEnd (rest.splitOn '/')).dropLast, '/' ∉ segment :=
      fun segment member => Text.not_mem_of_mem_splitOn ((prefix_directory _).subset member)
    rw [components_root written, parts]
    by_cases none : dropIdleEnd (rest.splitOn '/') = []
    · simp [none, filterMap_eq_nil_iff.mpr none]
    · have more := mt filterMap_eq_nil_iff.mp none
      rw [if_neg none, Option.map_some, Option.getD_some, components_root (by simp; rfl),
        filterMap_splitOn_intercalate apart, filterMap_directory, List.dropLast_cons_of_ne_nil more]
  · -- the directory keeps the current directory at the start
    have apart : ∀ segment ∈ dropIdleEnd (dropIdleEnd ([] :: others)).dropLast, '/' ∉ segment := by
      intro segment member
      rcases List.mem_cons.mp ((prefix_directory _).subset member) with rfl | later
      · exact List.not_mem_nil
      · exact path.not_mem_of_mem_segments (all ▸ List.mem_cons_of_mem _ later)
    have idle : others.filterMap componentOf? = ([] :: others).filterMap componentOf? := by
      simp [componentOf?, isIdle]
    rw [components_current all, parts, idle]
    by_cases none : dropIdleEnd ([] :: others) = []
    · rw [if_pos none, filterMap_eq_nil_iff.mpr none]
      rfl
    · have more := mt filterMap_eq_nil_iff.mp none
      rw [if_neg none, Option.map_some, Option.getD_some, List.dropLast_cons_of_ne_nil more,
        List.singleton_append, components_current_intercalate (prefix_directory _) apart, filterMap_directory]
  · have apart : ∀ segment ∈ dropIdleEnd (dropIdleEnd path.segments).dropLast, '/' ∉ segment :=
      fun segment member => path.not_mem_of_mem_segments ((prefix_directory _).subset member)
    have whole : path.components = path.segments.filterMap componentOf? := by simp [components, unanchored]
    rw [parts, whole]
    by_cases none : dropIdleEnd path.segments = []
    · simp [none, filterMap_eq_nil_iff.mpr none]
    · rw [if_neg none, Option.map_some, Option.getD_some, List.nil_append,
        components_intercalate ?_ apart, filterMap_directory]
      -- the first segment of the directory is the first one of the path
      intro segment first
      obtain ⟨kept, start⟩ := List.head?_eq_some_iff.mp first
      obtain ⟨others, split⟩ := prefix_directory path.segments
      rw [start] at split
      refine (counts_of_anchor? unanchored split.symm).resolve_left fun empty => none ?_
      rw [empty]
      rfl

theorem components_eq_nil_iff : path.components = [] ↔ path.text.toList = [] := by
  constructor
  · intro none
    rw [components, List.append_eq_nil_iff, Option.toList_eq_nil_iff] at none
    cases parts : path.segments with
    | nil => exact (path.segments_ne_nil parts).elim
    | cons segment others =>
      rcases counts_of_anchor? none.1 parts with empty | counts
      · rw [← path.intercalate_segments, empty]
        rfl
      · have counted : segment :: others = [] := by
          simpa [parts, componentOf?_eq_none_iff, counts] using none.2
        cases counted
  · intro written
    simp [components, anchor?, isAbsolute, Path.segments, written, componentOf?, isIdle]

/-- What follows a separator adds its components to what stands before it. -/
theorem components_append {base : Path} {front more : List Char}
    (written : path.text.toList = front ++ '/' :: more) (before : base.text.toList = front ++ ['/']) :
    path.components = base.components ++ (more.splitOn '/').filterMap componentOf? := by
  have absolute : path.isAbsolute = base.isAbsolute := by
    cases front <;> simp [isAbsolute, written, before]
  have parts := segments_append written
  have parts' : base.segments = front.splitOn '/' ++ [[]] := segments_append before
  have first : path.segments.head? = base.segments.head? := by
    rw [parts, parts', List.head?_append_of_ne_nil _ (List.splitOn_ne_nil _ _),
      List.head?_append_of_ne_nil _ (List.splitOn_ne_nil _ _)]
  rw [components, components, anchor?, anchor?, absolute, first, parts, parts']
  simp [componentOf?, isIdle]

/-- A separator at the end does not count. -/
theorem components_separator {base : Path} (nonempty : path.text.toList ≠ [])
    (before : base.text.toList = path.text.toList ++ ['/']) : base.components = path.components := by
  have absolute : base.isAbsolute = path.isAbsolute := by
    simp [isAbsolute, before, List.head?_append_of_ne_nil _ nonempty]
  have parts : base.segments = path.segments ++ [[]] := segments_append before
  have first : base.segments.head? = path.segments.head? := by
    rw [parts, List.head?_append_of_ne_nil _ path.segments_ne_nil]
  rw [components, components, anchor?, anchor?, absolute, first, parts]
  simp [componentOf?, isIdle]

/-- Joining adds the components of a relative entry, except that the start of an entry counts in full
where nothing stands before it. -/
theorem components_join (directory entry : Path) : (directory.join entry).components =
    if entry.isAbsolute ∨ directory.components = [] then entry.components
    else directory.components ++ entry.segments.filterMap componentOf? := by
  unfold join
  by_cases absolute : entry.isAbsolute = true
  · simp [absolute]
  rw [if_neg absolute]
  by_cases empty : directory.text.toList = []
  · have same : directory.text ++ entry.text = entry.text := by
      rw [String.toList_eq_nil_iff.mp empty, String.empty_append]
    rw [if_pos (.inl empty), if_pos (.inr (components_eq_nil_iff.mpr empty)), same]
  rw [if_neg (not_or.mpr ⟨absolute, mt components_eq_nil_iff.mp empty⟩)]
  by_cases separated : directory.text.toList.getLast? = some '/'
  · obtain ⟨front, before⟩ := List.getLast?_eq_some_iff.mp separated
    rw [if_pos (.inr separated)]
    exact components_append (by simp [before]) before
  · rw [if_neg (not_or.mpr ⟨empty, separated⟩)]
    have before : (⟨directory.text ++ "/"⟩ : Path).text.toList = directory.text.toList ++ ['/'] := by simp
    have written : (⟨directory.text ++ "/" ++ entry.text⟩ : Path).text.toList =
        directory.text.toList ++ '/' :: entry.text.toList := by simp
    rw [components_append written before, components_separator empty before]
    rfl

end TypedJson.Path

namespace TypedJson.Artifact

/-- The artifact of a document lies in the directory of the document. -/
theorem components_pathFor (document : Path) (fileName : String) :
    (pathFor document fileName).components =
      if (⟨fileName⟩ : Path).isAbsolute ∨ document.components.dropLast = [] then
        (⟨fileName⟩ : Path).components
      else document.components.dropLast ++ (⟨fileName⟩ : Path).segments.filterMap Path.componentOf? := by
  have lies := document.components_parent?
  unfold pathFor
  cases directory : document.parent? with
  | none =>
    rw [directory] at lies
    rw [if_pos (.inr lies.symm)]
  | some directory' =>
    rw [directory] at lies
    rw [← lies]
    exact Path.components_join directory' ⟨fileName⟩

/-- One document has one artifact, however its path is written. -/
theorem components_pathFor_congr {document other : Path} (same : document.components = other.components)
    (fileName : String) : (pathFor document fileName).components = (pathFor other fileName).components := by
  rw [components_pathFor, components_pathFor, same]

end TypedJson.Artifact
