import TypedJson.Proofs.Glob.Trail

/-! # Patterns that are also paths of files

The text of a pattern may be the path of a file at the same time. Then its segments trail from the start of the search
to the file, so the file is among the results if each segment matches itself. Conversely, each segment of a pattern
matches one name on the way to a result, as long as none stands for directories. So if the file is a result, these
names are the segments.
-/

namespace TypedJson

theorem forall₂_of_mapM {ε α β : Type} {f : α → Except ε β} {values : List α} {results : List β}
    (all : values.mapM f = .ok results) : List.Forall₂ (fun value result => f value = .ok result) values results := by
  induction values generalizing results with
  | nil =>
    cases all
    exact .nil
  | cons value values ih =>
    rw [List.mapM_cons, bind_eq_ok_iff] at all
    obtain ⟨result, first, others⟩ := all
    obtain ⟨results', rest, same⟩ := bind_eq_ok_iff.mp others
    cases same
    exact .cons first (ih rest)

namespace Glob
namespace PathPattern

open FileTree (Way Reaches maxLinks)

variable {tree : FileTree} {directory : Path} {text : List Char} {links : ℕ} {there : FileName}

/-! ## What a search comes past -/

/-- The pattern of a text matches a name. -/
def Fits (text name : List Char) : Prop := ∃ segment, Pattern.ofText text = .ok segment ∧ segment.isMatch name = true

/-- A text that is no component matches only itself. -/
theorem eq_of_fits {name : List Char} (fits : Fits text name) (uncounted : Path.componentOf? text = none) :
    name = text := by
  obtain ⟨segment, read, fits⟩ := fits
  have idle := Path.componentOf?_eq_none_iff.mp uncounted
  simp only [Path.isIdle, Bool.or_eq_true, decide_eq_true_eq] at idle
  exact (Pattern.isMatch_iff_of_literal? (Pattern.literal?_of_ofText read (idle.imp_right .inl))).mp fits

theorem text_join_ne_nil (given : directory.text.toList ≠ []) (whole : '/' ∉ text) :
    (directory.join ⟨String.ofList text⟩).text.toList ≠ [] := by
  obtain ⟨between, joined, -⟩ := Path.join_cases given whole
  simp [joined, given]

theorem text_child_ne_nil (given : directory.text.toList ≠ []) (whole : '/' ∉ text) (named : text ≠ []) :
    (child directory (String.ofList text)).text.toList ≠ [] := by
  unfold child
  split
  · simpa using named
  · exact text_join_ne_nil given whole

theorem text_child_ne_nil_of_hasLiteral (given : directory.text.toList ≠ []) (whole : '/' ∉ text)
    (present : hasLiteral tree directory (String.ofList text) (child directory (String.ofList text)) = true) :
    (child directory (String.ofList text)).text.toList ≠ [] := by
  by_cases named : text = []
  · subst named
    unfold child at present ⊢
    split at present
    · cases present
    next other =>
      rw [if_neg other]
      exact text_join_ne_nil given whole
  · exact text_child_ne_nil given whole named

/-- A segment that stands for one name leads along a name that it matches. -/
theorem exists_name_of_leads {segment : Pattern} {path : Path} (named : tree.IsWellNamed)
    (read : Pattern.ofText text = .ok segment) (whole : '/' ∉ text) (given : directory.text.toList ≠ [])
    (leads : Leads tree directory segment path) : ∃ name, segment.isMatch name = true ∧ path.text.toList ≠ [] ∧
      path.route = directory.route ++ [name].filterMap Path.componentOf? := by
  cases leads with
  | literal plain present =>
    obtain rfl := (Pattern.spelling_of_ofText read).eq_of_literal? plain
    exact ⟨_, (Pattern.isMatch_iff_of_literal? plain).mpr rfl,
      text_child_ne_nil_of_hasLiteral given whole present, route_child given whole⟩
  | @hidden name _ _ member =>
    obtain ⟨fits, apart⟩ : segment.isMatch name.toList = true ∧ '/' ∉ name.toList := by
      unfold hiddenDirectories at member
      split at member
      · obtain ⟨member, fits⟩ := List.mem_filter.mp member
        refine ⟨fits, ?_⟩
        simp only [List.mem_cons, List.not_mem_nil, or_false] at member
        rcases member with rfl | rfl <;> decide
      · cases member
    exact ⟨name.toList, fits, by simpa using text_join_ne_nil given apart,
      by simpa using Path.route_join_ofList given apart⟩
  | @listed name _ _ member fits =>
    have plain := isPlainName_of_mem_namesIn named member
    have given' : name.toList ≠ [] := by simpa using plain.given
    exact ⟨name.toList, fits, by simpa using text_child_ne_nil given plain.whole given',
      by simpa using route_child given plain.whole⟩

/-- Without a segment that stands for directories, each segment of a pattern matches one name on the way to what is
found. -/
theorem exists_names_of_mem_search {texts : List (List Char)} {rest : List Pattern} {directoriesOnly : Bool}
    {depth : ℕ} {final : Path} (named : tree.IsWellNamed) (read : Reads texts rest)
    (whole : ∀ text ∈ texts, '/' ∉ text) (single : ['*', '*'] ∉ texts) (given : directory.text.toList ≠ [])
    (found : final ∈ search tree directoriesOnly depth rest directory) :
    ∃ names, List.Forall₂ Fits texts names ∧ final.route = directory.route ++ names.filterMap Path.componentOf? := by
  induction read generalizing depth directory with
  | nil => cases depth <;> simp [search] at found
  | @cons text segment texts rest first others ih =>
    obtain ⟨whole, wholes⟩ := List.forall_mem_cons.mp whole
    obtain ⟨other, singles⟩ := not_or.mp (mt List.mem_cons.mpr single)
    cases depth with
    | zero => simp [search] at found
    | succ depth =>
      have recursive : segment.isRecursive = false :=
        Bool.eq_false_iff.mpr (mt (Pattern.isRecursive_iff first whole).mp (Ne.symm other))
      obtain ⟨path, leads, found⟩ := (mem_search_iff recursive).mp found
      obtain ⟨name, fits, given', route⟩ := exists_name_of_leads named first whole given leads
      by_cases last : rest = []
      · subst last
        cases others
        obtain rfl := eq_of_mem_onward_nil found
        exact ⟨[name], .cons ⟨segment, first, fits⟩ .nil, route⟩
      · rw [onward_of_ne_nil last] at found
        obtain ⟨names, all, route'⟩ := ih wholes singles given' found
        refine ⟨name :: names, .cons ⟨segment, first, fits⟩ all, ?_⟩
        rw [route', route, List.append_assoc, ← List.filterMap_append, List.singleton_append]

section Names

variable {texts names : List (List Char)} {name : List Char}

theorem length_filterMap_le_of_fits (all : List.Forall₂ Fits texts names) :
    (names.filterMap Path.componentOf?).length ≤ (texts.filterMap Path.componentOf?).length := by
  induction all with
  | nil => exact le_rfl
  | @cons text name texts names fits _ ih =>
    cases counted : Path.componentOf? text with
    | none =>
      obtain rfl := eq_of_fits fits counted
      rwa [List.filterMap_cons_none counted, List.filterMap_cons_none counted]
    | some component =>
      rw [List.filterMap_cons_some counted, List.filterMap_cons]
      split
      · exact Nat.le_succ_of_le ih
      · exact Nat.succ_le_succ ih

/-- If names matched by texts have the same components, each text matches itself. -/
theorem isSelfMatching_of_fits (all : List.Forall₂ Fits texts names)
    (same : names.filterMap Path.componentOf? = texts.filterMap Path.componentOf?) :
    ∀ text ∈ texts, Pattern.IsSelfMatching text := by
  induction all with
  | nil => exact fun _ member => nomatch member
  | @cons text name texts names fits others ih =>
    have self (equal : name = text) : Pattern.IsSelfMatching text := by
      obtain ⟨segment, read, fits⟩ := fits
      intro segment' read'
      cases read.symm.trans read'
      exact equal ▸ fits
    cases counted : Path.componentOf? text with
    | none =>
      have equal := eq_of_fits fits counted
      rw [List.filterMap_cons_none counted, List.filterMap_cons_none (equal ▸ counted)] at same
      exact List.forall_mem_cons.mpr ⟨self equal, ih same⟩
    | some component =>
      rw [List.filterMap_cons_some counted] at same
      cases counted' : Path.componentOf? name with
      | none =>
        -- then fewer components are left for the other texts
        have le := length_filterMap_le_of_fits others
        rw [List.filterMap_cons_none counted'] at same
        rw [same, List.length_cons] at le
        omega
      | some component' =>
        rw [List.filterMap_cons_some counted', List.cons.injEq] at same
        obtain ⟨rfl, same⟩ := same
        have equal : String.ofList name = String.ofList text :=
          (Path.text_componentOf? counted').symm.trans (Path.text_componentOf? counted)
        exact List.forall_mem_cons.mpr ⟨self (String.ofList_inj.mp equal), ih same⟩

end Names

/-! ## The start of a search -/

section Start

variable {input : String} {entry : Entry}

/-- Where the search for an input starts. -/
def startOf (input : String) : Path := ⟨if (⟨input⟩ : Path).isAbsolute then "/" else "."⟩

/-- The texts of the segments of a pattern. -/
def textsOf (input : String) : List (List Char) :=
  (if (⟨input⟩ : Path).isAbsolute then input.toList.drop 1 else input.toList).splitOn '/'

theorem exists_of_isAbsolute (absolute : (⟨input⟩ : Path).isAbsolute = true) : ∃ rest, input.toList = '/' :: rest ∧
    startOf input = ⟨"/"⟩ ∧ textsOf input = rest.splitOn '/' := by
  obtain ⟨rest, written⟩ := Path.isAbsolute_iff.mp absolute
  exact ⟨rest, written, by rw [startOf, if_pos absolute], by rw [textsOf, if_pos absolute, written]; rfl⟩

theorem startOf_of_relative (relative : (⟨input⟩ : Path).isAbsolute = false) :
    startOf input = ⟨"."⟩ ∧ textsOf input = (⟨input⟩ : Path).segments := by
  constructor
  · rw [startOf, if_neg (by simp [relative])]
  · rw [textsOf, if_neg (by simp [relative]), Path.segments]

theorem suffix_segments (input : String) : textsOf input <:+ (⟨input⟩ : Path).segments := by
  cases absolute : (⟨input⟩ : Path).isAbsolute with
  | false => exact (startOf_of_relative absolute).2 ▸ List.suffix_rfl
  | true =>
    obtain ⟨rest, written, -, parts⟩ := exists_of_isAbsolute absolute
    rw [parts, Path.segments_root written]
    exact List.suffix_cons ..

/-- Only the empty segment before the root is not searched for. -/
theorem mem_textsOf (member : text ∈ (⟨input⟩ : Path).segments) : text = [] ∨ text ∈ textsOf input := by
  cases absolute : (⟨input⟩ : Path).isAbsolute with
  | false =>
    rw [(startOf_of_relative absolute).2]
    exact .inr member
  | true =>
    obtain ⟨rest, written, -, parts⟩ := exists_of_isAbsolute absolute
    rw [Path.segments_root written] at member
    rw [parts]
    exact List.mem_cons.mp member

theorem textsOf_ne_nil (input : String) : textsOf input ≠ [] := List.splitOn_ne_nil _ _

theorem getLast?_textsOf (input : String) : (textsOf input).getLast? = (⟨input⟩ : Path).segments.getLast? := by
  obtain ⟨front, parts⟩ := suffix_segments input
  rw [← parts, List.getLast?_append_of_ne_nil _ (textsOf_ne_nil input)]

theorem route_startOf (input : String) :
    (startOf input).route ++ (textsOf input).filterMap Path.componentOf? = Path.route ⟨input⟩ := by
  cases absolute : (⟨input⟩ : Path).isAbsolute with
  | false =>
    rw [(startOf_of_relative absolute).1, (startOf_of_relative absolute).2, Path.route_of_relative absolute]
    rfl
  | true =>
    obtain ⟨rest, written, start, parts⟩ := exists_of_isAbsolute absolute
    rw [start, parts, Path.route_of_absolute written]
    rfl

/-- No path on the trail is longer than the input. -/
theorem byteLength_child_startOf_le {rest : List (List Char)} (parts : textsOf input = text :: rest) :
    Text.byteLength (['/'].intercalate ((child (startOf input) (String.ofList text)).text.toList :: rest)) ≤
      Text.byteLength input.toList := by
  cases absolute : (⟨input⟩ : Path).isAbsolute with
  | false =>
    obtain ⟨start, all⟩ := startOf_of_relative absolute
    have whole : ['/'].intercalate (text :: rest) = input.toList := by
      rw [← parts, all, Path.intercalate_segments]
    have first : child ⟨"."⟩ (String.ofList text) = ⟨String.ofList text⟩ := rfl
    rw [start, first, String.toList_ofList, whole]
  | true =>
    obtain ⟨others, written, start, all⟩ := exists_of_isAbsolute absolute
    have whole : ['/'].intercalate (text :: rest) = others := by rw [← parts, all, List.intercalate_splitOn]
    have apart : '/' ∉ text := Text.not_mem_of_mem_splitOn (all ▸ parts ▸ List.mem_cons_self ..)
    have first : (child ⟨"/"⟩ (String.ofList text)).text.toList = '/' :: text := by
      change ((⟨"/"⟩ : Path).join ⟨String.ofList text⟩).text.toList = _
      simp [Path.join, Path.isAbsolute_ofList apart]
    have moved : ['/'].intercalate (('/' :: text) :: rest) = '/' :: ['/'].intercalate (text :: rest) := by
      cases rest <;> rfl
    rw [start, first, moved, whole, written]

theorem reaches_startOf (reaches : Reaches tree ⟨input⟩ links there) :
    ∃ here, Reaches tree (startOf input) maxLinks here ∧ Way tree maxLinks here (textsOf input) links there := by
  have way := reaches.way
  cases absolute : (⟨input⟩ : Path).isAbsolute with
  | false =>
    obtain ⟨start, parts⟩ := startOf_of_relative absolute
    rw [if_neg (by simp [absolute])] at way
    obtain ⟨text, rest, all⟩ := List.exists_cons_of_ne_nil (Path.segments_ne_nil ⟨input⟩)
    have directory := (all ▸ way).directory
    refine ⟨tree.workingDirectory, ?_, parts ▸ way⟩
    rw [start]
    exact ⟨by decide, by decide, .idle directory rfl .stay⟩
  | true =>
    obtain ⟨rest, written, start, parts⟩ := exists_of_isAbsolute absolute
    rw [if_pos absolute, Path.segments_root written] at way
    refine ⟨[], ?_, ?_⟩
    · rw [start]
      exact ⟨by decide, by decide, .idle rfl rfl (.idle rfl rfl .stay)⟩
    · rw [parts]
      cases way with
      | idle _ _ onward => exact onward
      | enter _ counts => cases counts
      | follow _ counts => cases counts

/-- The path of a file does not end in a separator. -/
theorem getLast?_ne_empty (reaches : Reaches tree ⟨input⟩ links there) (found : tree.lookup? there = some entry)
    (file : entry ≠ .directory) : (⟨input⟩ : Path).segments.getLast? ≠ some [] := by
  intro last
  obtain ⟨front, parts⟩ := List.getLast?_eq_some_iff.mp last
  obtain ⟨links₁, here₁, -, step⟩ := (parts ▸ reaches.way).split
  have directory := step.directory
  rw [(step.eq_of_isIdle rfl).2, found] at directory
  exact file (Option.some.inj directory)

theorem getLast?_ne_separator (last : (⟨input⟩ : Path).segments.getLast? ≠ some []) :
    input.toList.getLast? ≠ some '/' := by
  intro separated
  obtain ⟨front, written⟩ := List.getLast?_eq_some_iff.mp separated
  apply last
  rw [Path.segments_append written]
  exact List.getLast?_append_of_ne_nil _ (List.splitOn_ne_nil '/' [])

/-- What is read of a pattern that does not end in a separator. -/
theorem ofText_eq_ok {pattern : PathPattern} (read : ofText input = .ok pattern)
    (last : (⟨input⟩ : Path).segments.getLast? ≠ some []) :
    pattern.start = startOf input ∧ pattern.directoriesOnly = false ∧ Reads (textsOf input) pattern.segments := by
  obtain ⟨_, -, read⟩ := bind_eq_ok_iff.mp read
  obtain ⟨segments, all, same⟩ := bind_eq_ok_iff.mp read
  cases same
  refine ⟨rfl, by simpa using getLast?_ne_separator last, ?_⟩
  have kept : dropEmptyEnd (textsOf input) = textsOf input := if_neg (getLast?_textsOf input ▸ last)
  change (dropEmptyEnd (textsOf input)).mapM Pattern.ofText = .ok segments at all
  exact forall₂_of_mapM (kept ▸ all)

end Start

end PathPattern

open PathPattern

variable {tree : FileTree} {input : String} {name : FileName} {content : List UInt8} {found : List Path}

theorem isStarred_of_read {texts : List (List Char)} {segments : List Pattern} (read : Reads texts segments)
    (whole : ∀ text ∈ texts, '/' ∉ text) : IsStarred segments := by
  intro segment member recursive
  induction read with
  | nil => cases member
  | cons first others ih =>
    obtain ⟨whole, wholes⟩ := List.forall_mem_cons.mp whole
    rcases List.mem_cons.mp member with rfl | later
    · obtain rfl := (Pattern.isRecursive_iff first whole).mp recursive
      cases first.symm.trans Pattern.ofText_two_asterisks
      rfl
    · exact ih wholes later

theorem exists_getLast?_of_read {texts : List (List Char)} {segments : List Pattern} {text : List Char}
    (read : Reads texts segments) (last : texts.getLast? = some text) :
    ∃ segment, segments.getLast? = some segment ∧ Pattern.ofText text = .ok segment := by
  have read' := List.forall₂_reverse_iff.mpr read
  rw [List.getLast?_eq_head?_reverse] at last ⊢
  obtain ⟨others, parts⟩ := List.head?_eq_some_iff.mp last
  rw [parts] at read'
  obtain ⟨segment, rest, first, -, parts'⟩ := List.forall₂_cons_left_iff.mp read'
  exact ⟨segment, by rw [parts']; rfl, first⟩

/-- A pattern that is the path of a file finds the file if it finds anything and its segments match themselves. -/
theorem exists_mem_expand (named : tree.IsWellNamed) (expanded : expand tree input = .ok found)
    (nonempty : found ≠ []) (file : tree.entryAt true ⟨input⟩ = .ok (name, .file content))
    (selves : ∀ text ∈ Path.segments ⟨input⟩, Pattern.IsSelfMatching text)
    (last : (Path.segments ⟨input⟩).getLast? ≠ some ['*', '*']) :
    ∃ path ∈ found, path.components = Path.route ⟨input⟩ ∧ tree.entryAt true path = .ok (name, .file content) := by
  obtain ⟨pattern, read, rfl⟩ := map_eq_ok_iff.mp expanded
  obtain ⟨⟨links, reaches⟩, short, there⟩ := FileTree.entryAt_eq_ok_iff.mp file
  obtain ⟨start, files, segments⟩ := ofText_eq_ok read (getLast?_ne_empty reaches there nofun)
  rw [matchesIn, start, files] at nonempty ⊢
  have within := (suffix_segments input).subset
  have whole : ∀ text ∈ textsOf input, '/' ∉ text := fun text member => Text.not_mem_of_mem_splitOn member
  have clean : ∀ text ∈ textsOf input, '\x00' ∉ text := fun text member nul =>
    reaches.clean (Text.mem_of_mem_splitOn (within member) nul).1
  obtain ⟨some, mem⟩ := List.exists_mem_of_ne_nil _ nonempty
  have loose : ¬ IsStuck pattern.segments := fun stuck =>
    not_mem_search_of_isStuck named (isStarred_of_read segments whole) stuck mem
  have given : startOf input = ⟨"."⟩ → ((textsOf input).dropWhile (· = ['.'])).head? ≠ .some [] := by
    intro current empty
    rw [current] at mem
    exact not_mem_search_of_empty segments empty mem
  obtain ⟨written, small⟩ : IsWritten (startOf input) ∧
      Text.byteLength (startOf input).text.toList < FileTree.pathLimit := by
    unfold startOf
    split
    · exact ⟨.inr rfl, by decide⟩
    · exact ⟨.inl rfl, by decide⟩
  obtain ⟨here, reaches', way⟩ := reaches_startOf reaches
  obtain ⟨final, trail, written', route, leads⟩ := exists_trail reaches' written whole clean way there small
    (fun text rest parts => lt_of_le_of_lt (byteLength_child_startOf_le parts) short) given
  have deep : (textsOf input).length ≤
      pattern.segments.length + (FileTree.maxLinks + 1) * (tree.entries.length + 1) := by
    rw [segments.length_eq]
    omega
  have mem := mem_search_of_trail trail segments (textsOf_ne_nil input) whole
    (fun text member => selves text (within member)) (getLast?_textsOf input ▸ last) loose deep
  have route' := route.trans (route_startOf input)
  exact ⟨final, mem.1, (components_eq_route written' leads).trans route', leads⟩

/-- A pattern that is the path of a file finds the file only if its segments match themselves, unless it stands for
directories before its end. -/
theorem isSelfMatching_of_mem_expand (named : tree.IsWellNamed) (expanded : expand tree input = .ok found)
    (file : tree.entryAt true ⟨input⟩ = .ok (name, .file content))
    (single : ['*', '*'] ∉ (Path.segments ⟨input⟩).dropLast) {path : Path} (member : path ∈ found)
    (route : path.route = Path.route ⟨input⟩) (leads : tree.entryAt true path = .ok (name, .file content)) :
    (∀ text ∈ Path.segments ⟨input⟩, Pattern.IsSelfMatching text) ∧
      (Path.segments ⟨input⟩).getLast? ≠ some ['*', '*'] := by
  obtain ⟨pattern, read, rfl⟩ := map_eq_ok_iff.mp expanded
  obtain ⟨⟨links, reaches⟩, -, there⟩ := FileTree.entryAt_eq_ok_iff.mp file
  obtain ⟨start, -, segments⟩ := ofText_eq_ok read (getLast?_ne_empty reaches there nofun)
  rw [matchesIn, start] at member
  have whole : ∀ text ∈ textsOf input, '/' ∉ text := fun text member => Text.not_mem_of_mem_splitOn member
  have last : (Path.segments ⟨input⟩).getLast? ≠ some ['*', '*'] := by
    intro last
    obtain ⟨segment, final, read⟩ := exists_getLast?_of_read segments ((getLast?_textsOf input).trans last)
    cases read.symm.trans Pattern.ofText_two_asterisks
    have inside := isDirectory_of_mem_search (isStarred_of_read segments whole) final member
    rw [FileTree.isDirectory, leads] at inside
    cases inside
  have single' : ['*', '*'] ∉ textsOf input := by
    intro member
    have member' := (suffix_segments input).subset member
    rw [← List.dropLast_append_getLast (Path.segments_ne_nil ⟨input⟩), List.mem_append] at member'
    refine member'.elim single fun final => last ?_
    rw [List.getLast?_eq_some_getLast (Path.segments_ne_nil ⟨input⟩), List.mem_singleton.mp final]
  have given : (startOf input).text.toList ≠ [] := by
    unfold startOf
    split <;> decide
  obtain ⟨names, all, parts⟩ := exists_names_of_mem_search named segments whole single' given member
  rw [route, ← route_startOf input, List.append_cancel_left_eq] at parts
  refine ⟨fun text member => ?_, last⟩
  rcases mem_textsOf member with rfl | member
  · exact Pattern.isSelfMatching_of_not_mem List.not_mem_nil
  · exact isSelfMatching_of_fits all parts.symm text member

end Glob
end TypedJson
