import TypedJson.Glob.Expansion
import TypedJson.Proofs.Directory
import TypedJson.Proofs.Glob.Pattern
import Mathlib.Data.List.Forall2

/-! # What a search finds

A search goes from directory to directory, and each segment of the pattern says where it goes on. If the segments
of a pattern, taken as names, trail from the start of a search to some path, and each of them matches itself, the
search comes past all of them and finds this path. Patterns that find nothing at all are told apart before that: one
that stands for directories and then names the current or the parent directory, which are listed nowhere, and one
that goes on from the current directory with an empty name.
-/

namespace TypedJson

/-- Each part of a name in the tree is one that an entry of a directory can have. -/
def FileTree.IsWellNamed (tree : FileTree) : Prop := ∀ entry ∈ tree.entries, ∀ part ∈ entry.1, Path.IsPlainName part

namespace Glob

/-- Texts read as the segments of a pattern. -/
abbrev Reads (texts : List (List Char)) (segments : List Pattern) : Prop :=
  List.Forall₂ (fun text segment => Pattern.ofText text = .ok segment) texts segments

/-- The segment that stands for any number of directories. -/
def star : Pattern := [.anyDirectories]

/-- The segments that name no entry of a directory. -/
def IsHidden (text : List Char) : Prop := text = [] ∨ text = ['.'] ∨ text = ['.', '.']

namespace Pattern

variable {pattern : Pattern} {text name : List Char}

theorem isMatch_iff_of_literal? (plain : pattern.literal? = some text) : pattern.isMatch name = true ↔ name = text := by
  induction pattern generalizing text name with
  | nil =>
    cases plain
    simp [isMatch]
  | cons part rest ih =>
    cases part with
    | literal c =>
      obtain ⟨text, plain', rfl⟩ := Option.map_eq_some_iff.mp plain
      cases name with
      | nil => simp [isMatch]
      | cons first name => simp [isMatch, ih plain']
    | _ => cases plain

theorem isRecursive_of_literal? (plain : pattern.literal? = some text) : pattern.isRecursive = false := by
  induction pattern generalizing text with
  | nil => rfl
  | cons part rest ih =>
    cases part with
    | literal c =>
      obtain ⟨text, plain', rfl⟩ := Option.map_eq_some_iff.mp plain
      simpa [isRecursive] using ih plain'
    | _ => cases plain

end Pattern

namespace PathPattern

variable {tree : FileTree} {directoriesOnly : Bool} {depth : ℕ} {segment next : Pattern} {rest more : List Pattern}
  {directory path final : Path} {name : String} {text : List Char}

/-- What is found from a path that a segment has led to. -/
def onward (tree : FileTree) (directoriesOnly : Bool) (depth : ℕ) (rest : List Pattern) (path : Path) : List Path :=
  if rest.isEmpty then accept tree directoriesOnly path else search tree directoriesOnly depth rest path

theorem onward_of_ne_nil (remaining : rest ≠ []) :
    onward tree directoriesOnly depth rest path = search tree directoriesOnly depth rest path :=
  if_neg (by simpa using remaining)

theorem eq_of_mem_onward_nil (found : final ∈ onward tree directoriesOnly depth [] path) : final = path := by
  change final ∈ accept tree directoriesOnly path at found
  unfold accept at found
  split at found
  · cases found
  · exact List.mem_singleton.mp found

/-! ## One segment -/

/-- A segment that stands for one name leads from a directory to a path. -/
inductive Leads (tree : FileTree) (directory : Path) (segment : Pattern) : Path → Prop
  | literal {text : List Char} (plain : segment.literal? = some text)
      (present : hasLiteral tree directory (String.ofList text) (child directory (String.ofList text)) = true) :
      Leads tree directory segment (child directory (String.ofList text))
  | hidden {name : String} (wild : segment.literal? = none) (inside : tree.isDirectory directory = true)
      (member : name ∈ hiddenDirectories segment) : Leads tree directory segment (directory.join ⟨name⟩)
  | listed {name : String} (wild : segment.literal? = none) (inside : tree.isDirectory directory = true)
      (member : name ∈ namesIn tree directory) (fits : segment.isMatch name.toList = true) :
      Leads tree directory segment (child directory name)

theorem mem_search_iff (single : segment.isRecursive = false) :
    final ∈ search tree directoriesOnly (depth + 1) (segment :: rest) directory ↔
      ∃ path, Leads tree directory segment path ∧ final ∈ onward tree directoriesOnly depth rest path := by
  cases plain : segment.literal? with
  | some text =>
    have step : search tree directoriesOnly (depth + 1) (segment :: rest) directory =
        if hasLiteral tree directory (String.ofList text) (child directory (String.ofList text)) then
          onward tree directoriesOnly depth rest (child directory (String.ofList text))
        else [] := by
      rw [search, plain]
      rfl
    rw [step, List.mem_ite_nil_right]
    constructor
    · exact fun ⟨present, found⟩ => ⟨_, .literal plain present, found⟩
    · rintro ⟨path, leads, found⟩
      cases leads with
      | literal plain' present =>
        cases plain.symm.trans plain'
        exact ⟨present, found⟩
      | hidden wild => cases plain.symm.trans wild
      | listed wild => cases plain.symm.trans wild
  | none =>
    have step : search tree directoriesOnly (depth + 1) (segment :: rest) directory =
        if !tree.isDirectory directory then []
        else
          ((hiddenDirectories segment).flatMap fun name =>
              onward tree directoriesOnly depth rest (directory.join ⟨name⟩)) ++
            (namesIn tree directory).flatMap fun name =>
              if segment.isMatch name.toList then onward tree directoriesOnly depth rest (child directory name)
              else [] := by
      rw [search, plain]
      simp only [single]
      rfl
    rw [step, List.mem_ite_nil_left, List.mem_append, List.mem_flatMap, List.mem_flatMap]
    simp only [List.mem_ite_nil_right, Bool.not_eq_true', Bool.not_eq_false]
    constructor
    · rintro ⟨inside, ⟨name, member, found⟩ | ⟨name, member, fits, found⟩⟩
      · exact ⟨_, .hidden plain inside member, found⟩
      · exact ⟨_, .listed plain inside member fits, found⟩
    · rintro ⟨path, leads, found⟩
      cases leads with
      | literal plain' => cases plain.symm.trans plain'
      | hidden _ inside member => exact ⟨inside, .inl ⟨_, member, found⟩⟩
      | listed _ inside member fits => exact ⟨inside, .inr ⟨_, member, fits, found⟩⟩

/-- From a directory the segment that stands for directories leads into each entry, and whatever stands for one name
after it may already match the entry. -/
theorem mem_search_star_iff :
    final ∈ search tree directoriesOnly (depth + 1) (star :: rest) directory ↔
      tree.isDirectory directory = true ∧ ∃ name ∈ namesIn tree directory,
        (rest.dropWhile Pattern.isRecursive = [] ∧ tree.isDirectory (child directory name) = true ∧
            final = child directory name) ∨
        (∃ next more, rest.dropWhile Pattern.isRecursive = next :: more ∧ next.isMatch name.toList = true ∧
            final ∈ onward tree directoriesOnly depth more (child directory name)) ∨
        final ∈ search tree directoriesOnly depth (star :: rest.dropWhile Pattern.isRecursive)
          (child directory name) := by
  have wild : star.literal? = none := rfl
  have recursive : star.isRecursive = true := rfl
  have shown : hiddenDirectories star = [] := rfl
  rw [search, wild]
  simp only [recursive, shown, List.flatMap_nil, List.nil_append, if_true, List.mem_ite_nil_left, List.mem_flatMap,
    List.mem_append, Bool.not_eq_true', Bool.not_eq_false, ← or_assoc]
  cases rest.dropWhile Pattern.isRecursive with
  | nil => simp
  | cons next more => simp [onward]

/-! ## Patterns that find nothing -/

theorem isPlainName_of_mem_namesIn (named : tree.IsWellNamed) (listed : name ∈ namesIn tree directory) :
    Path.IsPlainName name := by
  unfold namesIn at listed
  split at listed
  · rw [FileTree.children, List.mem_mergeSort, List.mem_filterMap] at listed
    obtain ⟨entry, member, last⟩ := listed
    apply named entry member
    apply List.mem_of_getLast?
    simpa using (Option.ite_none_right_eq_some.mp last).2
  · cases listed

theorem not_isHidden_of_isPlainName (plain : Path.IsPlainName name) : ¬ IsHidden name.toList := by
  rintro (empty | current | parent)
  · exact plain.given (String.toList_inj.mp empty)
  · exact plain.apart.1 (String.toList_inj.mp current)
  · exact plain.apart.2 (String.toList_inj.mp parent)

/-- Only one segment stands for directories. -/
def IsStarred (segments : List Pattern) : Prop := ∀ segment ∈ segments, segment.isRecursive = true → segment = star

theorem isStarred_cons : IsStarred (segment :: rest) ↔
    (segment.isRecursive = true → segment = star) ∧ IsStarred rest := List.forall_mem_cons

theorem IsStarred.dropWhile (starred : IsStarred rest) : IsStarred (rest.dropWhile Pattern.isRecursive) :=
  fun segment member => starred segment ((List.dropWhile_sublist _).subset member)

/-- Segments still end in the same way when they are dropped after one that stands for directories. -/
theorem getLast?_star_cons_dropWhile (last : (star :: rest).getLast? = some star) :
    (star :: rest.dropWhile Pattern.isRecursive).getLast? = some star := by
  by_cases more : rest.dropWhile Pattern.isRecursive = []
  · rw [more]
    rfl
  · obtain ⟨front, parts⟩ := List.dropWhile_suffix (l := rest) Pattern.isRecursive
    rw [← parts, List.getLast?_cons_of_ne_nil (by simp [more]), List.getLast?_append_of_ne_nil _ more] at last
    rwa [List.getLast?_cons_of_ne_nil more]

/-- After it has stood for directories, a pattern names one that is listed nowhere. -/
inductive IsStuck : List Pattern → Prop
  | here {rest more : List Pattern} {next : Pattern} {text : List Char}
      (onward : rest.dropWhile Pattern.isRecursive = next :: more) (plain : next.literal? = some text)
      (hidden : IsHidden text) : IsStuck (star :: rest)
  | later {segment : Pattern} {rest : List Pattern} (stuck : IsStuck rest) : IsStuck (segment :: rest)

theorem IsStuck.ne_nil (stuck : IsStuck rest) : rest ≠ [] := by
  rintro rfl
  cases stuck

/-- What comes next after any number of directories. -/
theorem IsStuck.dropWhile (starred : IsStarred rest) (stuck : IsStuck (star :: rest)) :
    ∃ next more, rest.dropWhile Pattern.isRecursive = next :: more ∧
      ((∃ text, next.literal? = some text ∧ IsHidden text) ∨ IsStuck more) := by
  induction rest with
  | nil =>
    cases stuck with
    | here onward => cases onward
    | later stuck => cases stuck
  | cons segment rest ih =>
    cases stuck with
    | here onward plain hidden => exact ⟨_, _, onward, .inl ⟨_, plain, hidden⟩⟩
    | later stuck =>
      by_cases recursive : segment.isRecursive = true
      · obtain rfl := starred segment (List.mem_cons_self ..) recursive
        rw [List.dropWhile_cons_of_pos recursive]
        exact ih (fun other member => starred other (List.mem_cons_of_mem _ member)) stuck
      · cases stuck with
        | here => exact (recursive rfl).elim
        | later stuck => exact ⟨segment, rest, List.dropWhile_cons_of_neg recursive, .inr stuck⟩

/-- A pattern that is stuck finds nothing. -/
theorem not_mem_search_of_isStuck (named : tree.IsWellNamed) (starred : IsStarred rest) (stuck : IsStuck rest) :
    final ∉ search tree directoriesOnly depth rest directory := by
  induction depth generalizing rest directory with
  | zero => simp [search]
  | succ depth ih =>
    have quiet {rest : List Pattern} (starred : IsStarred rest) (stuck : IsStuck rest) (path : Path) :
        final ∉ onward tree directoriesOnly depth rest path := by
      rw [onward_of_ne_nil stuck.ne_nil]
      exact ih starred stuck
    cases rest with
    | nil => cases stuck
    | cons segment rest =>
      intro mem
      obtain ⟨first, others⟩ := isStarred_cons.mp starred
      by_cases recursive : segment.isRecursive = true
      · obtain rfl := first recursive
        obtain ⟨next, more, after, blocked⟩ := stuck.dropWhile others
        have kept := others.dropWhile
        rw [after] at kept
        obtain ⟨-, name, member, found⟩ := mem_search_star_iff.mp mem
        simp only [after, reduceCtorEq, false_and, false_or, List.cons.injEq] at found
        rcases found with ⟨next', more', ⟨rfl, rfl⟩, fits, found⟩ | found
        · rcases blocked with ⟨text, plain, hidden⟩ | stuck
          · rw [← (Pattern.isMatch_iff_of_literal? plain).mp fits] at hidden
            exact not_isHidden_of_isPlainName (isPlainName_of_mem_namesIn named member) hidden
          · exact quiet (isStarred_cons.mp kept).2 stuck _ found
        · refine ih (isStarred_cons.mpr ⟨fun _ => rfl, kept⟩) ?_ found
          rcases blocked with ⟨text, plain, hidden⟩ | stuck
          · have settled : (next :: more).dropWhile Pattern.isRecursive = next :: more := by
              rw [← after, List.dropWhile_idempotent]
            exact .here settled plain hidden
          · exact .later (.later stuck)
      · obtain ⟨path, -, found⟩ := (mem_search_iff (Bool.eq_false_iff.mpr recursive)).mp mem
        cases stuck with
        | here => exact recursive rfl
        | later stuck => exact quiet others stuck path found

/-- The current directory has no entry without a name. -/
theorem not_mem_search_of_empty {texts : List (List Char)} (read : Reads texts rest)
    (empty : (texts.dropWhile (· = ['.'])).head? = some []) :
    final ∉ search tree directoriesOnly depth rest ⟨"."⟩ := by
  induction read generalizing depth with
  | nil => cases empty
  | @cons text segment texts rest first others ih =>
    cases depth with
    | zero => simp [search]
    | succ depth =>
      have plain : segment.literal? = some text := by
        apply Pattern.literal?_of_ofText first
        by_cases current : text = ['.']
        · exact .inr (.inl current)
        · rw [List.dropWhile_cons_of_neg (by simpa using current)] at empty
          exact .inl (Option.some.inj empty)
      rw [mem_search_iff (Pattern.isRecursive_of_literal? plain)]
      rintro ⟨path, leads, found⟩
      cases leads with
      | literal plain' present =>
        cases plain.symm.trans plain'
        by_cases current : text = ['.']
        · subst current
          have remaining : rest ≠ [] := by
            rintro rfl
            cases others
            simp at empty
          rw [onward_of_ne_nil remaining] at found
          exact ih (by simpa using empty) found
        · rw [List.dropWhile_cons_of_neg (by simpa using current)] at empty
          obtain rfl := Option.some.inj empty
          cases present
      | hidden wild => cases plain.symm.trans wild
      | listed wild => cases plain.symm.trans wild

/-- A pattern that stands for directories at its end finds no files. -/
theorem isDirectory_of_mem_search (starred : IsStarred rest) (last : rest.getLast? = some star)
    (found : final ∈ search tree directoriesOnly depth rest directory) : tree.isDirectory final = true := by
  induction depth generalizing rest directory with
  | zero => simp [search] at found
  | succ depth ih =>
    have onwards {rest : List Pattern} {path : Path} (starred : IsStarred rest) (last : rest.getLast? = some star)
        (found : final ∈ onward tree directoriesOnly depth rest path) : tree.isDirectory final = true := by
      rw [onward_of_ne_nil (by rintro rfl; cases last)] at found
      exact ih starred last found
    cases rest with
    | nil => cases last
    | cons segment rest =>
      obtain ⟨first, others⟩ := isStarred_cons.mp starred
      by_cases recursive : segment.isRecursive = true
      · obtain rfl := first recursive
        have kept := others.dropWhile
        have last' := getLast?_star_cons_dropWhile last
        obtain ⟨-, name, -, ⟨-, inside, rfl⟩ | ⟨next, more, after, -, found⟩ | found⟩ := mem_search_star_iff.mp found
        · exact inside
        · rw [after] at kept last'
          rw [List.getLast?_cons_cons] at last'
          have single : next ≠ star := by
            rintro rfl
            have first' := List.head?_dropWhile_not Pattern.isRecursive rest
            rw [after] at first'
            cases first'
          refine onwards (isStarred_cons.mp kept).2 ?_ found
          rwa [List.getLast?_cons_of_ne_nil] at last'
          rintro rfl
          exact single (Option.some.inj last')
        · exact ih (isStarred_cons.mpr ⟨fun _ => rfl, kept⟩) last' found
      · obtain ⟨path, -, found⟩ := (mem_search_iff (Bool.eq_false_iff.mpr recursive)).mp found
        refine onwards others ?_ found
        rwa [List.getLast?_cons_of_ne_nil] at last
        rintro rfl
        obtain rfl := Option.some.inj last
        exact recursive rfl

/-! ## What is found on a trail -/

/-- Texts lead from a directory to a path, each from a directory to one of its entries. -/
inductive Trail (tree : FileTree) : Path → List (List Char) → Path → Prop
  | done {path : Path} : Trail tree path [] path
  | step {directory final : Path} {text : List Char} {texts : List (List Char)} {name : FileName}
      (inside : tree.entryAt true directory = .ok (name, .directory))
      (listed : ¬ IsHidden text → String.ofList text ∈ tree.children name)
      (present : tree.hasEntry (child directory (String.ofList text)) = true)
      (further : Trail tree (child directory (String.ofList text)) texts final) :
      Trail tree directory (text :: texts) final

theorem hasLiteral_of_present {here : FileName} (inside : tree.entryAt true directory = .ok (here, .directory))
    (present : tree.hasEntry path = true) : hasLiteral tree directory name path = true := by
  unfold hasLiteral
  split
  · rw [FileTree.isDirectory, inside]
  · exact Bool.or_eq_true_iff.mpr (.inl present)

/-- Segments that match themselves find the path to which they lead as texts, also after directories have been
passed. -/
theorem mem_search_of_trail {texts : List (List Char)} (trail : Trail tree directory texts final)
    (read : Reads texts rest) (given : texts ≠ []) (whole : ∀ text ∈ texts, '/' ∉ text)
    (selves : ∀ text ∈ texts, Pattern.IsSelfMatching text)
    (last : texts.getLast? ≠ some ['*', '*']) (loose : ¬ IsStuck rest) (deep : texts.length ≤ depth) :
    final ∈ search tree false depth rest directory ∧
      (¬ IsStuck (star :: rest) →
        final ∈ search tree false depth (star :: rest.dropWhile Pattern.isRecursive) directory) := by
  induction trail generalizing rest depth with
  | done => exact (given rfl).elim
  | @step directory final text texts here inside listed present further ih =>
    obtain ⟨segment, rest, first, others, rfl⟩ := List.forall₂_cons_left_iff.mp read
    obtain ⟨depth, rfl⟩ : ∃ fewer, depth = fewer + 1 := ⟨depth - 1, by simp at deep; omega⟩
    obtain ⟨whole, wholes⟩ := List.forall_mem_cons.mp whole
    obtain ⟨self, selves⟩ := List.forall_mem_cons.mp selves
    have inside' : tree.isDirectory directory = true := by rw [FileTree.isDirectory, inside]
    have named (shown : ¬ IsHidden text) : String.ofList text ∈ namesIn tree directory := by
      rw [namesIn, inside]
      exact listed shown
    have fits : segment.isMatch (String.ofList text).toList = true := by
      rw [String.toList_ofList]
      exact self segment first
    have later (more : texts ≠ []) := ih others more wholes selves
      (by rwa [List.getLast?_cons_of_ne_nil more] at last) (fun stuck => loose (.later stuck))
      (by simpa using deep)
    have found : final ∈ onward tree false depth rest (child directory (String.ofList text)) := by
      cases further with
      | done =>
        cases others
        simp [onward, accept]
      | step =>
        rw [onward_of_ne_nil (by rintro rfl; cases others)]
        exact (later (by simp)).1
    by_cases recursive : segment.isRecursive = true
    · -- two asterisks are also the name of a directory, which is passed
      obtain rfl := (Pattern.isRecursive_iff first whole).mp recursive
      cases first.symm.trans Pattern.ofText_two_asterisks
      have more : texts ≠ [] := by
        rintro rfl
        exact last rfl
      have shown : ¬ IsHidden ['*', '*'] := by simp [IsHidden]
      have passed := (later more).2 loose
      have found : ∀ {rest'}, rest'.dropWhile Pattern.isRecursive = rest.dropWhile Pattern.isRecursive →
          final ∈ search tree false (depth + 1) (star :: rest') directory := by
        intro rest' same
        exact mem_search_star_iff.mpr ⟨inside', _, named shown, .inr (.inr (same ▸ passed))⟩
      refine ⟨found rfl, fun _ => ?_⟩
      rw [List.dropWhile_cons_of_pos recursive]
      exact found (List.dropWhile_idempotent _ _)
    · have single := Bool.eq_false_iff.mpr recursive
      constructor
      · rw [mem_search_iff single]
        refine ⟨_, ?_, found⟩
        cases plain : segment.literal? with
        | some other =>
          obtain rfl := (Pattern.spelling_of_ofText first).eq_of_literal? plain
          exact .literal plain (hasLiteral_of_present inside present)
        | none =>
          have shown : ¬ IsHidden text := by
            intro hidden
            cases plain.symm.trans (Pattern.literal?_of_ofText first hidden)
          exact .listed plain inside' (named shown) fits
      · intro unstuck
        have settled := List.dropWhile_cons_of_neg (l := rest) recursive
        have shown : ¬ IsHidden text := fun hidden =>
          unstuck (.here settled (Pattern.literal?_of_ofText first hidden) hidden)
        rw [settled]
        exact mem_search_star_iff.mpr
          ⟨inside', _, named shown, .inr (.inl ⟨segment, rest, settled, fits, found⟩)⟩

end PathPattern
end Glob
end TypedJson
