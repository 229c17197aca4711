import TypedJson.FileTree.Access
import TypedJson.Proofs.StringLiteral

/-! # Ways through a file tree

A path leads to an entry exactly if there is a way along its segments, on which each segment is idle, goes up, enters
an entry or follows a link. Ways are put together from ways, so the beginning of a path that leads somewhere leads to
a directory, and the name that comes next is listed there.
-/

namespace TypedJson.FileTree

/-- A way from a directory along segments, with the numbers of links that may be followed before and after it. -/
inductive Way (tree : FileTree) : ℕ → FileName → List (List Char) → ℕ → FileName → Prop
  | stay {links : ℕ} {here : FileName} : Way tree links here [] links here
  | idle {links links' : ℕ} {here there : FileName} {segment : List Char} {rest : List (List Char)}
      (directory : tree.lookup? here = some .directory) (idle : Path.isIdle segment = true)
      (onward : Way tree links here rest links' there) : Way tree links here (segment :: rest) links' there
  | up {links links' : ℕ} {here there : FileName} {rest : List (List Char)}
      (directory : tree.lookup? here = some .directory)
      (onward : Way tree links here.dropLast rest links' there) :
      Way tree links here (['.', '.'] :: rest) links' there
  | enter {links links' : ℕ} {here there : FileName} {segment : List Char} {rest : List (List Char)} {entry : Entry}
      (directory : tree.lookup? here = some .directory) (counts : Path.isIdle segment = false)
      (name : segment ≠ ['.', '.']) (short : Text.byteLength segment ≤ maxNameBytes)
      (found : tree.lookup? (here ++ [String.ofList segment]) = some entry) (real : ∀ target, entry ≠ .link target)
      (onward : Way tree links (here ++ [String.ofList segment]) rest links' there) :
      Way tree links here (segment :: rest) links' there
  | follow {links links' : ℕ} {here there : FileName} {segment : List Char} {rest : List (List Char)} {target : Path}
      (directory : tree.lookup? here = some .directory) (counts : Path.isIdle segment = false)
      (name : segment ≠ ['.', '.']) (short : Text.byteLength segment ≤ maxNameBytes)
      (found : tree.lookup? (here ++ [String.ofList segment]) = some (.link target))
      (onward : Way tree links (if target.isAbsolute then [] else here) (target.segments ++ rest) links' there) :
      Way tree (links + 1) here (segment :: rest) links' there

variable {tree : FileTree} {links links' links'' : ℕ} {here there beyond : FileName} {segment : List Char}
  {segments more : List (List Char)} {entry : Entry} {path : Path}

theorem Way.append (way : Way tree links here segments links' there)
    (further : Way tree links' there more links'' beyond) :
    Way tree links here (segments ++ more) links'' beyond := by
  induction way with
  | stay => exact further
  | idle directory idle _ ih => exact .idle directory idle (ih further)
  | up directory _ ih => exact .up directory (ih further)
  | enter directory counts name short found real _ ih =>
    exact .enter directory counts name short found real (ih further)
  | follow directory counts name short found _ ih =>
    have onward := ih further
    rw [List.append_assoc] at onward
    exact .follow directory counts name short found onward

/-- A way along segments goes along the first ones, and from there along the others. -/
theorem Way.split (way : Way tree links here (segments ++ more) links'' beyond) :
    ∃ links' there, Way tree links here segments links' there ∧ Way tree links' there more links'' beyond := by
  -- a link puts the segments of its target in front, and then fewer links may be followed
  induction links using Nat.strong_induction_on generalizing here segments with
  | _ links fewer =>
    induction segments generalizing here with
    | nil => exact ⟨links, here, .stay, way⟩
    | cons segment rest ih =>
      rw [List.cons_append] at way
      cases way with
      | idle directory idle onward =>
        obtain ⟨links', there, front, back⟩ := ih onward
        exact ⟨links', there, .idle directory idle front, back⟩
      | up directory onward =>
        obtain ⟨links', there, front, back⟩ := ih onward
        exact ⟨links', there, .up directory front, back⟩
      | enter directory counts name short found real onward =>
        obtain ⟨links', there, front, back⟩ := ih onward
        exact ⟨links', there, .enter directory counts name short found real front, back⟩
      | follow directory counts name short found onward =>
        rw [← List.append_assoc] at onward
        obtain ⟨links', there, front, back⟩ := fewer _ (Nat.lt_succ_self _) onward
        exact ⟨links', there, .follow directory counts name short found front, back⟩

/-- A way goes on from a directory only. -/
theorem Way.directory (way : Way tree links here (segment :: segments) links' there) :
    tree.lookup? here = some .directory := by
  cases way <;> assumption

/-- A way to an entry starts at an entry. -/
theorem Way.exists_entry (way : Way tree links here segments links' there) (found : tree.lookup? there = some entry) :
    ∃ start, tree.lookup? here = some start := by
  cases segments with
  | nil =>
    cases way
    exact ⟨entry, found⟩
  | cons => exact ⟨.directory, way.directory⟩

/-- The name that a way takes next is listed in the directory. -/
theorem Way.mem_children (way : Way tree links here (segment :: segments) links' there)
    (counts : Path.isIdle segment = false) (name : segment ≠ ['.', '.']) :
    String.ofList segment ∈ tree.children here := by
  have found : ∃ entry, tree.lookup? (here ++ [String.ofList segment]) = some entry := by
    cases way with
    | idle _ idle _ => cases idle.symm.trans counts
    | up => exact (name rfl).elim
    | enter _ _ _ _ found => exact ⟨_, found⟩
    | follow _ _ _ _ found => exact ⟨_, found⟩
  obtain ⟨entry, found⟩ := found
  rw [lookup?, if_neg (by simp), Option.map_eq_some_iff] at found
  obtain ⟨⟨full, _⟩, found, -⟩ := found
  have same : full = here ++ [String.ofList segment] := by simpa using List.find?_some found
  rw [children, List.mem_mergeSort, List.mem_filterMap]
  exact ⟨_, List.mem_of_find?_eq_some found, by simp [same]⟩

/-- How one step of a walk to an entry goes on. -/
theorem steps_cons_eq_ok_iff {follow : FileName → List (List Char) → Except SystemFault Place} :
    steps tree true follow here (segment :: segments) = .ok ⟨there, some entry⟩ ↔
      tree.lookup? here = some .directory ∧
      (Path.isIdle segment = true ∧ steps tree true follow here segments = .ok ⟨there, some entry⟩ ∨
        segment = ['.', '.'] ∧ steps tree true follow here.dropLast segments = .ok ⟨there, some entry⟩ ∨
        (Path.isIdle segment = false ∧ segment ≠ ['.', '.'] ∧ Text.byteLength segment ≤ maxNameBytes) ∧
          ((∃ found, tree.lookup? (here ++ [String.ofList segment]) = some found ∧ (∀ target, found ≠ .link target) ∧
              steps tree true follow (here ++ [String.ofList segment]) segments = .ok ⟨there, some entry⟩) ∨
            ∃ target, tree.lookup? (here ++ [String.ofList segment]) = some (.link target) ∧
              follow (if target.isAbsolute then [] else here) (target.segments ++ segments) =
                .ok ⟨there, some entry⟩)) := by
  rw [steps]
  cases tree.lookup? here with
  | none => simp
  | some start =>
    cases start with
    | file => simp
    | link => simp
    | directory =>
      by_cases idle : Path.isIdle segment = true
      · have other : segment ≠ ['.', '.'] := by
          rintro rfl
          cases idle
        simp [idle, other]
      by_cases up : segment = ['.', '.']
      · subst up
        simp [idle]
      by_cases long : maxNameBytes < Text.byteLength segment
      · simp [idle, up, long, Nat.not_le.mpr long]
      have short := Nat.not_lt.mp long
      cases next : tree.lookup? (here ++ [String.ofList segment]) with
      | none => by_cases last : segments = [] <;> simp [idle, up, long, next, last]
      | some found => cases found <;> simp [idle, up, long, short, next]

theorem steps_nil_eq_ok_iff {follow : FileName → List (List Char) → Except SystemFault Place} :
    steps tree true follow here [] = .ok ⟨there, some entry⟩ ↔ here = there ∧ tree.lookup? here = some entry := by
  simp [steps]

/-- Steps to an entry are a way if what follows a link is one that may follow a link less. -/
theorem way_of_steps {follow : FileName → List (List Char) → Except SystemFault Place}
    (followed : ∀ here segments, follow here segments = .ok ⟨there, some entry⟩ →
      ∃ fewer links', links = fewer + 1 ∧ Way tree fewer here segments links' there ∧ tree.lookup? there = some entry)
    (walks : steps tree true follow here segments = .ok ⟨there, some entry⟩) :
    (∃ links', Way tree links here segments links' there) ∧ tree.lookup? there = some entry := by
  induction segments generalizing here with
  | nil =>
    obtain ⟨rfl, found⟩ := steps_nil_eq_ok_iff.mp walks
    exact ⟨⟨links, .stay⟩, found⟩
  | cons segment rest ih =>
    obtain ⟨directory, ⟨idle, onward⟩ | ⟨rfl, onward⟩ | ⟨⟨counts, name, short⟩, ⟨entry', found', real, onward⟩ |
      ⟨target, found', onward⟩⟩⟩ := steps_cons_eq_ok_iff.mp walks
    · obtain ⟨⟨links', way⟩, found⟩ := ih onward
      exact ⟨⟨links', .idle directory idle way⟩, found⟩
    · obtain ⟨⟨links', way⟩, found⟩ := ih onward
      exact ⟨⟨links', .up directory way⟩, found⟩
    · obtain ⟨⟨links', way⟩, found⟩ := ih onward
      exact ⟨⟨links', .enter directory counts name short found' real way⟩, found⟩
    · obtain ⟨fewer, links', rfl, way, found⟩ := followed _ _ onward
      exact ⟨⟨links', .follow directory counts name short found' way⟩, found⟩

/-- Walking to an entry takes a way. -/
theorem way_of_walk (walks : tree.walk true links here segments = .ok ⟨there, some entry⟩) :
    (∃ links', Way tree links here segments links' there) ∧ tree.lookup? there = some entry := by
  induction links generalizing here segments with
  | zero =>
    apply way_of_steps _ walks
    intro here segments refused
    cases refused
  | succ links ih =>
    apply way_of_steps _ walks
    intro here segments walks
    obtain ⟨⟨links', way⟩, found⟩ := ih walks
    exact ⟨links, links', rfl, way, found⟩

/-- A way to an entry is walked. -/
theorem Way.walk (way : Way tree links here segments links' there) (found : tree.lookup? there = some entry) :
    tree.walk true links here segments = .ok ⟨there, some entry⟩ := by
  induction way with
  | @stay links here => cases links <;> exact steps_nil_eq_ok_iff.mpr ⟨rfl, found⟩
  | @idle links _ here _ _ _ directory idle _ ih =>
    cases links <;> exact steps_cons_eq_ok_iff.mpr ⟨directory, .inl ⟨idle, ih found⟩⟩
  | @up links _ here _ _ directory _ ih =>
    cases links <;> exact steps_cons_eq_ok_iff.mpr ⟨directory, .inr (.inl ⟨rfl, ih found⟩)⟩
  | @enter links _ here _ _ _ _ directory counts name short found' real _ ih =>
    cases links <;> exact steps_cons_eq_ok_iff.mpr
      ⟨directory, .inr (.inr ⟨⟨counts, name, short⟩, .inl ⟨_, found', real, ih found⟩⟩)⟩
  | follow directory counts name short found' _ ih =>
    exact steps_cons_eq_ok_iff.mpr
      ⟨directory, .inr (.inr ⟨⟨counts, name, short⟩, .inr ⟨_, found', ih found⟩⟩)⟩

/-- A segment that does not count leads nowhere else. -/
theorem Way.eq_of_isIdle (way : Way tree links here [segment] links' there) (idle : Path.isIdle segment = true) :
    links = links' ∧ here = there := by
  cases way with
  | idle _ _ onward =>
    cases onward
    exact ⟨rfl, rfl⟩
  | up => cases idle
  | enter _ counts => cases idle.symm.trans counts
  | follow _ counts => cases idle.symm.trans counts

/-- A path can be taken to a name, and so many links may be followed from there. -/
structure Reaches (tree : FileTree) (path : Path) (links : ℕ) (there : FileName) : Prop where
  given : path.text.toList ≠ []
  clean : '\x00' ∉ path.text.toList
  way : Way tree maxLinks (if path.isAbsolute then [] else tree.workingDirectory) path.segments links there

/-- A path leads to an entry if it is not too long and can be taken to the name of the entry. -/
theorem entryAt_eq_ok_iff : tree.entryAt true path = .ok (there, entry) ↔
    (∃ links, Reaches tree path links there) ∧ Text.byteLength path.text.toList < pathLimit ∧
      tree.lookup? there = some entry := by
  have walked : tree.entryAt true path = .ok (there, entry) ↔ tree.place true path = .ok ⟨there, some entry⟩ := by
    rw [entryAt, bind_eq_ok_iff]
    constructor
    · rintro ⟨⟨name, found⟩, placed, same⟩
      cases found with
      | none => cases same
      | some found =>
        cases same
        exact placed
    · exact fun placed => ⟨_, placed, rfl⟩
  rw [walked, place]
  by_cases clean : '\x00' ∈ path.text.toList
  · rw [if_pos (List.contains_iff_mem.mpr clean)]
    exact ⟨nofun, fun ⟨⟨_, reaches⟩, _⟩ => (reaches.clean clean).elim⟩
  rw [if_neg (mt List.contains_iff_mem.mp clean)]
  by_cases given : path.text.toList = []
  · rw [if_pos given]
    exact ⟨nofun, fun ⟨⟨_, reaches⟩, _⟩ => (reaches.given given).elim⟩
  rw [if_neg given]
  by_cases long : pathLimit ≤ Text.byteLength path.text.toList
  · rw [if_pos long]
    exact ⟨nofun, fun ⟨_, short, _⟩ => (Nat.not_lt.mpr long short).elim⟩
  rw [if_neg long]
  constructor
  · intro walks
    obtain ⟨⟨links, way⟩, found⟩ := way_of_walk walks
    exact ⟨⟨links, given, clean, way⟩, Nat.not_le.mp long, found⟩
  · rintro ⟨⟨links, reaches⟩, -, found⟩
    exact reaches.way.walk found

theorem Reaches.hasEntry (reaches : Reaches tree path links there)
    (short : Text.byteLength path.text.toList < pathLimit) (found : tree.lookup? there = some entry) :
    tree.hasEntry path = true := by
  rw [FileTree.hasEntry, entryAt_eq_ok_iff.mpr ⟨⟨links, reaches⟩, short, found⟩]
  rfl

end TypedJson.FileTree
