import TypedJson.Proofs.FileTree.Way
import TypedJson.Proofs.Glob.Search

/-! # The trail of a path

Each step that the system takes along a path is one that a search takes along the names in it. So if a path leads to
an entry, its segments trail from the start of a search to a path of this entry, which has the same components but for
those that name the current directory.
-/

namespace TypedJson

namespace Text

theorem byteLength_intercalate_cons {first second : List Char} {others : List (List Char)} :
    byteLength (['/'].intercalate (first :: second :: others)) =
      byteLength first + 1 + byteLength (['/'].intercalate (second :: others)) := by
  rw [List.intercalate_cons_cons, byteLength_append, byteLength_append]
  rfl

end Text

namespace Path

variable {path directory : Path} {text : List Char}

/-- The components of a path but for the current directory, which leads nowhere. -/
def route (path : Path) : List Component := path.components.filter (· ≠ .current)

theorem ne_current_of_mem_filterMap {segments : List (List Char)} :
    ∀ component ∈ segments.filterMap componentOf?, component ≠ .current := by
  rintro component member rfl
  obtain ⟨segment, -, counted⟩ := List.mem_filterMap.mp member
  unfold componentOf? at counted
  split at counted
  · cases counted
  · split at counted <;> cases counted

theorem text_componentOf? {segment : List Char} {component : Component}
    (counted : componentOf? segment = some component) : component.text = String.ofList segment := by
  unfold componentOf? at counted
  split at counted
  · cases counted
  split at counted
  next parent =>
    cases counted
    rw [parent]
    rfl
  next =>
    cases counted
    rfl

theorem filter_filterMap (segments : List (List Char)) :
    (segments.filterMap componentOf?).filter (· ≠ .current) = segments.filterMap componentOf? :=
  List.filter_eq_self.mpr fun component member => by simpa using ne_current_of_mem_filterMap component member

theorem segments_ofList (whole : '/' ∉ text) : (⟨String.ofList text⟩ : Path).segments = [text] := by
  rw [Path.segments, String.toList_ofList]
  exact List.splitOn_eq_singleton whole

theorem isAbsolute_ofList (whole : '/' ∉ text) : (⟨String.ofList text⟩ : Path).isAbsolute = false :=
  isAbsolute_of_not_mem (by rwa [String.toList_ofList])

/-- A relative path has the route of its segments. -/
theorem route_of_relative (relative : path.isAbsolute = false) : path.route = path.segments.filterMap componentOf? := by
  rw [route, components, List.filter_append, filter_filterMap]
  unfold anchor?
  rw [if_neg (by simp [relative])]
  split <;> rfl

theorem route_of_absolute {rest : List Char} (written : path.text.toList = '/' :: rest) :
    path.route = .root :: (rest.splitOn '/').filterMap componentOf? := by
  rw [route, components_root written, List.filter_cons_of_pos (by simp), filter_filterMap]

/-- The texts of a directory and of an entry with what stands between them. -/
theorem join_cases (given : directory.text.toList ≠ []) (whole : '/' ∉ text) :
    ∃ between, (directory.join ⟨String.ofList text⟩).text.toList = directory.text.toList ++ between ++ text ∧
      (between = [] ∧ (∃ front, directory.segments = front ++ [[]] ∧
          (directory.join ⟨String.ofList text⟩).segments = front ++ [text]) ∨
        between = ['/'] ∧ (directory.join ⟨String.ofList text⟩).segments = directory.segments ++ [text]) := by
  rw [join, if_neg (by simp [isAbsolute_ofList whole])]
  by_cases separated : directory.text.toList.getLast? = some '/'
  · obtain ⟨front, before⟩ := List.getLast?_eq_some_iff.mp separated
    rw [if_pos (.inr separated)]
    have written : (directory.text ++ String.ofList text).toList = front ++ '/' :: text := by
      simp [before]
    refine ⟨[], by simp, .inl ⟨rfl, front.splitOn '/', segments_append before, ?_⟩⟩
    rw [segments_append written, List.splitOn_eq_singleton whole]
  · rw [if_neg (not_or.mpr ⟨given, separated⟩)]
    refine ⟨['/'], by simp, .inr ⟨rfl, ?_⟩⟩
    have written : (directory.text ++ "/" ++ String.ofList text).toList = directory.text.toList ++ '/' :: text := by
      simp
    rw [segments_append written, List.splitOn_eq_singleton whole]
    rfl

theorem components_join_ofList (given : directory.text.toList ≠ []) (whole : '/' ∉ text) :
    (directory.join ⟨String.ofList text⟩).components = directory.components ++ [text].filterMap componentOf? := by
  rw [components_join, if_neg (by simp [isAbsolute_ofList whole, components_eq_nil_iff, given]), segments_ofList whole]

theorem route_join_ofList (given : directory.text.toList ≠ []) (whole : '/' ∉ text) :
    (directory.join ⟨String.ofList text⟩).route = directory.route ++ [text].filterMap componentOf? := by
  rw [route, components_join_ofList given whole, List.filter_append, filter_filterMap]
  rfl

end Path

namespace Glob.PathPattern

open FileTree (Way Reaches maxLinks)

variable {tree : FileTree} {directory : Path} {text : List Char} {links links' : ℕ} {here there : FileName}

/-- The current directory is no component of a path of a search, unless it is the path as a whole. -/
def IsWritten (path : Path) : Prop := path = ⟨"."⟩ ∨ path.components = path.route

theorem IsWritten.eq_current (written : IsWritten directory) (current : directory.same ⟨"."⟩ = true) :
    directory = ⟨"."⟩ := by
  refine written.resolve_right fun same => ?_
  rw [Path.route, Path.same_iff.mp current] at same
  cases same

theorem IsWritten.components_eq (written : IsWritten directory) (other : ¬ directory.same ⟨"."⟩ = true) :
    directory.components = directory.route := by
  apply written.resolve_left
  rintro rfl
  exact other rfl

theorem byteLength_child_le (given : directory.text.toList ≠ []) (whole : '/' ∉ text) :
    Text.byteLength (child directory (String.ofList text)).text.toList ≤
      Text.byteLength directory.text.toList + 1 + Text.byteLength text := by
  unfold child
  split
  · rw [String.toList_ofList]
    omega
  · obtain ⟨between, written, between_eq⟩ := Path.join_cases given whole
    rw [written, Text.byteLength_append, Text.byteLength_append]
    have short : Text.byteLength between ≤ 1 := by
      rcases between_eq with ⟨rfl, -⟩ | ⟨rfl, -⟩ <;> decide
    omega

theorem route_child (given : directory.text.toList ≠ []) (whole : '/' ∉ text) :
    (child directory (String.ofList text)).route = directory.route ++ [text].filterMap Path.componentOf? := by
  unfold child
  split
  next current =>
    have start : directory.route = [] := by
      rw [Path.route, Path.same_iff.mp current]
      rfl
    rw [Path.route_of_relative (Path.isAbsolute_ofList whole), Path.segments_ofList whole, start, List.nil_append]
  next => exact Path.route_join_ofList given whole

theorem isWritten_child (written : IsWritten directory) (given : directory.text.toList ≠ []) (whole : '/' ∉ text) :
    IsWritten (child directory (String.ofList text)) := by
  unfold child
  split
  next =>
    by_cases same : text = ['.']
    · subst same
      exact .inl rfl
    · right
      rw [Path.route_of_relative (Path.isAbsolute_ofList whole), Path.components, Path.anchor?,
        if_neg (by simp [Path.isAbsolute_ofList whole]), Path.segments_ofList whole, if_neg (by simpa using same)]
      rfl
  next other =>
    right
    rw [Path.route_join_ofList given whole, Path.components_join_ofList given whole, written.components_eq other]

/-- The current directory is reached only from itself. -/
theorem eq_of_child_eq (written : IsWritten directory) (given : directory.text.toList ≠ []) (whole : '/' ∉ text)
    (current : child directory (String.ofList text) = ⟨"."⟩) : directory = ⟨"."⟩ ∧ text = ['.'] := by
  unfold child at current
  split at current
  next start =>
    have same := congrArg (·.text.toList) current
    exact ⟨written.eq_current start, by simpa using same⟩
  next other =>
    have nowhere : (⟨"."⟩ : Path).route = [] := rfl
    have route := Path.route_join_ofList given whole
    rw [current, nowhere, ← written.components_eq other] at route
    have empty := (List.append_eq_nil_iff.mp route.symm).1
    exact (given (Path.components_eq_nil_iff.mp empty)).elim

/-- A path of a search that leads to a file does not name the current directory. -/
theorem components_eq_route {name : FileName} {content : List UInt8} (written : IsWritten directory)
    (file : tree.entryAt true directory = .ok (name, .file content)) : directory.components = directory.route := by
  refine written.resolve_left ?_
  rintro rfl
  obtain ⟨⟨links, reaches⟩, -, found⟩ := FileTree.entryAt_eq_ok_iff.mp file
  have inside := reaches.way.directory
  rw [(reaches.way.eq_of_isIdle rfl).2, found] at inside
  cases inside

theorem byteLength_intercalate_child_le (given : directory.text.toList ≠ []) (whole : '/' ∉ text)
    (rest : List (List Char)) :
    Text.byteLength (['/'].intercalate ((child directory (String.ofList text)).text.toList :: rest)) ≤
      Text.byteLength (['/'].intercalate (directory.text.toList :: text :: rest)) := by
  have le := byteLength_child_le given whole
  rw [Text.byteLength_intercalate_cons]
  cases rest with
  | nil => simpa only [List.intercalate_singleton] using le
  | cons next rest =>
    rw [Text.byteLength_intercalate_cons, Text.byteLength_intercalate_cons]
    omega

/-- Along a segment the search takes the step that the system takes. -/
theorem reaches_child (reaches : Reaches tree directory links here) (written : IsWritten directory)
    (whole : '/' ∉ text) (clean : '\x00' ∉ text) (given : directory = ⟨"."⟩ → text ≠ [])
    (way : Way tree links here [text] links' there) :
    Reaches tree (child directory (String.ofList text)) links' there := by
  unfold child
  split
  next current =>
    obtain rfl := written.eq_current current
    obtain ⟨same, same'⟩ := reaches.way.eq_of_isIdle rfl
    refine ⟨by simpa using given rfl, by simpa using clean, ?_⟩
    rw [Path.isAbsolute_ofList whole, Path.segments_ofList whole, same]
    exact same' ▸ way
  next =>
    obtain ⟨between, joined, ends⟩ := Path.join_cases reaches.given whole
    have absolute : (directory.join ⟨String.ofList text⟩).isAbsolute = directory.isAbsolute := by
      simp [Path.isAbsolute, joined, List.head?_append_of_ne_nil _ reaches.given]
    refine ⟨by simp [joined, reaches.given], ?_, ?_⟩
    · have apart : '\x00' ∉ between := by rcases ends with ⟨rfl, -⟩ | ⟨rfl, -⟩ <;> decide
      simp [joined, reaches.clean, apart, clean]
    · rw [absolute]
      rcases ends with ⟨-, front, parts, parts'⟩ | ⟨-, parts⟩
      · obtain ⟨links₁, here₁, before, after⟩ := (parts ▸ reaches.way).split
        obtain ⟨rfl, rfl⟩ := after.eq_of_isIdle rfl
        rw [parts']
        exact before.append way
      · rw [parts]
        exact reaches.way.append way

/-- The segments of a way trail from the directory in which the way starts, if the paths to which they lead are short
enough and the current directory is not followed by an empty name. -/
theorem exists_trail {texts : List (List Char)} {entry : Entry} (reaches : Reaches tree directory links here)
    (written : IsWritten directory) (whole : ∀ text ∈ texts, '/' ∉ text) (clean : ∀ text ∈ texts, '\x00' ∉ text)
    (way : Way tree links here texts links' there) (found : tree.lookup? there = some entry)
    (short : Text.byteLength directory.text.toList < FileTree.pathLimit)
    (room : ∀ text rest, texts = text :: rest → Text.byteLength (['/'].intercalate
      ((child directory (String.ofList text)).text.toList :: rest)) < FileTree.pathLimit)
    (given : directory = ⟨"."⟩ → (texts.dropWhile (· = ['.'])).head? ≠ some []) :
    ∃ final, Trail tree directory texts final ∧ IsWritten final ∧
      final.route = directory.route ++ texts.filterMap Path.componentOf? ∧
      tree.entryAt true final = .ok (there, entry) := by
  induction texts generalizing directory links here with
  | nil =>
    cases way
    exact ⟨directory, .done, written, by simp, FileTree.entryAt_eq_ok_iff.mpr ⟨⟨_, reaches⟩, short, found⟩⟩
  | cons text texts ih =>
    obtain ⟨whole, wholes⟩ := List.forall_mem_cons.mp whole
    obtain ⟨clean, cleans⟩ := List.forall_mem_cons.mp clean
    obtain ⟨links₁, here₁, step, further⟩ := (show Way tree links here ([text] ++ texts) links' there from way).split
    have named : directory = ⟨"."⟩ → text ≠ [] := by
      rintro current rfl
      exact given current rfl
    have reaches₁ := reaches_child reaches written whole clean named step
    have written₁ := isWritten_child written reaches.given whole
    have room₁ := room text texts rfl
    have short₁ : Text.byteLength (child directory (String.ofList text)).text.toList < FileTree.pathLimit := by
      refine lt_of_le_of_lt ?_ room₁
      cases texts with
      | nil => rw [List.intercalate_singleton]
      | cons =>
        rw [Text.byteLength_intercalate_cons]
        omega
    have given₁ : child directory (String.ofList text) = ⟨"."⟩ → (texts.dropWhile (· = ['.'])).head? ≠ some [] := by
      intro current
      obtain ⟨start, rfl⟩ := eq_of_child_eq written reaches.given whole current
      simpa using given start
    obtain ⟨final, trail, written', route, leads⟩ := ih reaches₁ written₁ wholes cleans further short₁
      (by
        rintro next rest rfl
        have le := byteLength_intercalate_child_le reaches₁.given (List.forall_mem_cons.mp wholes).1 rest
        exact lt_of_le_of_lt le room₁)
      given₁
    obtain ⟨entry₁, entered⟩ := further.exists_entry found
    have present := reaches₁.hasEntry short₁ entered
    have inside : tree.entryAt true directory = .ok (here, .directory) :=
      FileTree.entryAt_eq_ok_iff.mpr ⟨⟨_, reaches⟩, short, step.directory⟩
    refine ⟨final, .step inside (fun shown => ?_) present trail, written', ?_, leads⟩
    · simp only [IsHidden, not_or] at shown
      exact step.mem_children (by simp [Path.isIdle, shown]) shown.2.2
    · rw [route, route_child reaches.given whole, List.append_assoc, ← List.filterMap_append, List.singleton_append]

end Glob.PathPattern
end TypedJson
