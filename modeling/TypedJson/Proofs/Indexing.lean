import TypedJson.Session
import Mathlib.Order.Bounds.Basic
import Mathlib.Order.Nat

/-! # Waiting for a path to be indexed

`Indexing.Ends` carries the indexing of one path through to its end, with replies of the language service that may
be any. A path that is not known and can be opened is asked about after each nap, until the answer is yes or the
time is up, and then the view is closed and the path is known: `Indexing.ends_poll`. So there are as many naps as it
takes, and never more than fit into the time. Over several paths, what is known stays known and is left alone.
-/

namespace TypedJson.Indexing

open Session (IndexingRun questions)

/-- What a language service replies while a path is indexed: whether it is open in a view, whether a view can be
opened, and each time it is asked, whether the path is indexed. -/
structure Replies where
  isOpen : Bool
  opens : Bool
  isIndexed : ℕ → Bool

namespace Replies

/-- What is seen after a number of questions whether the path is indexed. -/
def surroundings (replies : Replies) (asked : ℕ) : Surroundings where
  isOpen _ := replies.isOpen
  isIndexed _ more := replies.isIndexed (asked + more)
  aliasing _ _ := false

/-- The outcome of a call. Only opening a view can fail. -/
def succeeds (replies : Replies) : Indexing → Bool
  | opening => replies.opens
  | sleeping _ | closing => true

/-- The replies that a script lays down. -/
def ofScript (script : Session.Script) : Replies where
  isOpen := script.isOpen
  opens := script.openSucceeds
  isIndexed asked := script.indexedAfter.any (· ≤ asked)

end Replies

/-- The time that a call takes: a nap takes its length, and nothing else takes any. -/
def duration (wait : IndexWait) : Indexing → ℕ
  | sleeping _ => wait.interval
  | opening | closing => 0

variable {replies : Replies} {wait : IndexWait} {indexed : IndexedSet} {path : Path} {asked calls k : ℕ}
  {stretch : Stretch} {run : IndexingRun}

/-- Indexing goes on from a stretch, before which a number of questions were asked, to its end. It waits for a
number of calls on the way. -/
inductive Ends (replies : Replies) (wait : IndexWait) (path : Path) : ℕ → Stretch → ℕ → IndexingRun → Prop
  | ended {asked : ℕ} {stretch : Stretch} (last : stretch.next = none) :
      Ends replies wait path asked stretch 0 ⟨stretch.indexed, stretch.events, 0⟩
  | resumed {asked calls : ℕ} {stretch : Stretch} {step : Indexing} {rest : IndexingRun}
      (next : stretch.next = some step)
      (further : Ends replies wait path (asked + questions stretch.events)
        (step.resume (replies.surroundings (asked + questions stretch.events)) wait stretch.indexed path
          (replies.succeeds step)) calls rest) :
      Ends replies wait path asked stretch (calls + 1)
        ⟨rest.indexed, stretch.events ++ rest.events, step.duration wait + rest.waited⟩

/-- A path is indexed, with all that happens until that is over. -/
def Replies.Indexes (replies : Replies) (wait : IndexWait) (indexed : IndexedSet) (path : Path)
    (run : IndexingRun) : Prop :=
  ∃ calls, Ends replies wait path 0 (start (replies.surroundings 0) indexed path) calls run

/-- The replies settle how indexing goes. -/
theorem Ends.unique {other : IndexingRun} {calls' : ℕ} (ends : Ends replies wait path asked stretch calls run)
    (ends' : Ends replies wait path asked stretch calls' other) : run = other := by
  induction ends generalizing other calls' with
  | ended last =>
    cases ends' with
    | ended => rfl
    | resumed next => simp [last] at next
  | resumed next _ ih =>
    cases ends' with
    | ended last => simp [last] at next
    | resumed next' further =>
      cases Option.some.inj (next.symm.trans next')
      rw [ih further]

/-- What is asked and done before a nap, for a number of naps. -/
def naps (wait : IndexWait) (path : Path) (count : ℕ) : List Event :=
  (List.replicate count [.askedIndexed path, .called (.sleep wait.interval)]).flatten

/-- What is asked and done after a number of naps. Without time left there is no question but the last one. -/
def farewell (wait : IndexWait) (path : Path) (count : ℕ) : List Event :=
  (if count * wait.interval < wait.timeout then [.askedIndexed path] else []) ++
    [.askedIndexed path, .called (.closeView path)]

/-- The waiting is over after a number of naps: the time is up, or the answer is yes. -/
def Over (replies : Replies) (wait : IndexWait) (count : ℕ) : Prop :=
  wait.timeout ≤ count * wait.interval ∨ replies.isIndexed count = true

theorem not_over_iff {count : ℕ} : ¬ Over replies wait count ↔
    count * wait.interval < wait.timeout ∧ replies.isIndexed count = false := by
  simp [Over]

theorem poll_of_not_over (going : ¬ Over replies wait asked) (indexed : IndexedSet) (path : Path) :
    poll (replies.surroundings asked) wait indexed path (asked * wait.interval) =
      ⟨indexed, [.askedIndexed path, .called (.sleep wait.interval)], some (sleeping (asked * wait.interval))⟩ := by
  obtain ⟨early, no⟩ := not_over_iff.mp going
  rw [poll, if_pos early, if_neg (by simp [Replies.surroundings, no])]

theorem poll_of_over (finished : Over replies wait asked) (indexed : IndexedSet) (path : Path) :
    poll (replies.surroundings asked) wait indexed path (asked * wait.interval) =
      ⟨indexed, farewell wait path asked, some closing⟩ := by
  rw [poll, farewell]
  split
  case isTrue early =>
    have yes : replies.isIndexed asked = true := finished.resolve_left (by omega)
    rw [if_pos (by simpa [Replies.surroundings] using yes), giveUp]
  case isFalse => rw [giveUp]

/-- Indexing goes on after the call that a stretch ends with. -/
theorem Ends.await (events : List Event) (step : Indexing) (rest : IndexingRun)
    (further : Ends replies wait path (asked + questions events)
      (step.resume (replies.surroundings (asked + questions events)) wait indexed path (replies.succeeds step))
      calls rest) :
    Ends replies wait path asked ⟨indexed, events, some step⟩ (calls + 1)
      ⟨rest.indexed, events ++ rest.events, step.duration wait + rest.waited⟩ :=
  .resumed rfl further

/-- After the view has been closed nothing happens but that the path is known. -/
theorem ends_closing (indexed : IndexedSet) (path : Path) (events : List Event) :
    Ends replies wait path asked ⟨indexed, events, some closing⟩ 1 ⟨indexed.insert path.components, events, 0⟩ := by
  have ends : Ends replies wait path asked ⟨indexed, events, some closing⟩ 1
      ⟨indexed.insert path.components, events ++ [], 0⟩ :=
    .await events closing ⟨indexed.insert path.components, [], 0⟩ (.ended rfl)
  rwa [List.append_nil] at ends

/-- From one question on there are as many naps as it takes until the waiting is over. Then the view is closed, and
the path is known. -/
theorem ends_poll (indexed : IndexedSet) (path : Path) (finished : Over replies wait k)
    (least : ∀ count < k, ¬ Over replies wait count) {left : ℕ} (split : k = asked + left) :
    Ends replies wait path asked (poll (replies.surroundings asked) wait indexed path (asked * wait.interval))
      (left + 1)
      ⟨indexed.insert path.components, naps wait path left ++ farewell wait path k, left * wait.interval⟩ := by
  induction left generalizing asked with
  | zero =>
    obtain rfl : k = asked := split
    rw [poll_of_over finished, Nat.zero_mul]
    exact ends_closing indexed path _
  | succ left ih =>
    rw [poll_of_not_over (least asked (by omega))]
    have further : Ends replies wait path (asked + 1) (poll (replies.surroundings (asked + 1)) wait indexed path
        ((asked + 1) * wait.interval)) (left + 1) _ := ih (by omega)
    rw [Nat.succ_mul] at further
    rw [Nat.succ_mul, Nat.add_comm (left * _)]
    exact Ends.await [.askedIndexed path, .called (.sleep wait.interval)] (.sleeping (asked * wait.interval)) _ further

/-! ## One path -/

theorem start_of_unknown {surroundings : Surroundings} (unknown : path.components ∉ indexed) :
    start surroundings indexed path = if surroundings.isOpen path then ⟨indexed, [.askedOpen path], none⟩
      else ⟨indexed, [.askedOpen path, .called (.openView path)], some opening⟩ := by
  rw [start, if_neg (by simpa using unknown)]

/-- A known path is left alone. -/
theorem ends_of_known (known : path.components ∈ indexed) :
    Ends replies wait path 0 (start (replies.surroundings 0) indexed path) 0 ⟨indexed, [], 0⟩ := by
  rw [start, if_pos (List.contains_iff_mem.mpr known)]
  exact .ended rfl

/-- So is a path that is open in a view, and it does not become known. -/
theorem ends_of_open (unknown : path.components ∉ indexed) (shown : replies.isOpen = true) :
    Ends replies wait path 0 (start (replies.surroundings 0) indexed path) 0 ⟨indexed, [.askedOpen path], 0⟩ := by
  rw [start_of_unknown unknown, if_pos (by exact shown)]
  exact .ended rfl

theorem ends_of_unopened (unknown : path.components ∉ indexed) (shut : replies.isOpen = false)
    (fails : replies.opens = false) :
    Ends replies wait path 0 (start (replies.surroundings 0) indexed path) 1
      ⟨indexed, [.askedOpen path, .called (.openView path)], 0⟩ := by
  rw [start_of_unknown unknown, if_neg (by simp [Replies.surroundings, shut])]
  refine .await _ opening ⟨indexed, [], 0⟩ ?_
  rw [Replies.succeeds, fails]
  exact .ended rfl

/-- A view that can be opened is closed after as many naps as it takes. -/
theorem ends_of_opened (unknown : path.components ∉ indexed) (shut : replies.isOpen = false)
    (opens : replies.opens = true) (least : IsLeast {count | Over replies wait count} k) :
    Ends replies wait path 0 (start (replies.surroundings 0) indexed path) (k + 2)
      ⟨indexed.insert path.components,
        [.askedOpen path, .called (.openView path)] ++ (naps wait path k ++ farewell wait path k),
        k * wait.interval⟩ := by
  have waits : Ends replies wait path 0
      (poll (replies.surroundings 0) wait indexed path (0 * wait.interval)) (k + 1) _ :=
    ends_poll indexed path least.1 (fun count early finished => Nat.not_lt.mpr (least.2 finished) early)
      (Nat.zero_add k).symm
  rw [start_of_unknown unknown, if_neg (by simp [Replies.surroundings, shut]), ← Nat.zero_add (k * _)]
  refine .await _ opening ⟨_, _, k * wait.interval⟩ ?_
  rw [Replies.succeeds, opens]
  rw [Nat.zero_mul] at waits
  exact waits

/-- If naps take time, the waiting is over once there is no time left, if not before. -/
theorem exists_least_over (replies : Replies) (positive : 0 < wait.interval) :
    ∃ k, IsLeast {count | Over replies wait count} k := by
  classical
  exact ⟨_, Nat.isLeast_find ⟨wait.timeout, .inl (Nat.le_mul_of_pos_right _ positive)⟩⟩

/-- The last nap begins while there is time left. -/
theorem nap_time_lt (positive : 0 < wait.interval) (least : IsLeast {count | Over replies wait count} k) :
    k * wait.interval < wait.timeout + wait.interval := by
  cases k with
  | zero => omega
  | succ count =>
    have going : ¬ Over replies wait count := fun finished => Nat.not_succ_le_self count (least.2 finished)
    have early := (not_over_iff.mp going).1
    rw [Nat.succ_mul]
    omega

/-- Indexing ends, whatever the replies are. -/
theorem exists_ends (replies : Replies) (positive : 0 < wait.interval) (indexed : IndexedSet) (path : Path) :
    ∃ calls ≤ wait.timeout + 2, ∃ run,
      Ends replies wait path 0 (start (replies.surroundings 0) indexed path) calls run := by
  by_cases known : path.components ∈ indexed
  · exact ⟨0, by omega, _, ends_of_known known⟩
  cases shown : replies.isOpen with
  | true => exact ⟨0, by omega, _, ends_of_open known shown⟩
  | false =>
    cases opens : replies.opens with
    | false => exact ⟨1, by omega, _, ends_of_unopened known shown opens⟩
    | true =>
      obtain ⟨k, least⟩ := exists_least_over replies positive
      have few : k ≤ wait.timeout := least.2 (.inl (Nat.le_mul_of_pos_right _ positive))
      exact ⟨k + 2, by omega, _, ends_of_opened known shown opens least⟩

theorem surroundings_ofScript (script : Session.Script) (asked : ℕ) :
    script.surroundings (fun _ _ => false) asked = (Replies.ofScript script).surroundings asked := by
  simp only [Session.Script.surroundings, Replies.surroundings, Replies.ofScript, Surroundings.mk.injEq, true_and,
    and_true]
  funext _ more
  cases script.indexedAfter <;> rfl

/-- A scripted session goes the same way, as far as its bound allows. -/
theorem Ends.runIndexing_eq {script : Session.Script}
    (ends : Ends (.ofScript script) wait path asked stretch calls run) {bound : ℕ} (enough : calls < bound)
    (log : List Event) (waited : ℕ) :
    Session.runIndexing script wait path bound stretch asked log waited =
      ⟨run.indexed, log.reverse ++ run.events, waited + run.waited⟩ := by
  induction ends generalizing bound log waited with
  | @ended asked stretch last =>
    obtain ⟨bound, rfl⟩ := Nat.exists_eq_add_one_of_ne_zero (Nat.ne_of_gt enough)
    rw [Session.runIndexing, last]
    simp
  | @resumed asked calls stretch step rest next further ih =>
    obtain ⟨bound, rfl⟩ := Nat.exists_eq_add_one_of_ne_zero (Nat.ne_of_gt (Nat.zero_lt_of_lt enough))
    have goes : Session.runIndexing script wait path (bound + 1) stretch asked log waited =
        Session.runIndexing script wait path bound
          (step.resume ((Replies.ofScript script).surroundings (asked + questions stretch.events)) wait
            stretch.indexed path ((Replies.ofScript script).succeeds step))
          (asked + questions stretch.events) (stretch.events.reverse ++ log) (waited + step.duration wait) := by
      rw [Session.runIndexing, next]
      simp only [surroundings_ofScript]
      cases step <;> rfl
    rw [goes, ih (by omega)]
    simp [Nat.add_assoc]

/-- The bound of a scripted session is large enough. -/
theorem ensureIndexed_indexes (script : Session.Script) (positive : 0 < wait.interval) (indexed : IndexedSet)
    (path : Path) :
    (Replies.ofScript script).Indexes wait indexed path (Session.ensureIndexed script wait indexed path) := by
  obtain ⟨calls, few, run, ends⟩ := exists_ends (.ofScript script) positive indexed path
  have goes : Session.ensureIndexed script wait indexed path = run := by
    rw [Session.ensureIndexed, surroundings_ofScript, ends.runIndexing_eq (by omega)]
    simp
  exact ⟨calls, goes ▸ ends⟩

/-! ## One path after the other -/

/-- The indexing of a path among others: the replies, what was known before, and how it went. -/
structure Visit where
  path : Path
  replies : Replies
  before : IndexedSet
  run : IndexingRun

/-- Paths are indexed one after the other, each with what is known after the one before. -/
inductive InTurn (wait : IndexWait) : IndexedSet → List Visit → Prop
  | nil (indexed : IndexedSet) : InTurn wait indexed []
  | cons {indexed : IndexedSet} {visit : Visit} {others : List Visit} (begins : visit.before = indexed)
      (indexes : visit.replies.Indexes wait visit.before visit.path visit.run)
      (rest : InTurn wait visit.run.indexed others) : InTurn wait indexed (visit :: others)

/-- What is known stays known. -/
theorem Ends.subset (ends : Ends replies wait path asked stretch calls run) : stretch.indexed ⊆ run.indexed := by
  induction ends with
  | ended => exact List.Subset.refl _
  | resumed _ _ ih =>
    refine List.Subset.trans ?_ ih
    rw [resume_indexed]
    split
    case isTrue => exact fun key listed => List.mem_insert_of_mem listed
    case isFalse => exact List.Subset.refl _

theorem Replies.Indexes.subset (indexes : replies.Indexes wait indexed path run) : indexed ⊆ run.indexed := by
  obtain ⟨calls, ends⟩ := indexes
  have grows := ends.subset
  rwa [start_indexed] at grows

/-- A path that is known is neither asked about nor opened. -/
theorem Replies.Indexes.of_known (known : path.components ∈ indexed)
    (indexes : replies.Indexes wait indexed path run) : run = ⟨indexed, [], 0⟩ := by
  obtain ⟨calls, ends⟩ := indexes
  exact ends.unique (ends_of_known known)

/-- A path that is open or cannot be opened does not become known. -/
theorem Replies.Indexes.of_aside (aside : replies.isOpen = true ∨ replies.opens = false)
    (indexes : replies.Indexes wait indexed path run) : run.indexed = indexed := by
  by_cases known : path.components ∈ indexed
  · rw [indexes.of_known known]
  obtain ⟨calls, ends⟩ := indexes
  cases shown : replies.isOpen with
  | true => rw [ends.unique (ends_of_open known shown)]
  | false =>
    have fails : replies.opens = false := aside.resolve_left (by simp [shown])
    rw [ends.unique (ends_of_unopened known shown fails)]

/-- What was known at the start is known at each later point. -/
theorem InTurn.subset {visits : List Visit} (inTurn : InTurn wait indexed visits) {visit : Visit}
    (listed : visit ∈ visits) : indexed ⊆ visit.before := by
  induction inTurn with
  | nil => cases listed
  | cons begins indexes rest ih =>
    subst begins
    rcases List.mem_cons.mp listed with rfl | later
    · exact List.Subset.refl _
    · exact List.Subset.trans indexes.subset (ih later)

theorem InTurn.indexes {visits : List Visit} (inTurn : InTurn wait indexed visits) {visit : Visit}
    (listed : visit ∈ visits) : visit.replies.Indexes wait visit.before visit.path visit.run := by
  induction inTurn with
  | nil => cases listed
  | cons _ indexes rest ih =>
    rcases List.mem_cons.mp listed with rfl | later
    · exact indexes
    · exact ih later

theorem InTurn.pairwise {visits : List Visit} (inTurn : InTurn wait indexed visits) :
    visits.Pairwise fun earlier later => earlier.run.indexed ⊆ later.before := by
  induction inTurn with
  | nil => exact .nil
  | cons _ _ rest ih => exact .cons (fun later listed => rest.subset listed) ih

/-- Any paths can be indexed one after the other. -/
theorem exists_inTurn (positive : 0 < wait.interval) (indexed : IndexedSet) (calls : List (Path × Replies)) :
    ∃ visits, InTurn wait indexed visits ∧ visits.map (fun visit => (visit.path, visit.replies)) = calls := by
  induction calls generalizing indexed with
  | nil => exact ⟨[], .nil indexed, rfl⟩
  | cons call others ih =>
    obtain ⟨path, replies⟩ := call
    obtain ⟨count, -, run, ends⟩ := exists_ends replies positive indexed path
    obtain ⟨visits, rest, named⟩ := ih run.indexed
    exact ⟨⟨path, replies, indexed, run⟩ :: visits, .cons rfl ⟨count, ends⟩ rest, by simp [named]⟩

/-- Indexing waits as long as it takes and no longer. A path that is not known and not open, and that can be opened,
is closed and known after as many naps as it takes until the time is up or the service says that it is indexed; the
replies settle all that happens. Paths can be indexed one after the other, with any replies. What is known then
stays known, a known path is left alone, and a path that is open or cannot be opened does not become known. -/
theorem waits_as_long_as_it_takes (configuration : Configuration) :
    let wait := configuration.indexWait
    (∀ (replies : Replies) (indexed : IndexedSet) (path : Path), path.components ∉ indexed →
      replies.isOpen = false → replies.opens = true →
      ∃ k, IsLeast {count | wait.timeout ≤ count * wait.interval ∨ replies.isIndexed count = true} k ∧
        k * wait.interval < wait.timeout + wait.interval ∧
        ∀ run, replies.Indexes wait indexed path run ↔
          run = ⟨indexed.insert path.components,
            [.askedOpen path, .called (.openView path)] ++ (naps wait path k ++ farewell wait path k),
            k * wait.interval⟩) ∧
    (∀ (indexed : IndexedSet) (calls : List (Path × Replies)), ∃ visits, InTurn wait indexed visits ∧
      visits.map (fun visit => (visit.path, visit.replies)) = calls) ∧
    ∀ indexed visits, InTurn wait indexed visits →
      (∀ visit ∈ visits, indexed ⊆ visit.before ∧ visit.before ⊆ visit.run.indexed ∧
        (visit.replies.isOpen = true ∨ visit.replies.opens = false → visit.run.indexed = visit.before)) ∧
      visits.Pairwise fun earlier later => earlier.run.indexed ⊆ later.before ∧
        (later.path.components ∈ earlier.run.indexed → later.run.events = []) := by
  intro wait
  have positive : 0 < wait.interval := Nat.lt_of_lt_of_le Nat.one_pos (Nat.le_max_right ..)
  refine ⟨?_, exists_inTurn positive, ?_⟩
  · intro replies indexed path unknown shut opens
    obtain ⟨k, least⟩ := exists_least_over replies positive
    have ends := ends_of_opened unknown shut opens least
    refine ⟨k, least, nap_time_lt positive least, fun run => ⟨?_, ?_⟩⟩
    · rintro ⟨calls, ends'⟩
      exact ends'.unique ends
    · rintro rfl
      exact ⟨k + 2, ends⟩
  · intro indexed visits inTurn
    refine ⟨fun visit listed => ?_, inTurn.pairwise.imp_of_mem ?_⟩
    · have indexes := inTurn.indexes listed
      exact ⟨inTurn.subset listed, indexes.subset, indexes.of_aside⟩
    · intro earlier later _ listed grown
      refine ⟨grown, fun known => ?_⟩
      rw [(inTurn.indexes listed).of_known (grown known)]

/-- Where the third answer is yes, a path is known after two naps of half a second. Under another spelling it is left
alone afterwards. -/
theorem waits_as_long_as_it_takes_second :
    let wait := Configuration.default.indexWait
    let replies : Replies := ⟨false, true, fun asked => decide (2 ≤ asked)⟩
    let path : Path := ⟨"w/a.ts"⟩
    let other : Path := ⟨"w//./a.ts"⟩
    let run : IndexingRun := ⟨[path.components],
      [.askedOpen path, .called (.openView path), .askedIndexed path, .called (.sleep 500), .askedIndexed path,
        .called (.sleep 500), .askedIndexed path, .askedIndexed path, .called (.closeView path)], 1000⟩
    path.components ∉ ([] : IndexedSet) ∧ replies.isOpen = false ∧ replies.opens = true ∧
      replies.Indexes wait [] path run ∧ ∀ later, replies.Indexes wait run.indexed other later → later.events = [] := by
  intro wait replies path other run
  obtain ⟨each, -, turns⟩ := waits_as_long_as_it_takes .default
  obtain ⟨k, least, -, runs⟩ := each replies [] path List.not_mem_nil rfl rfl
  have second : IsLeast {count | wait.timeout ≤ count * wait.interval ∨ replies.isIndexed count = true} 2 := by
    refine ⟨.inr rfl, ?_⟩
    rintro count (late | yes)
    · have time : 2000 ≤ count * 500 := late
      omega
    · exact of_decide_eq_true yes
  obtain rfl := least.unique second
  have indexes : replies.Indexes wait [] path run := (runs run).mpr rfl
  refine ⟨List.not_mem_nil, rfl, rfl, indexes, fun later again => ?_⟩
  have inTurn : InTurn wait [] [⟨path, replies, [], run⟩, ⟨other, replies, run.indexed, later⟩] :=
    .cons rfl indexes (.cons rfl again (.nil _))
  have same : other.components ∈ run.indexed := by decide +kernel
  exact ((List.pairwise_cons.mp (turns _ _ inTurn).2).1 _ (List.mem_singleton_self _)).2 same

end TypedJson.Indexing
