import TypedJson.Proofs.Run.Basic

/-! # Reading the record of a run

Facts about records as lists: who has begun, and which request of a lane is the newest at some point.
A record names each request once, so the newest request of a lane stays the same between two points at
which it is the newest.
-/

namespace TypedJson.Run

/-- The name of the request that enters a lane with an entry. -/
def entrant? (configuration : Configuration) (lane : Lane) : Entry → Option ℕ
  | .began id demand => if demand.lane? configuration = some lane then some id else none
  | _ => none

/-- The requests of a lane in the order in which they began. -/
def entrants (configuration : Configuration) (lane : Lane) (record : List Entry) : List ℕ :=
  record.filterMap (entrant? configuration lane)

/-- The request that began last of those in a lane. -/
def newest? (configuration : Configuration) (lane : Lane) (record : List Entry) : Option ℕ :=
  (entrants configuration lane record).getLast?

variable {configuration : Configuration} {lane : Lane} {record past future more : List Entry} {id : ℕ}
  {demand : Demand}

@[simp] theorem names_append : names (record ++ more) = names record ++ names more := List.filterMap_append

theorem mem_names_iff : id ∈ names record ↔ ∃ demand, .began id demand ∈ record := by
  simp only [names, List.mem_filterMap]
  constructor
  · rintro ⟨entry, member, opens⟩
    cases entry <;> cases opens
    exact ⟨_, member⟩
  · rintro ⟨demand, member⟩
    exact ⟨_, member, rfl⟩

@[simp] theorem entrants_append : entrants configuration lane (record ++ more) =
    entrants configuration lane record ++ entrants configuration lane more := List.filterMap_append

theorem mem_entrants_iff : id ∈ entrants configuration lane record ↔
    ∃ demand, .began id demand ∈ record ∧ demand.lane? configuration = some lane := by
  simp only [entrants, List.mem_filterMap]
  constructor
  · rintro ⟨entry, member, enters⟩
    cases entry <;> simp only [entrant?, reduceCtorEq, Option.ite_none_right_eq_some,
      Option.some.injEq] at enters
    obtain ⟨laned, rfl⟩ := enters
    exact ⟨_, member, laned⟩
  · rintro ⟨demand, member, laned⟩
    exact ⟨_, member, by simp [entrant?, laned]⟩

/-- The requests of a lane are among all requests, in the same order. -/
theorem entrants_sublist_names : (entrants configuration lane record).Sublist (names record) := by
  induction record with
  | nil => exact .slnil
  | cons entry rest ih =>
    cases entry with
    | began id demand =>
      by_cases laned : demand.lane? configuration = some lane
      · simpa [entrants, names, entrant?, Entry.opens?, laned] using ih
      · simpa [entrants, names, entrant?, Entry.opens?, laned] using ih.cons id
    | _ =>
      rw [entrants, names, List.filterMap_cons_none rfl, List.filterMap_cons_none rfl]
      exact ih

theorem newest?_mem (newest : newest? configuration lane record = some id) :
    ∃ demand, .began id demand ∈ record ∧ demand.lane? configuration = some lane :=
  mem_entrants_iff.mp (List.mem_of_getLast? newest)

theorem newest?_append : newest? configuration lane (record ++ more) =
    (newest? configuration lane more).or (newest? configuration lane record) := by
  simp [newest?, List.getLast?_append]

/-- A stretch lets nobody into a lane. -/
@[simp] theorem entrants_did {events : List Event} :
    entrants configuration lane (events.map (.did id)) = [] := by
  simp [entrants, List.filterMap_eq_nil_iff, entrant?]

@[simp] theorem entrants_trail {turn : Turn} : entrants configuration lane (trail id turn) = [] := by
  simp only [trail, entrants_append, entrants_did, List.nil_append]
  cases turn.request <;> rfl

@[simp] theorem names_trail {turn : Turn} : names (trail id turn) = [] := by
  simp only [trail, names_append, List.append_eq_nil_iff]
  constructor
  · simp [names, List.filterMap_eq_nil_iff, Entry.opens?]
  · cases turn.request <;> rfl

theorem follow_names {run : Run} {heading : Entry} {turn : Turn} :
    names (run.follow id heading turn).record = names (run.record ++ [heading]) := by
  rw [follow, List.append_cons, names_append, names_trail, List.append_nil]

/-- A request begins once. -/
theorem began_unique {other : Demand} (once : (names record).Nodup) (first : .began id demand ∈ record)
    (second : .began id other ∈ record) : demand = other := by
  induction record with
  | nil => cases first
  | cons entry rest ih =>
    have later : (names rest).Nodup := (List.sublist_cons_self entry rest).filterMap _ |>.nodup once
    have opened (other : Demand) (head : entry = .began id other) : id ∉ names rest := by
      subst head
      exact (List.nodup_cons.mp once).1
    rcases List.mem_cons.mp first with head | tail <;> rcases List.mem_cons.mp second with head' | tail'
    · exact (Entry.began.inj (head.trans head'.symm)).2
    · exact (opened _ head.symm (mem_names_iff.mpr ⟨_, tail'⟩)).elim
    · exact (opened _ head'.symm (mem_names_iff.mpr ⟨_, tail⟩)).elim
    · exact ih later tail tail'

/-- A request has not begun before it begins. -/
theorem not_mem_names_past (once : (names record).Nodup)
    (split : record = past ++ .began id demand :: future) : id ∉ names past := by
  rw [split, names_append] at once
  obtain ⟨-, -, apart⟩ := List.nodup_append.mp once
  exact fun member => apart _ member _ (List.mem_cons_self ..) rfl

/-- A record falls into parts before and after the beginning of a request in one way. -/
theorem split_unique {past' future' : List Entry} {other : Demand} (once : (names record).Nodup)
    (first : record = past ++ .began id demand :: future)
    (second : record = past' ++ .began id other :: future') :
    past = past' ∧ demand = other ∧ future = future' := by
  have fresh := not_mem_names_past once first
  have fresh' := not_mem_names_past once second
  rw [first] at second
  rcases List.append_eq_append_iff.mp second with ⟨gap, rfl, tail⟩ | ⟨gap, rfl, tail⟩
  all_goals
    cases gap with
    | nil => simpa [eq_comm] using tail
    | cons entry gap =>
      obtain ⟨rfl, rfl⟩ := List.cons.inj tail
      simp [mem_names_iff] at fresh fresh'

/-- Between two points at which a request is the newest of its lane it is so throughout. -/
theorem newest?_between (once : (names (past ++ more ++ future)).Nodup)
    (first : newest? configuration lane past = some id)
    (last : newest? configuration lane (past ++ more ++ future) = some id) :
    newest? configuration lane (past ++ more) = some id := by
  have once : (entrants configuration lane (past ++ more ++ future)).Nodup :=
    entrants_sublist_names.nodup once
  rw [entrants_append, entrants_append] at once
  have entered : id ∈ entrants configuration lane past := List.mem_of_getLast? first
  rw [List.append_assoc, newest?_append] at last
  rw [newest?_append]
  -- a later entry into the lane would have to be by the same request
  have silent : newest? configuration lane (more ++ future) = none := by
    cases later : newest? configuration lane (more ++ future) with
    | none => rfl
    | some other =>
      rw [later, Option.some_or, Option.some.injEq] at last
      subst last
      have again : other ∈ entrants configuration lane (more ++ future) := List.mem_of_getLast? later
      rw [entrants_append] at again
      rw [List.append_assoc] at once
      exact ((List.nodup_append.mp once).2.2 _ entered _ again rfl).elim
  rw [newest?_append, Option.or_eq_none_iff] at silent
  rw [silent.2, Option.none_or, first]

/-- A request is not the newest of a lane any more once another one has entered it. -/
theorem newest?_ne_of_began {older newer : ℕ} (once : (names (past ++ .began newer demand :: more)).Nodup)
    (laned : demand.lane? configuration = some lane) (earlier : older ∈ names past) :
    newest? configuration lane (past ++ .began newer demand :: more) ≠ some older := by
  intro newest
  rw [newest?_append] at newest
  rw [names_append] at once
  cases last : newest? configuration lane (.began newer demand :: more) with
  | none => simp [newest?, entrants, entrant?, laned, List.getLast?_cons] at last
  | some other =>
    rw [last, Option.some_or, Option.some.injEq] at newest
    subst newest
    have later := entrants_sublist_names.subset (List.mem_of_getLast? last)
    exact (List.nodup_append.mp once).2.2 _ earlier _ later rfl

/-- A request that has begun and is not the newest of a lane does not become the newest again. -/
theorem newest?_ne_append (once : (names (record ++ more)).Nodup) (begun : id ∈ names record)
    (stale : newest? configuration lane record ≠ some id) :
    newest? configuration lane (record ++ more) ≠ some id := by
  rw [newest?_append]
  rw [names_append] at once
  cases later : newest? configuration lane more with
  | none => rwa [Option.none_or]
  | some other =>
    rintro ⟨⟩
    have entered := entrants_sublist_names.subset (List.mem_of_getLast? later)
    exact (List.nodup_append.mp once).2.2 _ begun _ entered rfl

/-- A record that ends in an entry is split at that entry or before it. -/
theorem concat_eq_split {entry first : Entry}
    (split : record ++ [entry] = past ++ first :: future) :
    (record = past ∧ entry = first ∧ future = []) ∨
      ∃ front, record = past ++ first :: front ∧ future = front ++ [entry] := by
  rcases List.eq_nil_or_concat future with rfl | ⟨front, final, rfl⟩
  · obtain ⟨same, last⟩ := List.append_inj' split rfl
    exact .inl ⟨same, (List.cons.inj last).1, rfl⟩
  · rw [List.concat_eq_append] at split ⊢
    rw [← List.cons_append, ← List.append_assoc] at split
    obtain ⟨same, last⟩ := List.append_inj' split rfl
    exact .inr ⟨front, same, by rw [(List.cons.inj last).1]⟩

/-- A record is not split in a part that does not have the entry. -/
theorem split_of_not_mem {entry : Entry} (absent : entry ∉ more)
    (split : record ++ more = past ++ entry :: future) : ∃ rest, record = past ++ entry :: rest := by
  rcases List.append_eq_append_iff.mp split with ⟨gap, -, rfl⟩ | ⟨gap, rfl, tail⟩
  · exact (absent (by simp)).elim
  · cases gap with
    | nil =>
      obtain rfl : entry :: future = more := tail
      exact (absent (List.mem_cons_self ..)).elim
    | cons first rest =>
      obtain ⟨rfl, -⟩ := List.cons.inj tail
      exact ⟨rest, rfl⟩

/-- What holds of each entry of a record together with the entries before it. -/
def Throughout (motive : List Entry → Entry → Prop) (record : List Entry) : Prop :=
  ∀ past entry future, record = past ++ entry :: future → motive past entry

variable {motive : List Entry → Entry → Prop}

theorem throughout_nil : Throughout motive [] := by
  intro past entry future split
  simp at split

theorem throughout_append : Throughout motive (record ++ more) ↔
    Throughout motive record ∧ Throughout (fun past => motive (record ++ past)) more := by
  constructor
  · intro holds
    constructor
    · intro past entry future split
      exact holds past entry (future ++ more) (by simp [split])
    · intro past entry future split
      exact holds (record ++ past) entry future (by simp [split])
  · rintro ⟨front, back⟩ past entry future split
    rcases List.append_eq_append_iff.mp split with ⟨gap, rfl, tail⟩ | ⟨gap, rfl, tail⟩
    · exact back gap entry future tail
    · cases gap with
      | nil => simpa using back [] entry future tail.symm
      | cons head gap =>
        obtain ⟨rfl, -⟩ := List.cons.inj tail
        exact front past entry gap rfl

theorem throughout_cons {entry : Entry} : Throughout motive (entry :: more) ↔
    motive [] entry ∧ Throughout (fun past => motive (entry :: past)) more := by
  rw [← List.singleton_append, throughout_append]
  refine and_congr_left fun _ => ⟨fun holds => holds [] entry [] rfl, fun head past other future split => ?_⟩
  cases past with
  | nil =>
    obtain ⟨rfl, -⟩ := List.cons.inj split
    exact head
  | cons first past => simp at split

/-- A trail holds what was done and perhaps the end, and lets nobody into a lane at any point. -/
theorem throughout_trail (configuration : Configuration) {turn : Turn}
    (did : ∀ past, (∀ lane, entrants configuration lane past = []) → ∀ event ∈ turn.events,
      motive past (.did id event))
    (ended : ∀ past answer, motive past (.ended id answer)) : Throughout motive (trail id turn) := by
  intro past entry future split
  have quiet (lane : Lane) : entrants configuration lane past = [] := by
    have none : entrants configuration lane (trail id turn) = [] := entrants_trail
    rw [split, entrants_append, List.append_eq_nil_iff] at none
    exact none.1
  have member : entry ∈ trail id turn := by simp [split]
  rcases List.mem_append.mp member with happened | last
  · obtain ⟨event, present, rfl⟩ := List.mem_map.mp happened
    exact did past quiet event present
  · cases finished : turn.request <;> simp only [finished, List.not_mem_nil, List.mem_singleton] at last
    subst last
    exact ended past _

end TypedJson.Run
