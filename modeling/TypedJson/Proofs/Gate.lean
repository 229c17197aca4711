import TypedJson.Gate
import TypedJson.Path
import Mathlib.Data.List.Induction
import Mathlib.Data.List.Nodup
import Mathlib.Logic.Function.Basic

/-! # Histories of gates

A gate is used through handles, and a handle and its copies lead to one gate. Whichever of them tickets are drawn
through, and whatever is done with other gates, the tickets of a gate are numbered in their order, and a ticket is
current as long as none was drawn later for its key: `Gates.tickets_in_order`. Keys are compared by equality; a
path stands for its components there.
-/

namespace TypedJson

/-- What is done with gates: a gate is set up and gets its first handle, a handle is copied, or a ticket is drawn
through a handle. Handles are numbered in the order in which they come up. -/
inductive GateUse (κ : Type) where
  | create
  | copy (handle : ℕ)
  | issue (handle : ℕ) (key : κ)

/-- Gates that have been used: their states, their number, the gate that each handle leads to, and the tickets that
were drawn, each with the number of its gate. -/
structure Gates (κ : Type) where
  states : ℕ → Gate κ
  created : ℕ
  handles : List ℕ
  drawn : List (ℕ × Ticket κ)

variable {κ : Type} [DecidableEq κ]

namespace Gate

variable {gate : Gate κ} {tickets before later : List (Ticket κ)} {ticket : Ticket κ}

/-- A gate agrees with the tickets that have been drawn from it, in their order. -/
structure Agrees (gate : Gate κ) (tickets : List (Ticket κ)) : Prop where
  tokens : tickets.map (·.token) = List.range' 1 gate.issued
  latest : ∀ key, gate.latest? key = (tickets.reverse.find? (·.key = key)).map (·.token)

theorem agrees_empty : Agrees (empty : Gate κ) [] := ⟨rfl, fun _ => rfl⟩

theorem Agrees.issue (agrees : Agrees gate tickets) (key : κ) :
    Agrees (gate.issue key).1 (tickets ++ [(gate.issue key).2]) := by
  constructor
  · change (tickets ++ [(gate.issue key).2]).map (·.token) = List.range' 1 (gate.issued + 1)
    rw [List.map_append, agrees.tokens, List.range'_1_concat, Nat.add_comm 1]
    rfl
  · intro other
    rw [latest?_issue, List.reverse_append, List.reverse_singleton, List.singleton_append, List.find?_cons,
      agrees.latest]
    by_cases same : other = key
    · subst same
      simp [Gate.issue]
    · simp [Gate.issue, same, Ne.symm same]

/-- Later tickets have greater tokens. -/
theorem Agrees.pairwise (agrees : Agrees gate tickets) :
    tickets.Pairwise fun earlier later => earlier.token < later.token := by
  rw [← List.pairwise_map (f := fun ticket : Ticket κ => ticket.token), agrees.tokens]
  exact List.pairwise_lt_range'

theorem Agrees.length_eq (agrees : Agrees gate tickets) : tickets.length = gate.issued := by
  have lengths := congrArg List.length agrees.tokens
  rwa [List.length_map, List.length_range'] at lengths

/-- Tokens are at most the number of tickets. -/
theorem Agrees.token_le (agrees : Agrees gate tickets) (drawn : ticket ∈ tickets) :
    ticket.token ≤ tickets.length := by
  have listed : ticket.token ∈ tickets.map (·.token) := List.mem_map_of_mem drawn
  rw [agrees.tokens, List.mem_range'_1] at listed
  have lengths := agrees.length_eq
  omega

/-- A token tells its ticket. -/
theorem Agrees.eq_of_token (agrees : Agrees gate tickets) {other : Ticket κ} (drawn : ticket ∈ tickets)
    (drawn' : other ∈ tickets) (same : ticket.token = other.token) : ticket = other := by
  have apart : (tickets.map (·.token)).Nodup := agrees.tokens ▸ List.nodup_range'
  exact List.inj_on_of_nodup_map apart drawn drawn' same

/-- A ticket is current exactly if none was drawn later for its key. -/
theorem Agrees.isCurrent_iff (agrees : Agrees gate (before ++ ticket :: later)) :
    gate.isCurrent ticket = true ↔ ∀ other ∈ later, other.key ≠ ticket.key := by
  have order := List.pairwise_append.mp agrees.pairwise
  rw [Gate.isCurrent_iff, agrees.latest, List.reverse_append, List.reverse_cons, List.append_assoc,
    List.find?_append]
  cases newest : later.reverse.find? (·.key = ticket.key) with
  | none =>
    have none : ∀ other ∈ later, other.key ≠ ticket.key := by
      simpa [List.find?_eq_none] using newest
    simpa [List.singleton_append] using none
  | some other =>
    have listed : other ∈ later := List.mem_reverse.mp (List.mem_of_find?_eq_some newest)
    have key : other.key = ticket.key := by simpa using List.find?_some newest
    have greater : ticket.token < other.token := (List.pairwise_cons.mp order.2.1).1 other listed
    constructor
    · intro same
      have : other.token = ticket.token := Option.some.inj same
      omega
    · intro none
      exact (none other listed key).elim

/-- Each key that a ticket was drawn for has one current ticket. -/
theorem Agrees.existsUnique_current (agrees : Agrees gate tickets) (drawn : ticket ∈ tickets) :
    ∃! current, current ∈ tickets ∧ current.key = ticket.key ∧ gate.isCurrent current = true := by
  have given : (tickets.reverse.find? (·.key = ticket.key)).isSome = true :=
    List.find?_isSome.mpr ⟨ticket, List.mem_reverse.mpr drawn, decide_eq_true rfl⟩
  obtain ⟨current, newest⟩ := Option.isSome_iff_exists.mp given
  have listed : current ∈ tickets := List.mem_reverse.mp (List.mem_of_find?_eq_some newest)
  have key : current.key = ticket.key := by simpa using List.find?_some newest
  have latest : gate.latest? ticket.key = some current.token := by rw [agrees.latest, newest]; rfl
  refine ⟨current, ⟨listed, key, Gate.isCurrent_iff.mpr (key ▸ latest)⟩, ?_⟩
  rintro other ⟨listed', key', isCurrent⟩
  rw [Gate.isCurrent_iff, key', latest] at isCurrent
  exact agrees.eq_of_token listed' listed (Option.some.inj isCurrent).symm

end Gate

namespace Gates

variable {gates : Gates κ}

/-- What a use does. Nothing is done through a handle that there is not. -/
def use (gates : Gates κ) : GateUse κ → Gates κ
  | .create => { gates with created := gates.created + 1, handles := gates.handles ++ [gates.created] }
  | .copy handle => { gates with handles := gates.handles ++ gates.handles[handle]?.toList }
  | .issue handle key =>
    match gates.handles[handle]? with
    | none => gates
    | some number =>
      let (gate, ticket) := (gates.states number).issue key
      { gates with
        states := Function.update gates.states number gate
        drawn := gates.drawn ++ [(number, ticket)] }

/-- The gates after a history of uses. -/
def after (uses : List (GateUse κ)) : Gates κ := uses.foldl use ⟨fun _ => .empty, 0, [], []⟩

/-- The tickets drawn from a gate through any of its handles, in their order. -/
def tickets (gates : Gates κ) (number : ℕ) : List (Ticket κ) :=
  (gates.drawn.filter (·.1 = number)).map (·.2)

theorem after_append (uses more : List (GateUse κ)) : after (uses ++ more) = more.foldl use (after uses) :=
  List.foldl_append

/-- A use draws no ticket, or it draws one from one gate and leaves the others as they are. -/
theorem use_cases (gates : Gates κ) (next : GateUse κ) :
    (gates.use next).states = gates.states ∧ (gates.use next).drawn = gates.drawn ∨
      ∃ number key, (gates.use next).states =
          Function.update gates.states number ((gates.states number).issue key).1 ∧
        (gates.use next).drawn = gates.drawn ++ [(number, ((gates.states number).issue key).2)] := by
  cases next with
  | create => exact .inl ⟨rfl, rfl⟩
  | copy handle => exact .inl ⟨rfl, rfl⟩
  | issue handle key =>
    cases leads : gates.handles[handle]? with
    | none => exact .inl ⟨by simp [use, leads], by simp [use, leads]⟩
    | some number => exact .inr ⟨number, key, by simp [use, leads], by simp [use, leads]⟩

/-- One use keeps the gates in agreement with their tickets. -/
theorem agrees_use (agrees : ∀ number, (gates.states number).Agrees (gates.tickets number)) (next : GateUse κ)
    (number : ℕ) : ((gates.use next).states number).Agrees ((gates.use next).tickets number) := by
  rcases gates.use_cases next with ⟨states, drawn⟩ | ⟨other, key, states, drawn⟩
  · rw [tickets, states, drawn]
    exact agrees number
  · rw [tickets, states, drawn, List.filter_append, List.map_append]
    by_cases own : other = number
    · subst own
      rw [Function.update_self]
      simpa [tickets] using (agrees other).issue key
    · rw [Function.update_of_ne (Ne.symm own)]
      simpa [tickets, own] using agrees number

theorem agrees_after (uses : List (GateUse κ)) (number : ℕ) :
    ((after uses).states number).Agrees ((after uses).tickets number) := by
  induction uses using List.reverseRecOn generalizing number with
  | nil => exact Gate.agrees_empty
  | append_singleton uses next ih =>
    rw [after_append]
    exact agrees_use ih next number

/-- There are no more tickets than uses. -/
theorem length_tickets_le (uses : List (GateUse κ)) (number : ℕ) :
    ((after uses).tickets number).length ≤ uses.length := by
  have all : (after uses).drawn.length ≤ uses.length := by
    induction uses using List.reverseRecOn with
    | nil => exact Nat.le_refl 0
    | append_singleton uses next ih =>
      rw [after_append, List.foldl_cons, List.foldl_nil, List.length_append, List.length_singleton]
      rcases (after uses).use_cases next with ⟨-, drawn⟩ | ⟨_, _, -, drawn⟩
      · rw [drawn]
        omega
      · rw [drawn, List.length_append, List.length_singleton]
        omega
  rw [tickets, List.length_map]
  exact Nat.le_trans (List.length_filter_le ..) all

/-- Further uses only add tickets. -/
theorem exists_tickets_append (uses more : List (GateUse κ)) (number : ℕ) :
    ∃ later, (after (uses ++ more)).tickets number = (after uses).tickets number ++ later := by
  induction more using List.reverseRecOn with
  | nil => exact ⟨[], by rw [List.append_nil, List.append_nil]⟩
  | append_singleton more next ih =>
    obtain ⟨later, split⟩ := ih
    rw [← List.append_assoc, after_append, List.foldl_cons, List.foldl_nil]
    rcases (after (uses ++ more)).use_cases next with ⟨-, drawn⟩ | ⟨other, key, -, drawn⟩
    · exact ⟨later, by rw [tickets, drawn]; exact split⟩
    · refine ⟨later ++ (([(other, (((after (uses ++ more)).states other).issue key).2)] :
        List (ℕ × Ticket κ)).filter (·.1 = number)).map (·.2), ?_⟩
      rw [tickets, drawn, List.filter_append, List.map_append, ← tickets, split, List.append_assoc]

/-- In a history with fewer than `2 ^ 64` uses, tickets that are drawn from a gate through any of its handles have
increasing tokens of 64 bits. At every point the latest token of a key is that of its last ticket, and the current
tickets are those behind which no ticket was drawn for an equal key. So each key that a ticket was drawn for has one
current ticket, and a ticket that is not current does not become current again. -/
theorem tickets_in_order (uses : List (GateUse κ)) (few : uses.length < UInt64.size) (number : ℕ) :
    let gate := (after uses).states number
    let tickets := (after uses).tickets number
    (tickets.Pairwise fun earlier later => earlier.token < later.token) ∧
    (∀ ticket ∈ tickets, ticket.token < UInt64.size) ∧
    (∀ key, gate.latest? key = (tickets.reverse.find? (·.key = key)).map (·.token)) ∧
    (∀ before ticket later, tickets = before ++ ticket :: later →
      (gate.isCurrent ticket = true ↔ ∀ other ∈ later, other.key ≠ ticket.key) ∧
      (gate.checkpoint ticket = .ok () ↔ ∀ other ∈ later, other.key ≠ ticket.key)) ∧
    (∀ ticket ∈ tickets,
      ∃! current, current ∈ tickets ∧ current.key = ticket.key ∧ gate.isCurrent current = true) ∧
    ∀ more, (uses ++ more).length < UInt64.size → ∀ ticket ∈ tickets, gate.isCurrent ticket = false →
      ((after (uses ++ more)).states number).isCurrent ticket = false := by
  intro gate tickets
  have agrees : gate.Agrees tickets := agrees_after uses number
  refine ⟨agrees.pairwise, ?_, agrees.latest, ?_, fun ticket drawn => agrees.existsUnique_current drawn, ?_⟩
  · intro ticket drawn
    have bound := agrees.token_le drawn
    have fewer : tickets.length ≤ uses.length := length_tickets_le uses number
    omega
  · intro before ticket later split
    rw [split] at agrees
    exact ⟨agrees.isCurrent_iff, Gate.checkpoint_eq_ok_iff.trans agrees.isCurrent_iff⟩
  · intro more _ ticket drawn superseded
    obtain ⟨before, later, split⟩ := List.append_of_mem drawn
    obtain ⟨further, whole⟩ := exists_tickets_append uses more number
    have agrees' := agrees_after (uses ++ more) number
    change _ = tickets ++ further at whole
    rw [whole, split, List.append_assoc, List.cons_append] at agrees'
    rw [split] at agrees
    rw [Bool.eq_false_iff] at superseded ⊢
    -- the ticket that superseded it is still behind it
    exact fun current => superseded (agrees.isCurrent_iff.mpr fun other listed =>
      agrees'.isCurrent_iff.mp current other (List.mem_append_left _ listed))

/-- Three tickets are drawn through a handle and a copy of it, two of them for one path that is written in two
ways. Between them a ticket for this path is drawn from another gate. -/
def sharedUses : List (GateUse (List Component)) :=
  [.create, .copy 0, .issue 0 (Path.components ⟨"/w//a"⟩), .create, .issue 1 (Path.components ⟨"/w/./a"⟩),
    .issue 2 (Path.components ⟨"/w/a"⟩), .issue 0 (Path.components ⟨"/w/b"⟩)]

/-- The ticket for the path that was drawn later, through the copy, is the current one. The ticket that it
superseded is still not current after a ticket has been drawn for another path. -/
theorem tickets_in_order_shared : sharedUses.length < UInt64.size ∧
    ((after sharedUses).tickets 0).map (·.token) = [1, 2, 3] ∧
    ((after sharedUses).states 0).isCurrent ⟨Path.components ⟨"/w/a"⟩, 1⟩ = false ∧
    ((after sharedUses).states 0).checkpoint ⟨Path.components ⟨"/w/a"⟩, 2⟩ = .ok () ∧
    ((after (sharedUses ++ [.issue 1 (Path.components ⟨"/w/b"⟩)])).states 0).isCurrent
      ⟨Path.components ⟨"/w/a"⟩, 1⟩ = false := by
  have few : sharedUses.length < UInt64.size := by decide
  have tickets : (after sharedUses).tickets 0 = [⟨Path.components ⟨"/w/a"⟩, 1⟩, ⟨Path.components ⟨"/w/a"⟩, 2⟩,
      ⟨Path.components ⟨"/w/b"⟩, 3⟩] := by decide +kernel
  have superseded : ((after sharedUses).states 0).isCurrent ⟨Path.components ⟨"/w/a"⟩, 1⟩ = false := by
    decide +kernel
  have apart : Path.components ⟨"/w/b"⟩ ≠ Path.components ⟨"/w/a"⟩ := by decide +kernel
  obtain ⟨-, -, -, current, -, remains⟩ := tickets_in_order sharedUses few 0
  refine ⟨few, by rw [tickets]; rfl, superseded, ?_, remains _ (by decide) _ ?_ superseded⟩
  · refine (current [_] _ [_] tickets).2.mpr fun other listed => ?_
    rw [List.mem_singleton.mp listed]
    exact apart
  · rw [tickets]
    exact List.mem_cons_self

end Gates
end TypedJson
