/-! # Staleness gate

Requests draw tickets for keys. A ticket is current as long as no later ticket was issued for its key.
Tickets are numbered in the order of issue, across all keys.
-/

namespace TypedJson

/-- The number of tickets issued so far, and the latest ticket of each key. -/
structure Gate (κ : Type) where
  issued : Nat
  latest : List (κ × Nat)

/-- A numbered claim to a key. -/
structure Ticket (κ : Type) where
  key : κ
  token : Nat
  deriving DecidableEq, Repr

/-- Why a request is to go no further: a later ticket was issued for its key. -/
structure Superseded where
  deriving DecidableEq, Repr

namespace Gate

variable {κ : Type} [DecidableEq κ]

def empty : Gate κ := ⟨0, []⟩

def latest? (gate : Gate κ) (key : κ) : Option Nat :=
  (gate.latest.find? fun entry => entry.1 = key).map (·.2)

def issue (gate : Gate κ) (key : κ) : Gate κ × Ticket κ :=
  let token := gate.issued + 1
  (⟨token, (key, token) :: gate.latest.filter (·.1 ≠ key)⟩, ⟨key, token⟩)

/-- No later ticket was issued for the key of a ticket. -/
def isCurrent (gate : Gate κ) (ticket : Ticket κ) : Bool := gate.latest? ticket.key = some ticket.token

def checkpoint (gate : Gate κ) (ticket : Ticket κ) : Except Superseded Unit :=
  if gate.isCurrent ticket then .ok () else .error ⟨⟩

theorem latest?_issue (gate : Gate κ) (key other : κ) :
    (gate.issue key).1.latest? other = if other = key then some (gate.issued + 1) else gate.latest? other := by
  unfold latest? issue
  by_cases same : other = key
  · simp [same]
  · have agree : gate.latest.find? (fun entry => decide (entry.1 ≠ key) && decide (entry.1 = other)) =
        gate.latest.find? (fun entry => decide (entry.1 = other)) := by
      congr 1
      funext entry
      by_cases h : entry.1 = other <;> simp [h, same]
    have : ¬ key = other := fun h => same h.symm
    simp_all [List.find?_filter]

theorem isCurrent_iff {gate : Gate κ} {ticket : Ticket κ} :
    gate.isCurrent ticket = true ↔ gate.latest? ticket.key = some ticket.token := by
  simp [isCurrent]

theorem checkpoint_eq_ok_iff {gate : Gate κ} {ticket : Ticket κ} :
    gate.checkpoint ticket = .ok () ↔ gate.isCurrent ticket = true := by
  unfold checkpoint
  split <;> simp_all

/-- The latest ticket of a key is the only current one, and other keys are not concerned. -/
theorem isCurrent_issue_iff (gate : Gate κ) (key : κ) (ticket : Ticket κ) :
    (gate.issue key).1.isCurrent ticket = true ↔
      if ticket.key = key then ticket.token = gate.issued + 1 else gate.isCurrent ticket = true := by
  rw [isCurrent_iff, latest?_issue]
  split
  case isTrue => simp [eq_comm]
  case isFalse => rw [isCurrent_iff]

/-- A ticket is current as soon as it is issued. -/
theorem isCurrent_issue (gate : Gate κ) (key : κ) :
    (gate.issue key).1.isCurrent (gate.issue key).2 = true := by
  have latest := latest?_issue gate key key
  rw [if_pos rfl] at latest
  simp only [isCurrent, decide_eq_true_eq]
  exact latest

end Gate
end TypedJson
