import TypedJson.Configuration
import TypedJson.Exchange

/-! # Getting an artifact indexed

The language service knows a file only after it has been open in a view. The first request for a path
opens a view, waits for the file to be indexed, closes the view again and remembers the path. Waiting
ends after a time that is set, whether the file is indexed or not.
-/

namespace TypedJson

/-- Paths that have been indexed, by their components. -/
abbrev IndexedSet := List (List Component)

/-- The call that is waited for: a view is opened, time passes, or the view is closed. -/
inductive Indexing where
  | opening
  | sleeping (waited : Nat)
  | closing
  deriving DecidableEq, Repr

namespace Indexing

/-- What follows a stretch of indexing: the set, what happened, and the next wait if there is one. -/
structure Stretch where
  indexed : IndexedSet
  events : List Event
  next : Option Indexing

def call (path : Path) (wait : IndexWait) : Indexing → Call
  | opening => .openView path
  | sleeping _ => .sleep wait.interval
  | closing => .closeView path

variable (surroundings : Surroundings) (wait : IndexWait) (indexed : IndexedSet) (path : Path)

/-- Begins unless the path is known or already open in a view. -/
def start : Stretch :=
  if indexed.contains path.components then ⟨indexed, [], none⟩
  else if surroundings.isOpen path then ⟨indexed, [.askedOpen path], none⟩
  else ⟨indexed, [.askedOpen path, .called (.openView path)], some opening⟩

/-- Ends the wait: the service is asked once more, and the view is closed. -/
def giveUp (asked : List Event) : Stretch :=
  ⟨indexed, asked ++ [.askedIndexed path, .called (.closeView path)], some closing⟩

def poll (waited : Nat) : Stretch :=
  if waited < wait.timeout then
    if surroundings.isIndexed path 0 then giveUp indexed path [.askedIndexed path]
    else ⟨indexed, [.askedIndexed path, .called (.sleep wait.interval)], some (sleeping waited)⟩
  else giveUp indexed path []

/-- Goes on after a reply. A view that could not be opened ends the matter. -/
def resume (success : Bool) : Indexing → Stretch
  | opening => if success then poll surroundings wait indexed path 0 else ⟨indexed, [], none⟩
  | sleeping waited => poll surroundings wait indexed path (waited + wait.interval)
  | closing => ⟨indexed.insert path.components, [], none⟩

variable {surroundings wait indexed path}

theorem start_indexed : (start surroundings indexed path).indexed = indexed := by
  unfold start
  split
  · rfl
  · split <;> rfl

theorem poll_indexed {waited : Nat} : (poll surroundings wait indexed path waited).indexed = indexed := by
  unfold poll
  split
  · split <;> rfl
  · rfl

/-- Only the end of the indexing adds its path. -/
theorem resume_indexed {success : Bool} (step : Indexing) :
    (step.resume surroundings wait indexed path success).indexed =
      if step = closing then indexed.insert path.components else indexed := by
  cases step with
  | opening =>
    simp only [resume]
    split
    · exact poll_indexed
    · rfl
  | sleeping waited => exact poll_indexed
  | closing => rfl

end Indexing
end TypedJson
