import TypedJson.Request

/-! # Sessions

A session runs requests on one workspace under control: the reply to every call of a request is laid
down in its script, and chosen calls are held until the request is resumed. A language service may ask
for suggestions itself while it is asked for some; such a nested request runs in place of the outer one.
Time passes only while a request sleeps.
-/

namespace TypedJson.Session

/-- The names of calls, as far as they can be held. -/
inductive CallName where
  | write
  | remove
  | check
  | resolve
  | completions
  | hovers
  | openView
  | closeView
  deriving DecidableEq, Repr

/-- The name of a call; sleeping has none. -/
def callName? : Call → Option CallName
  | .write _ _ => some .write
  | .remove _ => some .remove
  | .check _ => some .check
  | .resolve _ _ => some .resolve
  | .completions _ _ => some .completions
  | .hovers _ _ => some .hovers
  | .openView _ => some .openView
  | .closeView _ => some .closeView
  | .sleep _ => none

def CallName.isLanguage : CallName → Bool
  | .completions | .hovers | .openView | .closeView => true
  | _ => false

/-- The replies to the calls of a request, the calls that are held, and a document for which the
language service asks for suggestions. A file counts as indexed from a certain question on. -/
structure Script where
  holds : List CallName
  writeSucceeds : Bool
  removeSucceeds : Bool
  report : Except Error (List Finding)
  resolved : Option (Except Error Ty)
  completions : List CompletionItem
  hovers : List (List String)
  openSucceeds : Bool
  isOpen : Bool
  indexedAfter : Option Nat
  nested : Option (Document × Position)

/-- The reply to a call. A type that is not laid down is not found. -/
def Script.reply (script : Script) : Call → Reply
  | .write _ _ => .finished script.writeSucceeds
  | .remove _ => .finished script.removeSucceeds
  | .check _ => .report script.report
  | .resolve directory tag =>
    .resolved (script.resolved.getD (.error (.typeNotFound tag.name (directory.join ⟨tag.source⟩))))
  | .completions _ _ => .items script.completions
  | .hovers _ _ => .hovers script.hovers
  | .openView _ => .finished script.openSucceeds
  | .closeView _ | .sleep _ => .finished true

/-- What a request sees after it has asked a number of times whether a file is indexed. -/
def Script.surroundings (script : Script) (aliasing : Aliasing) (asked : Nat) : Surroundings where
  isOpen _ := script.isOpen
  isIndexed _ more := match script.indexedAfter with
    | some calls => calls ≤ asked + more
    | none => false
  aliasing := aliasing

/-- The script of a host without language tools: nothing is suggested, nothing is known about any
place, and every file is indexed at once. -/
def Script.withoutTools (script : Script) : Script :=
  { script with
    holds := script.holds.filter (!·.isLanguage), completions := [], hovers := [], openSucceeds := true
    isOpen := false, indexedAfter := some 0, nested := none }

inductive Entry where
  | event (event : Event)
  | nested (items : List CompletionItem)

def Entry.isLanguage : Entry → Bool
  | .event (.called call) => ((callName? call).map CallName.isLanguage).getD false
  | .event (.askedOpen _) | .event (.askedIndexed _) => true
  | .event _ => false
  | .nested _ => true

/-- A running request with its nested requests, the innermost first. -/
structure Thread where
  script : Script
  request : Request
  outer : List Request
  hasNested : Bool
  asked : Nat

inductive Status where
  | done (log : List Entry) (answer : Answer)
  | held (call : CallName) (log : List Entry)
  | dropped
  | gone

/-- The state of a session: the shared state, and the requests that have not ended. -/
structure State where
  workspace : Workspace
  threads : List (String × Thread)

def questions (events : List Event) : Nat :=
  events.countP fun event => match event with
    | .askedIndexed _ => true
    | _ => false

def Thread.follow (thread : Thread) (turn : Turn) : Thread :=
  { thread with request := turn.request, asked := thread.asked + questions turn.events }

variable (aliasing : Aliasing)

/-- The stretch of a thread when the call of its innermost request is due. -/
def Thread.due (workspace : Workspace) (thread : Thread) (call : Call) : Thread × Turn :=
  match thread.script.nested, thread.hasNested, callName? call with
  | some (document, position), false, some .completions =>
    let turn := workspace.complete document position
    ({ thread with hasNested := true, outer := thread.request :: thread.outer }.follow turn, turn)
  | _, _, _ =>
    let turn := thread.request.resume (thread.script.surroundings aliasing thread.asked) workspace
      (thread.script.reply call)
    (thread.follow turn, turn)

/-- Adds events to a log that has the latest entry first. -/
def record (log : List Entry) (events : List Event) : List Entry :=
  (events.map Entry.event).reverse ++ log

/-- Runs a thread until a call is held or it ends. The bound counts the stretches that are left, and the
log has the latest entry first. -/
def Thread.run : Nat → Workspace → Thread → List Entry → Workspace × Option Thread × Status
  | 0, workspace, _, _ => (workspace, none, .gone)
  | bound + 1, workspace, thread, log =>
    match thread.request.call?, thread.request with
    | none, .finished answer =>
      match thread.outer with
      | [] => (workspace, none, .done log.reverse answer)
      | outer :: others =>
        let log := match answer with
          | .items items => .nested items :: log
          | _ => log
        let thread := { thread with request := outer, outer := others }
        match outer.call? with
        | none => (workspace, none, .done log.reverse answer)
        | some call =>
          let turn := outer.resume (thread.script.surroundings aliasing thread.asked) workspace
            (thread.script.reply call)
          run bound turn.workspace (thread.follow turn) (record log turn.events)
    | none, _ => (workspace, none, .gone)
    | some call, _ =>
      match (callName? call).filter thread.script.holds.contains with
      | some name => (workspace, some thread, .held name log.reverse)
      | none =>
        let (thread, turn) := thread.due aliasing workspace call
        run bound turn.workspace thread (record log turn.events)

/-- More stretches than a thread with one nested request can have: a request sleeps at most once in a
millisecond of its waiting time. -/
def stretches (workspace : Workspace) : Nat := 2 * (workspace.configuration.indexTimeout + 16)

namespace State

def empty (configuration : Configuration) : State := ⟨.empty configuration, []⟩

/-- Keeps or forgets the thread with a name. -/
def settle (state : State) (id : String) (result : Workspace × Option Thread × Status) : State × Status :=
  let others := state.threads.filter (·.1 ≠ id)
  match result with
  | (workspace, some thread, status) => (⟨workspace, (id, thread) :: others⟩, status)
  | (workspace, none, status) => (⟨workspace, others⟩, status)

def start (state : State) (id : String) (script : Script) (turn : Turn) : State × Status :=
  let thread : Thread := ⟨script, turn.request, [], false, questions turn.events⟩
  state.settle id
    (thread.run aliasing (stretches turn.workspace) turn.workspace (record [] turn.events))

def resume (state : State) (id : String) : State × Status :=
  match getMember? id state.threads with
  | none => (state, .gone)
  | some thread =>
    match thread.request.call? with
    | none => (state, .gone)
    | some call =>
      let (thread, turn) := thread.due aliasing state.workspace call
      state.settle id
        (thread.run aliasing (stretches turn.workspace) turn.workspace (record [] turn.events))

/-- Cancels a request with its nested requests. -/
def drop (state : State) (id : String) : State × Status :=
  match getMember? id state.threads with
  | none => (state, .gone)
  | some thread =>
    let workspace := (thread.request :: thread.outer).foldl Request.cancel state.workspace
    (⟨workspace, state.threads.filter (·.1 ≠ id)⟩, .dropped)

end State

structure IndexingRun where
  indexed : IndexedSet
  events : List Event
  waited : Nat

/-- Runs the indexing of a path to its end, after a first stretch. The bound counts the stretches that
are left, `asked` the questions so far, and the log has the latest event first. -/
def runIndexing (script : Script) (wait : IndexWait) (path : Path) :
    Nat → Indexing.Stretch → Nat → List Event → Nat → IndexingRun
  | 0, stretch, _, log, waited => ⟨stretch.indexed, (stretch.events.reverse ++ log).reverse, waited⟩
  | bound + 1, stretch, asked, log, waited =>
    let log := stretch.events.reverse ++ log
    let asked := asked + questions stretch.events
    match stretch.next with
    | none => ⟨stretch.indexed, log.reverse, waited⟩
    | some step =>
      let surroundings := script.surroundings (fun _ _ => false) asked
      let success := match script.reply (step.call path wait) with
        | .finished success => success
        | _ => true
      let passed := match step with
        | .sleeping _ => wait.interval
        | _ => 0
      runIndexing script wait path bound
        (step.resume surroundings wait stretch.indexed path success) asked log (waited + passed)

/-- Indexes a path, unless that was done before. A file that is indexed after a number of questions needs
no more naps than that, and no more than milliseconds of waiting time. -/
def ensureIndexed (script : Script) (wait : IndexWait) (indexed : IndexedSet) (path : Path) :
    IndexingRun :=
  let surroundings := script.surroundings (fun _ _ => false) 0
  runIndexing script wait path (wait.timeout + (script.indexedAfter.getD 0) + 4)
    (Indexing.start surroundings indexed path) 0 [] 0

end TypedJson.Session
