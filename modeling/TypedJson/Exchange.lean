import TypedJson.Completion
import TypedJson.Error
import TypedJson.Remapping
import TypedJson.Ty.Basic

/-! # Calls, replies and events

A request works by calls to the file system, the type checker, the resolver of types and the language
service. It waits for the reply to each call, and other requests go on meanwhile. Between two calls it
looks at its surroundings and tells the host what it found, without waiting.
-/

namespace TypedJson

/-- A call whose reply a request waits for. -/
inductive Call where
  | write (path : Path) (content : String)
  | remove (path : Path)
  | check (roots : List Path)
  | resolve (directory : Path) (tag : TypeTag)
  | completions (path : Path) (position : Position)
  | hovers (path : Path) (position : Position)
  | openView (path : Path)
  | closeView (path : Path)
  | sleep (milliseconds : Nat)
  deriving DecidableEq

/-- A reply. For calls whose failure has no consequence but to go on differently, it only says whether
they succeeded. -/
inductive Reply where
  | finished (success : Bool)
  | report (result : Except Error (List Finding))
  | resolved (result : Except Error Ty)
  | items (items : List CompletionItem)
  | hovers (texts : List (List String))

/-- What a request does that can be seen from outside. -/
inductive Event where
  | called (call : Call)
  | askedOpen (path : Path)
  | askedIndexed (path : Path)
  | published (document : Path) (diagnostics : List Diagnostic)
  | notified (message : String)
  deriving DecidableEq

/-- What a request sees when it looks around between two calls: which files are open in a view, whether
a file is indexed when it is asked for the given time since the last call, and which paths name the
same file. -/
structure Surroundings where
  isOpen : Path → Bool
  isIndexed : Path → Nat → Bool
  aliasing : Aliasing

end TypedJson
