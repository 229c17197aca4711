/-! # Shell commands

The commands of a small command language, in which scripts that stand in for a checker are written. A
word is a list of fragments, and its values are known only when it is used.
-/

namespace TypedJson.Shell

/-- What is done to the value of a parameter. Patterns and defaults are kept as they are written. -/
inductive Adjustment where
  | keep
  | length
  | default (text : List Char)
  | trimStart (longest : Bool) (pattern : List Char)
  | trimEnd (longest : Bool) (pattern : List Char)
  deriving DecidableEq, Repr

/-- Part of a word. Only what is not quoted is split at blanks and read as a pattern. -/
inductive Fragment where
  | text (content : List Char) (quoted : Bool)
  | parameter (name : String) (adjustment : Adjustment) (quoted : Bool)
  | output (script : List Char) (quoted : Bool)
  | arithmetic (expression : List Char) (quoted : Bool)
  deriving DecidableEq, Repr

def Fragment.quote : Fragment → Fragment
  | text content _ => .text content true
  | parameter name adjustment _ => .parameter name adjustment true
  | output script _ => .output script true
  | arithmetic expression _ => .arithmetic expression true

/-- A fragment stands for what a script writes. -/
def Fragment.isOutput : Fragment → Bool
  | output _ _ => true
  | _ => false

abbrev Word := List Fragment

/-- The text of a word that is written without quotes and parameters. -/
def Word.plain? : Word → Option (List Char)
  | [] => some []
  | .text content false :: rest => (plain? rest).map (content ++ ·)
  | _ :: _ => none

/-- Where the input of a command comes from or its output goes to. -/
inductive Redirection where
  | input (source : Word)
  | output (descriptor : Nat) (target : Word) (append : Bool)
  | duplicate (descriptor : Nat) (target : Word)
  deriving DecidableEq, Repr

inductive Command where
  | nothing
  | simple (assignments : List (String × Word)) (words : List Word)
  | redirected (command : Command) (redirections : List Redirection)
  | sequence (first second : Command)
  | conjunction (first second : Command)
  | disjunction (first second : Command)
  | negation (command : Command)
  | pipe (first second : Command)
  | subshell (command : Command)
  | choice (condition yes no : Command)
  | loop (name : String) (words : List Word) (body : Command)
  | repetition (condition body : Command)
  deriving Repr

end TypedJson.Shell
