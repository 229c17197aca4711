import TypedJson.Glob.Expansion
import TypedJson.Shell.Arithmetic
import TypedJson.Shell.Machine

/-! # The values of words

A word becomes any number of fields: what is not quoted is split at blanks, and a field with wildcards
outside of quotes becomes the paths that it matches, if there are any.
-/

namespace TypedJson.Shell

/-- The text of a field, with the information which characters were quoted. -/
abbrev Field := List (Char × Bool)

/-- The fields of a word so far, and the field that is being written. -/
structure Fields where
  closed : List Field
  current : Option Field

namespace Fields

/-- Adds text to the current field, which may be empty. -/
def add (fields : Fields) (text : List Char) (quoted : Bool) : Fields :=
  { fields with current := some (fields.current.getD [] ++ text.map (·, quoted)) }

def close (fields : Fields) : Fields := ⟨fields.closed ++ fields.current.toList, none⟩

def addSplit (fields : Fields) (text : List Char) : Fields :=
  text.foldl (fun fields c =>
    if Arithmetic.isSpace c then fields.close else fields.add [c] false) fields

/-- Adds texts, each to a field of its own. -/
def addEach (fields : Fields) : List String → Fields
  | [] => fields
  | [last] => fields.add last.toList true
  | text :: others => ((fields.add text.toList true).close).addEach others

end Fields

/-- The pattern for which a text is written. A text that is none stands for itself. -/
def patternOf (text : List Char) : Glob.Pattern :=
  match Glob.Pattern.ofText text with
  | .ok pattern => pattern
  | .error _ => text.map .literal

/-- Where a text may be cut, in the order in which the cuts are tried. -/
def cuts (text : List Char) (farFirst : Bool) : List Nat :=
  let places := List.range (text.length + 1)
  if farFirst then places.reverse else places

def Adjustment.apply (adjustment : Adjustment) (value : List Char) : List Char :=
  match adjustment with
  | .keep => value
  | .length => (toString value.length).toList
  | .default text => if value.isEmpty then text else value
  | .trimStart longest text =>
    match (cuts value longest).find? fun n => (patternOf text).isMatch (value.take n) with
    | some n => value.drop n
    | none => value
  | .trimEnd longest text =>
    match (cuts value !longest).find? fun n => (patternOf text).isMatch (value.drop n) with
    | some n => value.take n
    | none => value

/-- Carries out a script and gives what it writes. -/
abbrev Evaluate := List Char → Machine → Machine × List Char

def addFragment (evaluate : Evaluate) (state : Machine × Fields) (fragment : Fragment) :
    Machine × Fields :=
  let (machine, fields) := state
  let value (machine : Machine) (text : List Char) (quoted : Bool) : Machine × Fields :=
    (machine, if quoted then fields.add text true else fields.addSplit text)
  match fragment with
  | .text content quoted => (machine, fields.add content quoted)
  | .parameter "@" .keep true => (machine, fields.addEach machine.arguments)
  | .parameter name adjustment quoted =>
    value machine (adjustment.apply (machine.parameter name).toList) quoted
  | .output script quoted =>
    let (machine, text) := evaluate script machine
    value machine text quoted
  | .arithmetic expression quoted =>
    value machine (toString (Arithmetic.evaluate machine.parameter expression)).toList quoted

def isWildcard (c : Char) : Bool := c = '*' || c = '?' || c = '['

/-- The text of a pattern in which quoted wildcards stand for themselves. -/
def patternText (field : Field) : List Char :=
  field.flatMap fun (c, quoted) => if quoted ∧ isWildcard c then ['[', c, ']'] else [c]

/-- A segment of a path begins with a point. -/
def hasHidden (path : List Char) : Bool := (path.splitOn '/').any (·.head? = some '.')

def Field.texts (tree : FileTree) (field : Field) : List String :=
  let plain := [String.ofList (field.map (·.1))]
  if field.any fun (c, quoted) => isWildcard c && !quoted then
    let pattern := patternText field
    let (start, pattern) := if pattern.take 2 = ['.', '/'] then ("./", pattern.drop 2) else ("", pattern)
    match Glob.expand tree (String.ofList pattern) with
    | .error _ => plain
    | .ok paths =>
      let shown := paths.filter fun path => hasHidden pattern || !hasHidden path.text.toList
      if shown.isEmpty then plain else shown.map (start ++ ·.text)
  else plain

def expandWords (evaluate : Evaluate) (machine : Machine) (words : List Word) :
    Machine × List String :=
  words.foldl (fun (machine, texts) word =>
    let (machine, fields) := word.foldl (addFragment evaluate) (machine, ⟨[], none⟩)
    (machine, texts ++ fields.close.closed.flatMap (Field.texts machine.tree))) (machine, [])

/-- The text of a word that is neither split nor read as a pattern. -/
def expandWord (evaluate : Evaluate) (machine : Machine) (word : Word) : Machine × String :=
  let (machine, fields) := (word.map Fragment.quote).foldl (addFragment evaluate) (machine, ⟨[], none⟩)
  (machine, " ".intercalate (fields.close.closed.map fun field => String.ofList (field.map (·.1))))

end TypedJson.Shell
