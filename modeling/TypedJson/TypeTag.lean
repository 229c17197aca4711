import TypedJson.Json.Read
import TypedJson.Text.Blank

/-! # Type tags

A document names its type in a member `"$type": {"$from": …, "$import": …}`. The tag is found by its
spelling, so the rest of the document need not be well-formed, and only the first place that has this
spelling counts. Both values end up in a line of source text, so they are restricted: the source has no
quotes and no line breaks, and the name is an identifier.
-/

namespace TypedJson

/-- The source of a type, as written, and the name it is exported under. -/
structure TypeTag where
  source : String
  name : String
  deriving DecidableEq, Repr

inductive TagKey where
  | source
  | name
  deriving DecidableEq, Repr

namespace TypeTag

/-- Skips a text that has to stand here. -/
def skipText (wanted text : List Char) : Option (List Char) :=
  if wanted.isPrefixOf text then some (text.drop wanted.length) else none

def skipToken (wanted text : List Char) : Option (List Char) := skipText wanted (Text.trimStart text)

def keyText : TagKey → List Char
  | .source => ['"', '$', 'f', 'r', 'o', 'm', '"']
  | .name => ['"', '$', 'i', 'm', 'p', 'o', 'r', 't', '"']

def skipKey (text : List Char) : Option (TagKey × List Char) :=
  match skipToken (keyText .source) text with
  | some rest => some (.source, rest)
  | none => (skipToken (keyText .name) text).map fun rest => (.name, rest)

/-- Splits a text after the first quote that no backslash precedes. A line feed ends the search. -/
def splitQuoted : List Char → Option (List Char × List Char)
  | [] => none
  | '"' :: rest => some (['"'], rest)
  | '\\' :: c :: rest =>
    if c = '\n' then none else (splitQuoted rest).map fun (body, after) => ('\\' :: c :: body, after)
  | c :: rest =>
    if c = '\n' ∨ c = '\\' then none else (splitQuoted rest).map fun (body, after) => (c :: body, after)

/-- Reads a quoted text after white space; the quotes belong to it. -/
def readQuoted (text : List Char) : Option (List Char × List Char) := do
  let rest ← skipToken ['"'] text
  let (body, rest) ← splitQuoted rest
  some ('"' :: body, rest)

/-- Reads one value of a tag: its name, and what is quoted after the colon. -/
def readEntry (text : List Char) : Option ((TagKey × List Char) × List Char) := do
  let (key, rest) ← skipKey text
  let rest ← skipToken [':'] rest
  let (quoted, rest) ← readQuoted rest
  some ((key, quoted), rest)

def memberText : List Char := ['"', '$', 't', 'y', 'p', 'e', '"']

/-- Reads the spelling of a tag that begins here: two entries between braces. -/
def readSpelling (text : List Char) : Option ((TagKey × List Char) × (TagKey × List Char)) := do
  let rest ← skipText memberText text
  let rest ← skipToken [':'] rest
  let rest ← skipToken ['\x7b'] rest
  let (first, rest) ← readEntry rest
  let rest ← skipToken [','] rest
  let (second, rest) ← readEntry rest
  let _ ← skipToken ['\x7d'] rest
  some (first, second)

/-- The spelling of a tag at the first place of a text that has one. -/
def findSpelling : List Char → Option ((TagKey × List Char) × (TagKey × List Char))
  | [] => none
  | c :: rest => (readSpelling (c :: rest)).or (findSpelling rest)

def isIdentifierStart (c : Char) : Bool := c.isAlpha || c = '_' || c = '$'

def isIdentifier : List Char → Bool
  | [] => false
  | c :: rest => isIdentifierStart c && rest.all fun c => isIdentifierStart c || c.isDigit

/-- A source can stand between quotes on one line. -/
def isSource (text : List Char) : Bool :=
  text ≠ [] && text.all fun c => c ≠ '"' && c ≠ '\n' && c ≠ '\r'

/-- A tag whose values can be spliced into source text. -/
def check (tag : TypeTag) : Option TypeTag :=
  if isSource tag.source.toList && isIdentifier tag.name.toList then some tag else none

def ofText? (text : List Char) : Option TypeTag := do
  let (first, second) ← findSpelling text
  if first.1 = second.1 then none
  else do
    let firstValue ← Json.stringOfText? first.2
    let secondValue ← Json.stringOfText? second.2
    if first.1 = .source then check ⟨firstValue, secondValue⟩ else check ⟨secondValue, firstValue⟩

end TypeTag
end TypedJson
