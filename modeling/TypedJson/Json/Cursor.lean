/-! # Reading positions in JSON text

A `Mark` is a place in the text as messages name it: lines count from one, and the column is the
number of bytes since the last line feed. A `Cursor` is what is left to read, with its mark. A
`Fault` says why reading stopped, and where.
-/

namespace TypedJson

/-- A line, counted from one, and the number of bytes read on it. -/
structure Mark where
  line : Nat
  column : Nat
  deriving DecidableEq, Repr

namespace Mark

def start : Mark := ⟨1, 0⟩

def after (mark : Mark) (c : Char) : Mark :=
  if c = '\n' then ⟨mark.line + 1, 0⟩ else ⟨mark.line, mark.column + c.utf8Size⟩

/-- The mark after the first byte of a character. -/
def afterByte (mark : Mark) (c : Char) : Mark :=
  if c = '\n' then ⟨mark.line + 1, 0⟩ else ⟨mark.line, mark.column + 1⟩

def afterText (mark : Mark) (text : List Char) : Mark := text.foldl after mark

/-- The mark after the given number of bytes of a text, which may end inside a character. -/
def afterBytes (mark : Mark) : Nat → List Char → Mark
  | 0, _ => mark
  | _, [] => mark
  | count, c :: rest =>
    if c.utf8Size ≤ count then (mark.after c).afterBytes (count - c.utf8Size) rest
    else ⟨mark.line, mark.column + count⟩

end Mark

/-- Why JSON text cannot be read on. -/
inductive Reason where
  | listEnd
  | objectEnd
  | stringEnd
  | valueEnd
  | expectedColon
  | expectedListCommaOrEnd
  | expectedObjectCommaOrEnd
  | expectedWord
  | expectedValue
  | invalidEscape
  | invalidNumber
  | numberOutOfRange
  | controlCharacter
  | keyNotString
  | loneSurrogate
  | brokenSurrogatePair
  | trailingComma
  | trailingCharacters
  | nestingTooDeep
  deriving DecidableEq, Repr

def Reason.message : Reason → String
  | .listEnd => "EOF while parsing a list"
  | .objectEnd => "EOF while parsing an object"
  | .stringEnd => "EOF while parsing a string"
  | .valueEnd => "EOF while parsing a value"
  | .expectedColon => "expected `:`"
  | .expectedListCommaOrEnd => "expected `,` or `]`"
  | .expectedObjectCommaOrEnd => "expected `,` or `\x7d`"
  | .expectedWord => "expected ident"
  | .expectedValue => "expected value"
  | .invalidEscape => "invalid escape"
  | .invalidNumber => "invalid number"
  | .numberOutOfRange => "number out of range"
  | .controlCharacter => "control character (\\u0000-\\u001F) found while parsing a string"
  | .keyNotString => "key must be a string"
  | .loneSurrogate => "lone leading surrogate in hex escape"
  | .brokenSurrogatePair => "unexpected end of hex escape"
  | .trailingComma => "trailing comma"
  | .trailingCharacters => "trailing characters"
  | .nestingTooDeep => "recursion limit exceeded"

structure Fault where
  reason : Reason
  mark : Mark
  deriving DecidableEq, Repr

/-- The end of a message that names a place. -/
def Mark.locate (mark : Mark) (message : String) : String :=
  message ++ " at line " ++ toString mark.line ++ " column " ++ toString mark.column

def Fault.message (fault : Fault) : String := fault.mark.locate fault.reason.message

/-- The text that is left to read and the mark where it begins. -/
structure Cursor where
  rest : List Char
  mark : Mark

def isJsonBlank (c : Char) : Bool := c = ' ' || c = '\n' || c = '\t' || c = '\r'

namespace Cursor

def ofText (text : List Char) : Cursor := ⟨text, .start⟩

/-- The cursor after a text that stands at the cursor, given what follows it. -/
def after (cursor : Cursor) (passed rest : List Char) : Cursor := ⟨rest, cursor.mark.afterText passed⟩

def skip (cursor : Cursor) : Cursor :=
  match cursor.rest with
  | [] => cursor
  | c :: rest => ⟨rest, cursor.mark.after c⟩

def skipWhile (cursor : Cursor) (p : Char → Bool) : Cursor :=
  cursor.after (cursor.rest.takeWhile p) (cursor.rest.dropWhile p)

def skipBlank (cursor : Cursor) : Cursor := cursor.skipWhile isJsonBlank

/-- The mark after the byte at the cursor; at the end of the text, the mark of the end. -/
def peekMark (cursor : Cursor) : Mark :=
  match cursor.rest with
  | [] => cursor.mark
  | c :: _ => cursor.mark.afterByte c

def fault (cursor : Cursor) (reason : Reason) : Fault := ⟨reason, cursor.peekMark⟩

/-- A fault at the byte at the cursor, or the end of the value if there is none. -/
def faultOrEnd (cursor : Cursor) (reason : Reason) : Fault :=
  cursor.fault (if cursor.rest.isEmpty then .valueEnd else reason)

end Cursor
end TypedJson
