import TypedJson.Text.Lines
import TypedJson.Text.Utf8

/-! # Positions in a text

A position is a line and a character on it, both counted from zero, in words of 32 bits. The position
of a place in a text depends on what stands before it.
-/

namespace TypedJson

/-- A line and a character on it, counted from zero. -/
structure Position where
  line : UInt32
  character : UInt32
  deriving DecidableEq, Repr

structure Range where
  start : Position
  stop : Position
  deriving DecidableEq, Repr

def wordMax : UInt32 := 0xFFFFFFFF

/-- The sum of two words, or the greatest word if the sum is larger. -/
def addCapped (a b : UInt32) : UInt32 :=
  if a.toNat + b.toNat < UInt32.size then a + b else wordMax

namespace Position

def start : Position := ⟨0, 0⟩

/-- The position after a text: its line feeds, and the characters after the last one. -/
def after (before : List Char) : Position :=
  ⟨(before.count '\n').toUInt32, (Text.lastLine before).length.toUInt32⟩

/-- The position at a byte offset, or at the end for an offset past it; inside a character there is
no position. -/
def atByte? (text : List Char) (offset : Nat) : Option Position :=
  (Text.splitAtByte? text (min offset (Text.byteLength text))).map fun split => after split.1

def down (position : Position) (lines : UInt32) : Position :=
  ⟨addCapped position.line lines, position.character⟩

end Position

def Range.whole (text : List Char) : Range := ⟨.start, .after text⟩

/-- The range between two places given by the number of characters before them. -/
def Range.between (text : List Char) (start stop : Nat) : Range :=
  ⟨.after (text.take start), .after (text.take stop)⟩

end TypedJson
