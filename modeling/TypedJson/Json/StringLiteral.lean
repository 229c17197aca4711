import TypedJson.Json.Cursor
import TypedJson.Text.Utf8

/-! # String literals

Reading what stands after an opening quote. A code point beyond the basic plane is escaped as a pair
of surrogates; a surrogate that is not part of such a pair is refused.
-/

namespace TypedJson.StringLiteral

def hexValue? (c : Char) : Option Nat :=
  if '0' ≤ c && c ≤ '9' then some (c.toNat - '0'.toNat)
  else if 'a' ≤ c && c ≤ 'f' then some (c.toNat - 'a'.toNat + 10)
  else if 'A' ≤ c && c ≤ 'F' then some (c.toNat - 'A'.toNat + 10)
  else none

def hexNumber? (digits : List Char) : Option Nat :=
  digits.foldlM (fun n c => (hexValue? c).map (n * 16 + ·)) 0

/-- Reads the four digits of a numeric escape. -/
def readUnit (cursor : Cursor) : Except Fault (Nat × Cursor) :=
  if Text.byteLength (cursor.rest.take 4) < 4 then .error ⟨.stringEnd, cursor.mark.afterText cursor.rest⟩
  else match hexNumber? (cursor.rest.take 4) with
    | some n => .ok (n, cursor.after (cursor.rest.take 4) (cursor.rest.drop 4))
    | none => .error ⟨.invalidEscape, cursor.mark.afterBytes 4 cursor.rest⟩

/-- Skips a character that has to follow in the escape of a pair of surrogates. -/
def demand (wanted : Char) (cursor : Cursor) : Except Fault Cursor :=
  match cursor.rest with
  | [] => .error (cursor.fault .stringEnd)
  | c :: _ => if c = wanted then .ok cursor.skip else .error (cursor.fault .brokenSurrogatePair)

/-- Reads the digits of a numeric escape, and the second escape of a pair of surrogates. -/
def readCodePoint (cursor : Cursor) : Except Fault (Char × Cursor) := do
  let (first, next) ← readUnit cursor
  if 0xDC00 ≤ first && first ≤ 0xDFFF then .error ⟨.loneSurrogate, next.mark⟩
  else if first < 0xD800 || 0xDBFF < first then .ok (Char.ofNat first, next)
  else do
    let next ← demand '\\' next
    let next ← demand 'u' next
    let (second, next) ← readUnit next
    if second < 0xDC00 || 0xDFFF < second then .error ⟨.loneSurrogate, next.mark⟩
    else .ok (Char.ofNat (0x10000 + (first - 0xD800) * 0x400 + (second - 0xDC00)), next)

/-- The character that a letter after a backslash stands for. -/
def shortEscape? : Char → Option Char
  | '"' => some '"'
  | '\\' => some '\\'
  | '/' => some '/'
  | 'b' => some '\x08'
  | 'f' => some '\x0c'
  | 'n' => some '\n'
  | 'r' => some '\r'
  | 't' => some '\t'
  | _ => none

def readEscape (cursor : Cursor) : Except Fault (Char × Cursor) :=
  match cursor.rest with
  | [] => .error (cursor.fault .stringEnd)
  | c :: _ =>
    if c = 'u' then readCodePoint cursor.skip
    else match shortEscape? c with
      | some escaped => .ok (escaped, cursor.skip)
      | none => .error (cursor.fault .invalidEscape)

/-- The number of characters of an escape after its backslash: a letter, or a letter with the digits of
one or two surrogates. -/
def escapeLength (letter : Option Char) (escaped : Char) : Nat :=
  if letter ≠ some 'u' then 1 else if escaped.toNat < 0x10000 then 5 else 11

/-- Reads the characters up to the closing quote, given the number of characters to skip first
because they belong to an escape. -/
def readFrom (mark : Mark) : Nat → List Char → Except Fault (List Char × Cursor)
  | _, [] => .error ⟨.stringEnd, mark⟩
  | skipped + 1, c :: rest => readFrom (mark.after c) skipped rest
  | 0, c :: rest =>
    if c = '"' then .ok ([], ⟨rest, mark.after c⟩)
    else if c = '\\' then
      match readEscape ⟨rest, mark.after c⟩ with
      | .error fault => .error fault
      | .ok (escaped, _) =>
        (readFrom (mark.after c) (escapeLength rest.head? escaped) rest).map fun (text, stop) =>
          (escaped :: text, stop)
    else if c < ' ' then .error ⟨.controlCharacter, mark.afterByte c⟩
    else (readFrom (mark.after c) 0 rest).map fun (text, stop) => (c :: text, stop)

def read (cursor : Cursor) : Except Fault (String × Cursor) :=
  (readFrom cursor.skip.mark 0 cursor.skip.rest).map fun (text, stop) => (String.ofList text, stop)

end TypedJson.StringLiteral
