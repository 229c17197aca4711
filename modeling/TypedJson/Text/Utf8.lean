/-! # Texts as bytes

The length of a text in UTF-8, cutting a text at a byte offset, and reading bytes as text, either
strictly or with every ill-formed part replaced by one replacement character.
-/

namespace TypedJson.Text

def byteLength : List Char → Nat
  | [] => 0
  | c :: rest => c.utf8Size + byteLength rest

theorem byteLength_append (first second : List Char) :
    byteLength (first ++ second) = byteLength first + byteLength second := by
  induction first with
  | nil => simp [byteLength]
  | cons c rest ih => simp only [List.cons_append, byteLength, ih, Nat.add_assoc]

/-- Split a text at a byte offset; `none` if the offset is inside a character or past the end. -/
def splitAtByte? : List Char → Nat → Option (List Char × List Char)
  | text, 0 => some ([], text)
  | [], _ + 1 => none
  | c :: rest, offset + 1 =>
    if c.utf8Size ≤ offset + 1 then
      (splitAtByte? rest (offset + 1 - c.utf8Size)).map fun (before, after) => (c :: before, after)
    else none

/-- The bounds of the byte that may follow a leading byte of a sequence of two or more bytes,
and the number of bytes that the sequence still needs. -/
structure Lead where
  more : Nat
  low : Nat
  high : Nat
  bits : Nat

/-- Leading bytes of well-formed sequences; overlong forms and surrogates are excluded by the
bounds of the second byte. -/
def lead? (byte : Nat) : Option Lead :=
  if 0xC2 ≤ byte ∧ byte ≤ 0xDF then some ⟨1, 0x80, 0xBF, byte - 0xC0⟩
  else if byte = 0xE0 then some ⟨2, 0xA0, 0xBF, 0⟩
  else if byte = 0xED then some ⟨2, 0x80, 0x9F, 0xD⟩
  else if 0xE1 ≤ byte ∧ byte ≤ 0xEF then some ⟨2, 0x80, 0xBF, byte - 0xE0⟩
  else if byte = 0xF0 then some ⟨3, 0x90, 0xBF, 0⟩
  else if 0xF1 ≤ byte ∧ byte ≤ 0xF3 then some ⟨3, 0x80, 0xBF, byte - 0xF0⟩
  else if byte = 0xF4 then some ⟨3, 0x80, 0x8F, 4⟩
  else none

/-- The part of a text that is being read: nothing, or a sequence that has begun. -/
inductive Pending where
  | none
  | begun (lead : Lead)

/-- Read bytes as text, `bad` giving what an ill-formed part contributes. A sequence that breaks
off is one ill-formed part, and the byte that breaks it off is read afresh. -/
def decodeWith (bad : Option Char) : Pending → List UInt8 → List (Option Char)
  | .none, [] => []
  | .begun _, [] => [bad]
  | .none, byte :: rest =>
    if byte.toNat < 0x80 then some (Char.ofNat byte.toNat) :: decodeWith bad .none rest
    else match lead? byte.toNat with
      | some lead => decodeWith bad (.begun lead) rest
      | none => bad :: decodeWith bad .none rest
  | .begun lead, byte :: rest =>
    if lead.low ≤ byte.toNat ∧ byte.toNat ≤ lead.high then
      let bits := lead.bits * 64 + (byte.toNat - 0x80)
      if lead.more = 1 then some (Char.ofNat bits) :: decodeWith bad .none rest
      else decodeWith bad (.begun ⟨lead.more - 1, 0x80, 0xBF, bits⟩) rest
    else if byte.toNat < 0x80 then
      bad :: some (Char.ofNat byte.toNat) :: decodeWith bad .none rest
    else match lead? byte.toNat with
      | some next => bad :: decodeWith bad (.begun next) rest
      | none => bad :: bad :: decodeWith bad .none rest

def ofBytes? (bytes : List UInt8) : Option (List Char) :=
  (decodeWith none .none bytes).mapM id

/-- The text that bytes spell, with a replacement character for each ill-formed part. -/
def ofBytesLossy (bytes : List UInt8) : List Char :=
  (decodeWith (some '\uFFFD') .none bytes).filterMap id

def toBytes (text : String) : List UInt8 := text.toUTF8.toList

end TypedJson.Text
