import TypedJson.Json.Basic
import TypedJson.Json.Cursor
import TypedJson.Text.DecimalDigit

/-! # Numerals

A numeral is first read as it is spelled, in parts, and then evaluated. Digits are collected in a
word of 64 bits; from the first digit that does not fit on, digits are dropped, and the value is
scaled by one multiplication or division with a power of ten.
-/

namespace TypedJson

structure Numeral where
  negative : Bool
  whole : List Char
  fraction : Option (List Char)
  exponent : Option (Bool × List Char)

namespace Numeral

def readDigits (cursor : Cursor) : Except Fault (List Char × Cursor) :=
  match cursor.rest.takeWhile Text.isAsciiDigit with
  | [] => .error (cursor.faultOrEnd .invalidNumber)
  | digits => .ok (digits, cursor.skipWhile Text.isAsciiDigit)

/-- Reads the digits before the point: a leading zero stands alone. -/
def readWhole (cursor : Cursor) : Except Fault (List Char × Cursor) :=
  match cursor.rest with
  | '0' :: rest =>
    if (rest.head?.map Text.isAsciiDigit).getD false then .error (cursor.skip.fault .invalidNumber)
    else .ok (['0'], cursor.skip)
  | _ => readDigits cursor

/-- Reads a point and the digits after it, if there is a point. -/
def readFraction (cursor : Cursor) : Except Fault (Option (List Char) × Cursor) :=
  match cursor.rest with
  | '.' :: _ => do
    let (digits, next) ← readDigits cursor.skip
    .ok (some digits, next)
  | _ => .ok (none, cursor)

/-- Skips the sign of an exponent; the result says whether the exponent is negative. -/
def readSign (cursor : Cursor) : Bool × Cursor :=
  match cursor.rest with
  | '+' :: _ => (false, cursor.skip)
  | '-' :: _ => (true, cursor.skip)
  | _ => (false, cursor)

def readExponent (cursor : Cursor) : Except Fault (Option (Bool × List Char) × Cursor) :=
  match cursor.rest with
  | c :: _ =>
    if c = 'e' || c = 'E' then do
      let (negative, next) := readSign cursor.skip
      let (digits, next) ← readDigits next
      .ok (some (negative, digits), next)
    else .ok (none, cursor)
  | [] => .ok (none, cursor)

/-- Collects digits as long as the number stays below a limit; the rest is given back. -/
def gather (limit : Nat) : Nat → List Char → Nat × List Char
  | n, [] => (n, [])
  | n, c :: rest =>
    if n * 10 + Text.digitValue c < limit then gather limit (n * 10 + Text.digitValue c) rest
    else (n, c :: rest)

/-- The significand and the power of ten of the digits around the point. -/
def significand (numeral : Numeral) : Nat × Int :=
  let (whole, dropped) := gather UInt64.size 0 numeral.whole
  match numeral.fraction with
  | none => (whole, dropped.length)
  | some digits =>
    let (all, unread) := gather UInt64.size whole digits
    (all, (dropped.length : Int) - (digits.length - unread.length : Nat))

/-- Scales by a power of ten. A power beyond the largest one is applied in steps. -/
def scale (steps : Nat) (x : Float) (exponent : Int) : Option Float :=
  if exponent.natAbs ≤ 308 then
    let power := Float.ofScientific 1 false exponent.natAbs
    if 0 ≤ exponent then
      let scaled := x * power
      if scaled.isInf then none else some scaled
    else some (x / power)
  else if x == 0 then some x
  else if 0 ≤ exponent then none
  else match steps with
    | 0 => some 0
    | steps + 1 => scale steps (x / Float.ofScientific 1 false 308) (exponent + 308)

def exponentBound : Nat := 2147483648

def clampExponent (exponent : Int) : Int := max (-exponentBound) (min (exponentBound - 1) exponent)

def signed (numeral : Numeral) (x : Float) : Float := if numeral.negative then -x else x

/-- The floating-point value, or the number of exponent digits that were not looked at when the
value turned out to be out of range. -/
def real (numeral : Numeral) : Except Nat Float :=
  let (significand, shift) := numeral.significand
  let scaled (exponent : Int) : Except Nat Float :=
    match scale 4 significand.toUInt64.toFloat exponent with
    | some x => .ok (numeral.signed x)
    | none => .error 0
  match numeral.exponent with
  | none => scaled shift
  | some (negative, digits) =>
    match gather exponentBound 0 digits with
    | (n, []) => scaled (clampExponent (if negative then shift - n else shift + n))
    | (_, unread) =>
      if significand = 0 || negative then .ok (numeral.signed 0) else .error (unread.length - 1)

/-- The value of a numeral. An integer that does not fit its word is a floating-point number, and so
is a negative zero. -/
def value (numeral : Numeral) : Except Nat Number :=
  match numeral.fraction, numeral.exponent, gather UInt64.size 0 numeral.whole with
  | none, none, (n, []) =>
    if !numeral.negative then .ok (.natural n.toUInt64)
    else if 0 < n && n ≤ 9223372036854775808 then .ok (.negative (Int64.ofInt (-n)))
    else .ok (.real (-n.toUInt64.toFloat))
  | _, _, _ => numeral.real.map .real

def read (cursor : Cursor) : Except Fault (Number × Cursor) := do
  let negative := cursor.rest.head? = some '-'
  let (whole, next) ← readWhole (if negative then cursor.skip else cursor)
  let (fraction, next) ← readFraction next
  let (exponent, next) ← readExponent next
  match value ⟨negative, whole, fraction, exponent⟩ with
  | .ok number => .ok (number, next)
  | .error unread => .error ⟨.numberOutOfRange, ⟨next.mark.line, next.mark.column - unread⟩⟩

end Numeral
end TypedJson
