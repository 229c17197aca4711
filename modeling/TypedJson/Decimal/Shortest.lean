/-! # The shortest decimal of a binary number

A binary floating-point number stands for all reals that round to it. Among the decimals in that
interval `Binary.shortest` selects one with the fewest digits and, of those, the nearest to the
number itself. The comparison is exact, in natural numbers.
-/

namespace TypedJson.Decimal

/-- A finite magnitude `significand * 2 ^ exponent`. The reals that round to it from below reach half
as far when the next smaller number is half as far away. -/
structure Binary where
  significand : Nat
  exponent : Int
  narrowBelow : Bool

def Binary.ofBits (bits : UInt64) : Binary :=
  let scale := ((bits >>> 52) &&& 0x7FF).toNat
  let fraction := (bits &&& 0xFFFFFFFFFFFFF).toNat
  if scale = 0 then ⟨fraction, -1074, false⟩
  else ⟨4503599627370496 + fraction, (scale : Int) - 1075, fraction == 0 && scale > 1⟩

/-- A decimal magnitude `digits * 10 ^ exponent`. -/
structure Magnitude where
  digits : Nat
  exponent : Int
  deriving DecidableEq, Repr

/-- Which of two equally near decimals of the same length is selected. -/
inductive Tie where
  | even
  | up
  deriving DecidableEq

/-- Compares `a * 10 ^ i` with `b * 2 ^ j`. -/
def compareScaled (a : Nat) (i : Int) (b : Nat) (j : Int) : Ordering :=
  compare (a * Nat.pow 10 i.toNat * Nat.pow 2 (-j).toNat) (b * Nat.pow 2 j.toNat * Nat.pow 10 (-i).toNat)

namespace Binary

variable (x : Binary)

/-- The decimal lies among the reals that round to the number; the ends of the interval belong to
the number with the even significand. -/
def readsBack (d : Magnitude) : Bool :=
  let low := if x.narrowBelow then 4 * x.significand - 1 else 4 * x.significand - 2
  let high := 4 * x.significand + 2
  let even := x.significand % 2 == 0
  let atLow := compareScaled d.digits d.exponent low (x.exponent - 2)
  let atHigh := compareScaled d.digits d.exponent high (x.exponent - 2)
  (atLow == .gt || (even && atLow == .eq)) && (atHigh == .lt || (even && atHigh == .eq))

/-- The number as a natural number, if it is one. -/
def whole? : Option Nat :=
  if 0 ≤ x.exponent then some (x.significand * Nat.pow 2 x.exponent.toNat)
  else if x.significand % Nat.pow 2 (-x.exponent).toNat = 0 then
    some (x.significand / Nat.pow 2 (-x.exponent).toNat)
  else none

/-- The number divided by a power of ten, rounded down. -/
def floorOn (exponent : Int) : Nat :=
  (x.significand * Nat.pow 2 x.exponent.toNat * Nat.pow 10 (-exponent).toNat) /
    (Nat.pow 2 (-x.exponent).toNat * Nat.pow 10 exponent.toNat)

def isBelowPower (exponent : Int) : Bool :=
  compareScaled 1 exponent x.significand x.exponent == .gt

/-- The nearer of two neighbours `digits` and `digits + 1` on a decimal grid. -/
def nearer (tie : Tie) (digits : Nat) (exponent : Int) : Nat :=
  match compareScaled (2 * digits + 1) exponent (2 * x.significand) x.exponent with
  | .gt => digits
  | .lt => digits + 1
  | .eq => if tie = .even ∧ digits % 2 = 0 then digits else digits + 1

/-- The selected neighbour of the number on one decimal grid, if one of the two reads back. -/
def onGrid? (tie : Tie) (exponent : Int) : Option Magnitude :=
  let below := x.floorOn exponent
  match x.readsBack ⟨below, exponent⟩, x.readsBack ⟨below + 1, exponent⟩ with
  | true, true => some ⟨x.nearer tie below exponent, exponent⟩
  | true, false => some ⟨below, exponent⟩
  | false, true => some ⟨below + 1, exponent⟩
  | false, false => none

/-- The least exponent of a power of ten above the number, found from an estimate. -/
def scaleFrom (estimate : Int) : Nat → Int
  | 0 => estimate
  | steps + 1 => if x.isBelowPower estimate then estimate else scaleFrom (estimate + 1) steps

/-- The least `k` with the number below `10 ^ k`. -/
def scale : Int :=
  x.scaleFrom (((Nat.log2 x.significand : Int) + x.exponent) * 30103 / 100000 - 1) 4

/-- Moves zeros at the end of the digits into the exponent. -/
def stripZeros : Nat → Magnitude → Magnitude
  | 0, d => d
  | steps + 1, d => if d.digits % 10 = 0 then stripZeros steps ⟨d.digits / 10, d.exponent + 1⟩ else d

/-- The first grid, from coarse to fine, on which a neighbour of the number reads back. -/
def search (tie : Tie) (exponent : Int) : Nat → Option Magnitude
  | 0 => none
  | steps + 1 => match x.onGrid? tie exponent with
    | some d => some d
    | none => search tie (exponent - 1) steps

def exact : Magnitude :=
  if 0 ≤ x.exponent then ⟨x.significand * Nat.pow 2 x.exponent.toNat, 0⟩
  else ⟨x.significand * Nat.pow 5 (-x.exponent).toNat, x.exponent⟩

/-- The decimal with the fewest digits that reads back; zero is written with one digit. -/
def shortest (tie : Tie) : Magnitude :=
  if x.significand = 0 then ⟨0, 0⟩
  else
    let d := (x.search tie x.scale 18).getD x.exact
    stripZeros 800 d

end Binary
end TypedJson.Decimal
