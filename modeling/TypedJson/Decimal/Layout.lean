import TypedJson.Decimal.Shortest

/-! # Writing floating-point numbers

How selected digits are laid out: positionally or with an exponent, with or without a fraction for
whole numbers. A `Layout` holds these decisions for one output format.
-/

namespace TypedJson.Decimal

/-- The decisions of an output format. The exponent of the first digit decides between positional
and exponential notation. -/
structure Layout where
  tie : Tie
  isPositional : Int → Bool
  wholeFraction : String

def digitsOf (n : Nat) : List Char := (toString n).toList

/-- Digits with the point after the given number of them, padded with zeros where needed. -/
def placePoint (layout : Layout) (digits : List Char) (point : Int) : List Char :=
  if point ≤ 0 then '0' :: '.' :: List.replicate (-point).toNat '0' ++ digits
  else if digits.length ≤ point.toNat then
    digits ++ List.replicate (point.toNat - digits.length) '0' ++ layout.wholeFraction.toList
  else digits.take point.toNat ++ '.' :: digits.drop point.toNat

/-- One digit, the point and the other digits if there are more, and a signed exponent. -/
def placeExponent (digits : List Char) (exponent : Int) : List Char :=
  let fraction := if digits.length ≤ 1 then [] else '.' :: digits.drop 1
  let sign := if exponent < 0 then '-' else '+'
  digits.take 1 ++ fraction ++ 'e' :: sign :: digitsOf exponent.natAbs

def Layout.writeMagnitude (layout : Layout) (d : Magnitude) : List Char :=
  let digits := digitsOf d.digits
  let point := d.exponent + digits.length
  if layout.isPositional (point - 1) then placePoint layout digits point
  else placeExponent digits (point - 1)

def signed (x : Float) (text : List Char) : String :=
  String.ofList (if x.toBits >>> 63 = 1 then '-' :: text else text)

def Layout.write (layout : Layout) (x : Float) : String :=
  signed x (layout.writeMagnitude ((Binary.ofBits x.toBits).shortest layout.tie))

/-- Numbers in JSON text: the fewest digits, at least one of them after the point, and an exponent
below `10 ^ -5` and from `10 ^ 16` on. -/
def jsonLayout : Layout := ⟨.even, fun exponent => -5 ≤ exponent && exponent < 16, ".0"⟩

/-- Numbers in type descriptions: the fewest digits and never an exponent. -/
def plainLayout : Layout := ⟨.up, fun _ => true, ""⟩

end TypedJson.Decimal
