import TypedJson.Ty.Basic
import TypedJson.Proofs.Decimal.Rounding
import Mathlib.Data.List.TakeWhile

/-! # Numbers in type descriptions

The text of a number literal is digits with at most one point among them, after a sign for a negative number, and
stands for a decimal that rounds to the number. So two literals with one text hold numbers that no value can tell
apart: `beq_congr_of_literalText`.
-/

namespace TypedJson.Decimal

variable {text digits whole fraction : List Char} {c : Char}

/-- The decimal that digits with at most one point among them are. -/
def Magnitude.ofText (text : List Char) : Magnitude :=
  let fraction := (text.dropWhile (· ≠ '.')).tail
  ⟨Nat.ofDigitChars 10 (text.takeWhile (· ≠ '.') ++ fraction) 0, -fraction.length⟩

/-- A text of digits, with points behind the first of them, stands for a number. -/
structure Denotes (text : List Char) (v : ℚ) : Prop where
  first : ∃ c rest, text = c :: rest ∧ c.isDigit = true
  each : ∀ c ∈ text, c.isDigit = true ∨ c = '.'
  value : (Magnitude.ofText text).value = v

theorem ne_point_of_isDigit (digit : c.isDigit = true) : c ≠ '.' := by
  rintro rfl
  cases digit

theorem Denotes.of_digits (given : digits ≠ []) (areDigits : ∀ c ∈ digits, c.isDigit = true) :
    Denotes digits (Nat.ofDigitChars 10 digits 0 : ℕ) := by
  have noPoint : ∀ c ∈ digits, decide (c ≠ '.') = true := fun c member =>
    decide_eq_true (ne_point_of_isDigit (areDigits c member))
  refine ⟨?_, fun c member => .inl (areDigits c member), ?_⟩
  · obtain ⟨c, rest, rfl⟩ := List.exists_cons_of_ne_nil given
    exact ⟨c, rest, rfl, areDigits c List.mem_cons_self⟩
  · unfold Magnitude.ofText
    rw [List.takeWhile_eq_self_iff.mpr noPoint, List.dropWhile_eq_nil_iff.mpr noPoint]
    simp [Magnitude.value]

theorem Denotes.of_point (given : whole ≠ []) (areDigits : ∀ c ∈ whole, c.isDigit = true)
    (areDigits' : ∀ c ∈ fraction, c.isDigit = true) : Denotes (whole ++ '.' :: fraction)
      (Magnitude.value ⟨Nat.ofDigitChars 10 (whole ++ fraction) 0, -fraction.length⟩) := by
  have noPoint : ∀ c ∈ whole, decide (c ≠ '.') = true := fun c member =>
    decide_eq_true (ne_point_of_isDigit (areDigits c member))
  refine ⟨?_, fun c member => ?_, ?_⟩
  · obtain ⟨c, rest, rfl⟩ := List.exists_cons_of_ne_nil given
    exact ⟨c, rest ++ '.' :: fraction, rfl, areDigits c List.mem_cons_self⟩
  · rcases List.mem_append.mp member with inside | inside
    · exact .inl (areDigits c inside)
    · exact (List.mem_cons.mp inside).elim .inr fun later => .inl (areDigits' c later)
  · unfold Magnitude.ofText
    rw [List.takeWhile_append_of_pos noPoint, List.dropWhile_append_of_pos noPoint]
    simp

theorem Denotes.ne_of_mem {v : ℚ} (denotes : Denotes text v) (member : c ∈ text) :
    c ≠ '-' ∧ c ≠ 'N' ∧ c ≠ 'f' := by
  rcases denotes.each c member with digit | rfl
  · refine ⟨?_, ?_, ?_⟩ <;> rintro rfl <;> cases digit
  · decide

/-! ## Digits around a point -/

theorem digitsOf_eq (n : ℕ) : digitsOf n = Nat.toDigits 10 n := Nat.toList_repr

theorem isDigit_of_mem_digitsOf {n : ℕ} (member : c ∈ digitsOf n) : c.isDigit = true := by
  rw [digitsOf_eq] at member
  exact Nat.isDigit_of_mem_toDigits (by decide) (by decide) member

theorem digitsOf_ne_nil (n : ℕ) : digitsOf n ≠ [] := by
  rw [digitsOf_eq]
  exact Nat.toDigits_ne_nil

theorem ofDigitChars_digitsOf (n : ℕ) : Nat.ofDigitChars 10 (digitsOf n) 0 = n := by
  rw [digitsOf_eq, Nat.ofDigitChars_ten_toDigits]

theorem denotes_digitsOf (n : ℕ) : Denotes (digitsOf n) n := by
  have digits := Denotes.of_digits (digitsOf_ne_nil n) fun _ => isDigit_of_mem_digitsOf
  rwa [ofDigitChars_digitsOf] at digits

theorem isDigit_of_mem_zeros {k : ℕ} (member : c ∈ List.replicate k '0') : c.isDigit = true :=
  List.eq_of_mem_replicate member ▸ rfl

/-- All digits behind the point, after zeros. -/
theorem denotes_behind_point (n k : ℕ) : Denotes ('0' :: '.' :: List.replicate k '0' ++ digitsOf n)
    (Magnitude.value ⟨n, -(k + (digitsOf n).length : ℕ)⟩) := by
  have behind : ∀ c ∈ List.replicate k '0' ++ digitsOf n, c.isDigit = true :=
    List.forall_mem_append.mpr ⟨fun _ => isDigit_of_mem_zeros, fun _ => isDigit_of_mem_digitsOf⟩
  have placed := Denotes.of_point (List.cons_ne_nil '0' []) (List.forall_mem_singleton.mpr rfl) behind
  have padded : Nat.ofDigitChars 10 (['0'] ++ (List.replicate k '0' ++ digitsOf n)) 0 = n := by
    rw [← List.append_assoc, ← List.replicate_one, List.replicate_append_replicate, Nat.ofDigitChars_append,
      Nat.ofDigitChars_replicate_zero, Nat.mul_zero, ofDigitChars_digitsOf]
  rwa [padded, List.length_append, List.length_replicate] at placed

/-- All digits before the point, with zeros after them. -/
theorem denotes_before_point (n k : ℕ) :
    Denotes (digitsOf n ++ List.replicate k '0') (Magnitude.value ⟨n, k⟩) := by
  have digits : ∀ c ∈ digitsOf n ++ List.replicate k '0', c.isDigit = true :=
    List.forall_mem_append.mpr ⟨fun _ => isDigit_of_mem_digitsOf, fun _ => isDigit_of_mem_zeros⟩
  have value : ((Nat.ofDigitChars 10 (digitsOf n ++ List.replicate k '0') 0 : ℕ) : ℚ) = Magnitude.value ⟨n, k⟩ := by
    rw [Nat.ofDigitChars_append, Nat.ofDigitChars_replicate_zero, ofDigitChars_digitsOf, Magnitude.value,
      zpow_natCast]
    push_cast
    ring
  exact value ▸ Denotes.of_digits (by simp [digitsOf_ne_nil]) digits

/-- The point among the digits. -/
theorem denotes_around_point (n : ℕ) {k : ℕ} (positive : 0 < k) :
    Denotes ((digitsOf n).take k ++ '.' :: (digitsOf n).drop k)
      (Magnitude.value ⟨n, -((digitsOf n).length - k : ℕ)⟩) := by
  have given : (digitsOf n).take k ≠ [] := by
    rw [Ne, List.take_eq_nil_iff, or_iff_left (digitsOf_ne_nil n)]
    omega
  have behind : ∀ c ∈ (digitsOf n).drop k, c.isDigit = true := fun c member =>
    isDigit_of_mem_digitsOf (List.mem_of_mem_drop member)
  have placed := Denotes.of_point given (fun c member => isDigit_of_mem_digitsOf (List.mem_of_mem_take member)) behind
  rwa [List.take_append_drop, ofDigitChars_digitsOf, List.length_drop] at placed

/-- Digits placed around a point stand for the digits at their exponent. -/
theorem denotes_placePoint (n : ℕ) (exponent : ℤ) :
    Denotes (placePoint plainLayout (digitsOf n) (exponent + (digitsOf n).length))
      (Magnitude.value ⟨n, exponent⟩) := by
  unfold placePoint
  split
  case isTrue behind =>
    generalize zeros : (-(exponent + (digitsOf n).length)).toNat = k
    have exponent_eq : exponent = -(k + (digitsOf n).length : ℕ) := by omega
    exact exponent_eq ▸ denotes_behind_point n k
  case isFalse =>
    split
    case isTrue before =>
      generalize zeros : (exponent + (digitsOf n).length).toNat - (digitsOf n).length = k
      have exponent_eq : exponent = k := by omega
      have noFraction : plainLayout.wholeFraction.toList = [] := rfl
      rw [noFraction, List.append_nil, exponent_eq]
      exact denotes_before_point n k
    case isFalse around =>
      generalize front : (exponent + (digitsOf n).length).toNat = k
      have exponent_eq : exponent = -((digitsOf n).length - k : ℕ) := by omega
      rw [exponent_eq]
      exact denotes_around_point n (by omega)

theorem denotes_writeMagnitude (d : Magnitude) : Denotes (plainLayout.writeMagnitude d) d.value :=
  denotes_placePoint d.digits d.exponent

namespace Binary

variable {x : Binary} {n : ℕ}

theorem value_of_whole? (whole : x.whole? = some n) : x.value = n := by
  unfold whole? at whole
  split at whole
  case isTrue positive =>
    cases whole
    rw [value, Nat.pow_eq]
    push_cast
    rw [← zpow_natCast, Int.toNat_of_nonneg positive]
  case isFalse negative =>
    split at whole
    case isTrue even =>
      cases whole
      have unit : (2 : ℚ) ^ (-x.exponent).toNat * 2 ^ x.exponent = 1 := by
        rw [← zpow_natCast, ← zpow_add₀ (by norm_num), Int.toNat_of_nonneg (by omega), neg_add_cancel, zpow_zero]
      have significand : (x.significand : ℚ) =
          (x.significand / Nat.pow 2 (-x.exponent).toNat : ℕ) * 2 ^ (-x.exponent).toNat :=
        mod_cast (Nat.div_mul_cancel (Nat.dvd_of_mod_eq_zero even)).symm
      rw [value, significand, mul_assoc, unit, mul_one]
    case isFalse => cases whole

/-- A number is nothing exactly if its significand is. -/
theorem value_eq_zero_iff (x : Binary) : x.value = 0 ↔ x.significand = 0 := by
  rw [value, mul_eq_zero, Nat.cast_eq_zero, or_iff_left (zpow_ne_zero _ (by norm_num))]

theorem whole?_of_zero (zero : x.significand = 0) : x.whole? = some 0 := by
  unfold whole?
  simp [zero]

end Binary
end TypedJson.Decimal

namespace TypedJson

open Decimal Float.Model Float.Model.UnpackedFloat

variable {x y : Float}

/-! ## Floating-point numbers by their bits -/

theorem unpack_of_isNaN (nan : x.isNaN = true) : x.toModel.unpack = .notANumber := by
  change x.toModel.unpack.isNaN = true at nan
  generalize x.toModel.unpack = unpacked at nan
  cases unpacked with
  | notANumber => rfl
  | _ => cases nan

theorem beq_zero (u : UnpackedFloat) (sign sign' : Sign) : u.beq (.zero sign) = u.beq (.zero sign') := by
  cases u with
  | notANumber => rfl
  | zero => rfl
  | infinity s => cases s <;> rfl
  | finite s => cases s <;> rfl

theorem eq_of_toBits (same : x.toBits = y.toBits) : x = y := by
  rcases x with ⟨bits, valid⟩
  rcases y with ⟨bits', valid'⟩
  obtain rfl : bits = bits' := same
  rfl

/-- The bit that is set for a negative number. -/
def signBit (bits : UInt64) : BitVec 1 := @unpackSign Format.binary64 bits.toBitVec

theorem unpack_of_isInf (infinite : x.isInf = true) :
    x.toModel.unpack = .infinity (Sign.ofBitVec (signBit x.toBits)) := by
  change (UnpackedFloat.unpack Format.binary64 x.toBits.toBitVec).isInf = true at infinite
  change UnpackedFloat.unpack Format.binary64 x.toBits.toBitVec = _
  unfold signBit
  generalize x.toBits.toBitVec = bits at infinite
  unfold UnpackedFloat.unpack at infinite ⊢
  dsimp only at infinite ⊢
  by_cases exponent : @unpackExponent Format.binary64 bits = -1#_
  · rw [if_pos exponent] at infinite ⊢
    by_cases fraction : @unpackMantissa Format.binary64 bits = 0#_
    · rw [if_pos fraction]
    · rw [if_neg fraction] at infinite
      cases infinite
  · rw [if_neg exponent] at infinite
    by_cases subnormal : @unpackExponent Format.binary64 bits = 0#_
    · rw [if_pos subnormal] at infinite
      by_cases zero : @unpackMantissa Format.binary64 bits = 0#_
      · rw [dif_pos zero] at infinite
        cases infinite
      · rw [dif_neg zero] at infinite
        cases infinite
    · rw [if_neg subnormal] at infinite
      cases infinite

theorem toNat_signBit (bits : UInt64) : (signBit bits).toNat = bits.toNat / 2 ^ 63 % 2 := by
  unfold signBit unpackSign
  rw [BitVec.toNat_cast, BitVec.extractLsb_toNat, Nat.shiftRight_eq_div_pow]
  rfl

theorem signBit_eq {bits other : UInt64} (same : bits >>> 63 = 1 ↔ other >>> 63 = 1) :
    signBit bits = signBit other := by
  have bound := bits.toNat_lt
  have bound' := other.toNat_lt
  rw [negative_iff, negative_iff] at same
  apply BitVec.eq_of_toNat_eq
  rw [toNat_signBit, toNat_signBit]
  omega

theorem unpack_of_zero (zero : (Binary.ofBits x.toBits).significand = 0) :
    ∃ sign, x.toModel.unpack = .zero sign := by
  rw [Binary.significand_ofBits_eq_zero_iff] at zero
  have bound := x.toBits.toNat_lt
  have bits : x.toBits = 0 ∨ x.toBits = 0x8000000000000000 := by
    rw [← UInt64.toNat_inj, ← UInt64.toNat_inj]
    change x.toBits.toNat = 0 ∨ x.toBits.toNat = 2 ^ 63
    omega
  have unpacked : x.toModel.unpack = UnpackedFloat.unpack Format.binary64 x.toBits.toBitVec := rfl
  rcases bits with bits | bits <;> rw [unpacked, bits]
  · exact ⟨.positive, rfl⟩
  · exact ⟨.negative, rfl⟩

/-! ## Literals -/

/-- A number is shown with a sign: it is negative and not zero. -/
def ShowsSign (x : Float) : Prop := x.toBits >>> 63 = 1 ∧ (Binary.ofBits x.toBits).significand ≠ 0

/-- The text of a number. That of a finite number stands, after its sign, for a decimal that rounds to the number. -/
inductive Written (x : Float) : List Char → Prop
  | nan (nan : x.isNaN = true) : Written x ['N', 'a', 'N']
  | infinite (number : x.isNaN = false) (infinite : x.isInf = true) (positive : ¬ x.toBits >>> 63 = 1) :
      Written x ['i', 'n', 'f']
  | negativeInfinite (number : x.isNaN = false) (infinite : x.isInf = true) (negative : x.toBits >>> 63 = 1) :
      Written x ['-', 'i', 'n', 'f']
  | finite {text : List Char} {v : ℚ} (number : x.isNaN = false) (finite : x.isInf = false)
      (denotes : Denotes text v) (covers : (Binary.ofBits x.toBits).Covers v) (positive : ¬ ShowsSign x) :
      Written x text
  | negative {text : List Char} {v : ℚ} (number : x.isNaN = false) (finite : x.isInf = false)
      (denotes : Denotes text v) (covers : (Binary.ofBits x.toBits).Covers v) (negative : ShowsSign x) :
      Written x ('-' :: text)

theorem written_signed {text : List Char} {v : ℚ} (number : x.isNaN = false) (finite : x.isInf = false)
    (denotes : Denotes text v) (covers : (Binary.ofBits x.toBits).Covers v)
    (nonzero : (Binary.ofBits x.toBits).significand ≠ 0) : Written x (signed x text).toList := by
  unfold signed
  rw [String.toList_ofList]
  split
  case isTrue negative => exact .negative number finite denotes covers ⟨negative, nonzero⟩
  case isFalse positive => exact .finite number finite denotes covers fun shows => positive shows.1

theorem written_literalText (x : Float) : Written x (literalText x).toList := by
  unfold literalText
  split
  case isTrue nan => exact .nan nan
  case isFalse number =>
    rw [Bool.not_eq_true] at number
    split
    case isTrue infinite =>
      unfold signed
      rw [String.toList_ofList]
      split
      case isTrue negative => exact .negativeInfinite number infinite negative
      case isFalse positive => exact .infinite number infinite positive
    case isFalse finite =>
      rw [Bool.not_eq_true] at finite
      split
      case h_1 found =>
        have zero := Binary.value_of_whole? (Option.filter_eq_some_iff.mp found).1
        have covers := (Binary.ofBits x.toBits).covers_value
        rw [zero] at covers
        rw [Nat.cast_zero, Binary.value_eq_zero_iff] at zero
        exact .finite number finite (denotes_digitsOf 0) covers fun shows => shows.2 zero
      case h_2 n positive found =>
        have value := Binary.value_of_whole? (Option.filter_eq_some_iff.mp found).1
        refine written_signed number finite (denotes_digitsOf n) (value ▸ Binary.covers_value _) fun zero => ?_
        exact positive (Nat.cast_eq_zero.mp (value.symm.trans ((Binary.value_eq_zero_iff _).mpr zero)))
      case h_3 found =>
        refine written_signed number finite (denotes_writeMagnitude _) (Binary.covers_shortest _ _) fun zero => ?_
        rw [Binary.whole?_of_zero zero] at found
        cases found

namespace Written

variable {text : List Char}

theorem mem_iff_isNaN (written : Written x text) : 'N' ∈ text ↔ x.isNaN = true := by
  cases written with
  | nan nan => exact iff_of_true List.mem_cons_self nan
  | infinite number => exact iff_of_false (by decide) (Bool.not_eq_true _ ▸ number)
  | negativeInfinite number => exact iff_of_false (by decide) (Bool.not_eq_true _ ▸ number)
  | finite number _ denotes =>
    exact iff_of_false (fun member => (denotes.ne_of_mem member).2.1 rfl) (Bool.not_eq_true _ ▸ number)
  | negative number _ denotes =>
    refine iff_of_false (fun member => ?_) (Bool.not_eq_true _ ▸ number)
    rcases List.mem_cons.mp member with sign | member
    · cases sign
    · exact (denotes.ne_of_mem member).2.1 rfl

theorem mem_iff_isInf (written : Written x text) : 'f' ∈ text ↔ x.isInf = true := by
  cases written with
  | nan nan =>
    have unpacked : x.isInf = x.toModel.unpack.isInf := rfl
    rw [unpacked, unpack_of_isNaN nan]
    decide
  | infinite _ infinite => exact iff_of_true (by decide) infinite
  | negativeInfinite _ infinite => exact iff_of_true (by decide) infinite
  | finite _ finite denotes =>
    exact iff_of_false (fun member => (denotes.ne_of_mem member).2.2 rfl) (Bool.not_eq_true _ ▸ finite)
  | negative _ finite denotes =>
    refine iff_of_false (fun member => ?_) (Bool.not_eq_true _ ▸ finite)
    rcases List.mem_cons.mp member with sign | member
    · cases sign
    · exact (denotes.ne_of_mem member).2.2 rfl

theorem mem_iff_negative (written : Written x text) (infinite : x.isInf = true) :
    '-' ∈ text ↔ x.toBits >>> 63 = 1 := by
  cases written with
  | nan nan =>
    have unpacked : x.isInf = x.toModel.unpack.isInf := rfl
    rw [unpacked, unpack_of_isNaN nan] at infinite
    cases infinite
  | infinite _ _ positive => exact iff_of_false (by decide) positive
  | negativeInfinite _ _ negative => exact iff_of_true List.mem_cons_self negative
  | finite _ finite => exact absurd infinite (Bool.not_eq_true _ ▸ finite)
  | negative _ finite => exact absurd infinite (Bool.not_eq_true _ ▸ finite)

theorem exists_denotes (written : Written x text) (number : x.isNaN = false) (finite : x.isInf = false) :
    ∃ body v, Denotes body v ∧ (Binary.ofBits x.toBits).Covers v ∧
      (ShowsSign x ∧ text = '-' :: body ∨ ¬ ShowsSign x ∧ text = body) := by
  cases written with
  | nan nan => exact absurd nan (Bool.not_eq_true _ ▸ number)
  | infinite _ infinite => exact absurd infinite (Bool.not_eq_true _ ▸ finite)
  | negativeInfinite _ infinite => exact absurd infinite (Bool.not_eq_true _ ▸ finite)
  | finite _ _ denotes covers positive => exact ⟨text, _, denotes, covers, .inr ⟨positive, rfl⟩⟩
  | negative _ _ denotes covers negative => exact ⟨_, _, denotes, covers, .inl ⟨negative, rfl⟩⟩

/-- Two finite numbers with one text are the same, or both are zero. -/
theorem eq_or_zero (written : Written x text) (written' : Written y text) (number : x.isNaN = false)
    (number' : y.isNaN = false) (finite : x.isInf = false) (finite' : y.isInf = false) :
    x = y ∨ (Binary.ofBits x.toBits).significand = 0 ∧ (Binary.ofBits y.toBits).significand = 0 := by
  obtain ⟨body, v, denotes, covers, shown⟩ := written.exists_denotes number finite
  obtain ⟨body', v', denotes', covers', shown'⟩ := written'.exists_denotes number' finite'
  have agree : (ShowsSign x ↔ ShowsSign y) ∧ body = body' := by
    obtain ⟨c, rest, rfl, digit⟩ := denotes.first
    obtain ⟨c', rest', rfl, digit'⟩ := denotes'.first
    rcases shown with ⟨shows, shown⟩ | ⟨shows, shown⟩ <;> rcases shown' with ⟨shows', shown'⟩ | ⟨shows', shown'⟩ <;>
      rw [shown'] at shown
    · exact ⟨iff_of_true shows shows', (List.cons.inj shown).2.symm⟩
    · obtain ⟨rfl, -⟩ := List.cons.inj shown
      cases digit'
    · obtain ⟨rfl, -⟩ := List.cons.inj shown
      cases digit
    · exact ⟨iff_of_false shows shows', shown.symm⟩
  obtain ⟨sign, rfl⟩ := agree
  obtain rfl : v = v' := denotes.value.symm.trans denotes'.value
  have magnitude := covers.unique covers' (Binary.canonical_ofBits _) (Binary.canonical_ofBits _)
  by_cases zero : (Binary.ofBits x.toBits).significand = 0
  · exact .inr ⟨zero, magnitude ▸ zero⟩
  · have negative : x.toBits >>> 63 = 1 ↔ y.toBits >>> 63 = 1 := by
      have zero' : (Binary.ofBits y.toBits).significand ≠ 0 := magnitude ▸ zero
      simpa only [ShowsSign, and_iff_left zero, and_iff_left zero'] using sign
    have bits := Binary.ofBits_inj.mp magnitude
    have bound := x.toBits.toNat_lt
    have bound' := y.toBits.toNat_lt
    rw [negative_iff, negative_iff] at negative
    exact .inl (eq_of_toBits (UInt64.toNat_inj.mp (by omega)))

end Written

/-- Numbers that are written in the same way are equal to the same numbers. -/
theorem beq_congr_of_literalText (same : literalText x = literalText y) (z : Float) : (z == x) = (z == y) := by
  have written := written_literalText x
  have written' : Written y (literalText x).toList := same ▸ written_literalText y
  have number : x.isNaN = y.isNaN := by
    rw [Bool.eq_iff_iff, ← written.mem_iff_isNaN, ← written'.mem_iff_isNaN]
  have finite : x.isInf = y.isInf := by
    rw [Bool.eq_iff_iff, ← written.mem_iff_isInf, ← written'.mem_iff_isInf]
  suffices x = y ∨ z.toModel.unpack.beq x.toModel.unpack = z.toModel.unpack.beq y.toModel.unpack from
    this.elim (fun equal => equal ▸ rfl) id
  cases nan : x.isNaN with
  | true =>
    right
    rw [unpack_of_isNaN nan, unpack_of_isNaN (x := y) (number ▸ nan)]
  | false =>
    cases infinite : x.isInf with
    | true =>
      have infinite' : y.isInf = true := finite ▸ infinite
      have sign : x.toBits >>> 63 = 1 ↔ y.toBits >>> 63 = 1 := by
        rw [← written.mem_iff_negative infinite, ← written'.mem_iff_negative infinite']
      right
      rw [unpack_of_isInf infinite, unpack_of_isInf infinite', signBit_eq sign]
    | false =>
      refine (written.eq_or_zero written' nan (number ▸ nan) infinite (finite ▸ infinite)).imp_right ?_
      rintro ⟨zero, zero'⟩
      obtain ⟨sign, unpacked⟩ := unpack_of_zero zero
      obtain ⟨sign', unpacked'⟩ := unpack_of_zero zero'
      rw [unpacked, unpacked', beq_zero]

end TypedJson
