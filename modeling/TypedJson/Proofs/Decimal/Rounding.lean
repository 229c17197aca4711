import TypedJson.Decimal.Shortest
import Mathlib.Algebra.Order.Field.Power
import Mathlib.Algebra.Order.Field.Rat
import Mathlib.Tactic.Positivity
import Mathlib.Tactic.Ring

/-! # The reals that round to a binary number

A decimal reads back as a binary number if it lies between `Binary.low` and `Binary.high`, where the ends
belong to numbers with an even significand. No decimal reads back as two binary numbers in the form that bits
give them, so the selected decimal of a number, which does read back, is that of no other one.
-/

namespace TypedJson.Decimal

/-- The number that digits and an exponent stand for. -/
def Magnitude.value (d : Magnitude) : ℚ := d.digits * 10 ^ d.exponent

theorem zpow_mul_pow_toNat {base : ℚ} (nonzero : base ≠ 0) (i : ℤ) :
    base ^ i * base ^ (-i).toNat = base ^ i.toNat := by
  rw [← zpow_natCast base (-i).toNat, ← zpow_natCast base i.toNat, ← zpow_add₀ nonzero]
  congr 1
  omega

/-- The comparison in natural numbers is that of the two rational numbers. -/
theorem compareScaled_eq (a b : ℕ) (i j : ℤ) :
    compareScaled a i b j = compare ((a : ℚ) * 10 ^ i) (b * 2 ^ j) := by
  have ten : (10 : ℚ) ^ i * 10 ^ (-i).toNat = 10 ^ i.toNat := zpow_mul_pow_toNat (by norm_num) i
  have two : (2 : ℚ) ^ j * 2 ^ (-j).toNat = 2 ^ j.toNat := zpow_mul_pow_toNat (by norm_num) j
  have positive : (0 : ℚ) < 10 ^ (-i).toNat * 2 ^ (-j).toNat := by positivity
  have left : ((a * Nat.pow 10 i.toNat * Nat.pow 2 (-j).toNat : ℕ) : ℚ) =
      a * 10 ^ i * (10 ^ (-i).toNat * 2 ^ (-j).toNat) := by
    simp only [Nat.pow_eq, Nat.cast_mul, Nat.cast_pow, Nat.cast_ofNat, ← ten]
    ring
  have right : ((b * Nat.pow 2 j.toNat * Nat.pow 10 (-i).toNat : ℕ) : ℚ) =
      b * 2 ^ j * (10 ^ (-i).toNat * 2 ^ (-j).toNat) := by
    simp only [Nat.pow_eq, Nat.cast_mul, Nat.cast_pow, Nat.cast_ofNat, ← two]
    ring
  unfold compareScaled
  rcases lt_trichotomy ((a : ℚ) * 10 ^ i) (b * 2 ^ j) with less | equal | more
  · rw [compare_lt_iff_lt.mpr less, compare_lt_iff_lt, ← Nat.cast_lt (α := ℚ), left, right]
    exact mul_lt_mul_of_pos_right less positive
  · rw [compare_eq_iff_eq.mpr equal, compare_eq_iff_eq, ← Nat.cast_inj (R := ℚ), left, right, equal]
  · rw [compare_gt_iff_gt.mpr more, compare_gt_iff_gt, ← Nat.cast_lt (α := ℚ), left, right]
    exact mul_lt_mul_of_pos_right more positive

namespace Binary

variable {x y : Binary} {d : Magnitude} {v : ℚ}

/-- The number that a significand and an exponent stand for. -/
def value (x : Binary) : ℚ := x.significand * 2 ^ x.exponent

/-- The lower end of the reals that round to a number, in quarters of its unit. -/
def lowQuarters (x : Binary) : ℕ := if x.narrowBelow then 4 * x.significand - 1 else 4 * x.significand - 2

/-- The upper end of the reals that round to a number, in quarters of its unit. -/
def highQuarters (x : Binary) : ℕ := 4 * x.significand + 2

/-- A quarter of the unit of a number. -/
def quarter (x : Binary) : ℚ := 2 ^ (x.exponent - 2)

theorem quarter_pos (x : Binary) : 0 < x.quarter := by unfold quarter; positivity

theorem value_eq_quarters (x : Binary) : x.value = (4 * x.significand : ℕ) * x.quarter := by
  have four : (2 : ℚ) ^ x.exponent = 4 * 2 ^ (x.exponent - 2) := by
    rw [zpow_sub₀ (by norm_num)]
    ring
  rw [value, quarter, four]
  push_cast
  ring

/-- A binary number covers the numbers that round to it: those between the ends of its interval, and the ends
themselves where the significand is even. -/
structure Covers (x : Binary) (v : ℚ) : Prop where
  above : x.lowQuarters * x.quarter < v ∨ x.significand % 2 = 0 ∧ x.lowQuarters * x.quarter = v
  below : v < x.highQuarters * x.quarter ∨ x.significand % 2 = 0 ∧ v = x.highQuarters * x.quarter

theorem readsBack_iff : x.readsBack d = true ↔ x.Covers d.value := by
  have low : compareScaled d.digits d.exponent x.lowQuarters (x.exponent - 2) =
      compare d.value (x.lowQuarters * x.quarter) := compareScaled_eq ..
  have high : compareScaled d.digits d.exponent x.highQuarters (x.exponent - 2) =
      compare d.value (x.highQuarters * x.quarter) := compareScaled_eq ..
  unfold lowQuarters at low
  unfold highQuarters at high
  simp only [readsBack, low, high, Bool.and_eq_true, Bool.or_eq_true, beq_iff_eq, compare_gt_iff_gt,
    compare_eq_iff_eq, compare_lt_iff_lt]
  exact ⟨fun ⟨above, below⟩ => ⟨above.imp_right (And.imp_right Eq.symm), below⟩,
    fun ⟨above, below⟩ => ⟨above.imp_right (And.imp_right Eq.symm), below⟩⟩

theorem covers_value (x : Binary) : x.Covers x.value := by
  have quarter_pos := x.quarter_pos
  rw [value_eq_quarters]
  constructor
  · rcases Nat.eq_zero_or_pos x.significand with zero | positive
    · right
      simp [zero, lowQuarters]
    · left
      have less : x.lowQuarters < 4 * x.significand := by
        unfold lowQuarters
        split <;> omega
      exact mul_lt_mul_of_pos_right (Nat.cast_lt.mpr less) quarter_pos
  · left
    exact mul_lt_mul_of_pos_right (Nat.cast_lt.mpr (by unfold highQuarters; omega)) quarter_pos

/-! ## The selected decimal -/

theorem nearer_eq (x : Binary) (tie : Tie) (digits : ℕ) (exponent : ℤ) :
    x.nearer tie digits exponent = digits ∨ x.nearer tie digits exponent = digits + 1 := by
  unfold nearer
  split
  · exact .inl rfl
  · exact .inr rfl
  · split
    · exact .inl rfl
    · exact .inr rfl

theorem readsBack_of_onGrid? {tie : Tie} {exponent : ℤ} (found : x.onGrid? tie exponent = some d) :
    x.readsBack d = true := by
  unfold onGrid? at found
  simp only at found
  split at found
  case h_1 below above =>
    cases found
    rcases x.nearer_eq tie (x.floorOn exponent) exponent with same | same <;> rw [same] <;> assumption
  case h_2 below _ =>
    cases found
    exact below
  case h_3 _ above =>
    cases found
    exact above
  case h_4 => cases found

theorem readsBack_of_search {tie : Tie} {steps : ℕ} {exponent : ℤ}
    (found : x.search tie exponent steps = some d) : x.readsBack d = true := by
  induction steps generalizing exponent with
  | zero => cases found
  | succ steps ih =>
    rw [search] at found
    split at found
    case h_1 onGrid =>
      cases found
      exact readsBack_of_onGrid? onGrid
    case h_2 => exact ih found

theorem value_exact (x : Binary) : x.exact.value = x.value := by
  unfold exact
  split
  case isTrue positive =>
    simp only [Magnitude.value, value, Nat.pow_eq, Nat.cast_mul, Nat.cast_pow, Nat.cast_ofNat, zpow_zero, mul_one,
      ← zpow_natCast, Int.toNat_of_nonneg positive]
  case isFalse negative =>
    have ten : (10 : ℚ) ^ x.exponent = 2 ^ x.exponent * 5 ^ x.exponent := by
      rw [← mul_zpow]
      norm_num
    have five : (5 : ℚ) ^ (-x.exponent).toNat * 5 ^ x.exponent = 1 := by
      rw [← zpow_natCast, ← zpow_add₀ (by norm_num), Int.toNat_of_nonneg (by omega), neg_add_cancel, zpow_zero]
    rw [Magnitude.value, Nat.pow_eq, ten]
    push_cast
    calc (x.significand : ℚ) * 5 ^ (-x.exponent).toNat * (2 ^ x.exponent * 5 ^ x.exponent)
        = x.significand * 2 ^ x.exponent * (5 ^ (-x.exponent).toNat * 5 ^ x.exponent) := by ring
      _ = x.value := by rw [five, mul_one, value]

theorem value_stripZeros (steps : ℕ) (d : Magnitude) : (stripZeros steps d).value = d.value := by
  induction steps generalizing d with
  | zero => rfl
  | succ steps ih =>
    rw [stripZeros]
    split
    case isTrue tens =>
      have digits : (d.digits : ℚ) = (d.digits / 10 : ℕ) * 10 :=
        mod_cast (Nat.div_mul_cancel (Nat.dvd_of_mod_eq_zero tens)).symm
      rw [ih, Magnitude.value, Magnitude.value, digits, zpow_add_one₀ (by norm_num)]
      ring
    case isFalse => rfl

/-- The selected decimal of a number rounds to it. -/
theorem covers_shortest (x : Binary) (tie : Tie) : x.Covers (x.shortest tie).value := by
  unfold shortest
  split
  case isTrue zero =>
    have none : (⟨0, 0⟩ : Magnitude).value = x.value := by simp [Magnitude.value, value, zero]
    exact none ▸ x.covers_value
  case isFalse =>
    rw [value_stripZeros]
    cases found : x.search tie x.scale 18 with
    | some d => exact readsBack_iff.mp (readsBack_of_search found)
    | none => exact x.value_exact ▸ x.covers_value

/-! ## One number only -/

/-- The form that bits give a magnitude: as many digits as there is room for unless the exponent is the least,
and an interval that is narrow below the powers of two. -/
structure Canonical (x : Binary) : Prop where
  bound : x.significand < 2 ^ 53
  exponent : -1074 ≤ x.exponent
  full : -1074 < x.exponent → 2 ^ 52 ≤ x.significand
  narrow : x.narrowBelow = true ↔ x.significand = 2 ^ 52 ∧ -1074 < x.exponent

/-- The intervals of two numbers to which the same number rounds overlap, or touch at an end of both. -/
theorem Covers.overlap (rounds : x.Covers v) (other : y.Covers v) :
    y.lowQuarters * y.quarter < x.highQuarters * x.quarter ∨
      x.significand % 2 = 0 ∧ y.significand % 2 = 0 ∧ y.lowQuarters * y.quarter = x.highQuarters * x.quarter := by
  rcases other.above with above | ⟨even, above⟩ <;> rcases rounds.below with below | ⟨even', below⟩
  · exact .inl (above.trans below)
  · exact .inl (above.trans_eq below)
  · exact .inl (above.trans_lt below)
  · exact .inr ⟨even', even, above.trans below⟩

/-- Quarters of a number with a larger exponent, counted in quarters of the other. -/
theorem quarter_eq (ordered : x.exponent ≤ y.exponent) :
    y.quarter = (2 ^ (y.exponent - x.exponent).toNat : ℕ) * x.quarter := by
  rw [quarter, quarter, Nat.cast_pow, Nat.cast_ofNat, ← zpow_natCast, ← zpow_add₀ (by norm_num)]
  congr 1
  omega

theorem Covers.overlap_quarters (rounds : x.Covers v) (other : y.Covers v)
    (ordered : x.exponent ≤ y.exponent) :
    y.lowQuarters * 2 ^ (y.exponent - x.exponent).toNat < x.highQuarters ∨
      x.significand % 2 = 0 ∧ y.significand % 2 = 0 ∧
        y.lowQuarters * 2 ^ (y.exponent - x.exponent).toNat = x.highQuarters := by
  have overlap := rounds.overlap other
  rw [quarter_eq ordered, ← mul_assoc, ← Nat.cast_mul, mul_lt_mul_iff_left₀ x.quarter_pos,
    mul_left_inj' x.quarter_pos.ne', Nat.cast_lt, Nat.cast_inj] at overlap
  exact overlap

/-- Of two numbers to which the same number rounds, neither has the larger exponent. -/
theorem Covers.exponent_le (rounds : x.Covers v) (other : y.Covers v) (canonical : x.Canonical)
    (canonical' : y.Canonical) : y.exponent ≤ x.exponent := by
  by_contra larger
  have full := canonical'.full (by have := canonical.exponent; omega)
  have bound := canonical.bound
  -- The interval of the larger number begins a quarter below the first power of two above the smaller one.
  have low : 2 ^ 54 - 1 ≤ y.lowQuarters := by
    have narrow := canonical'.narrow
    unfold lowQuarters
    split <;> rename_i wide
    · omega
    · have : y.significand ≠ 2 ^ 52 := fun least =>
        wide (narrow.mpr ⟨least, by have := canonical.exponent; omega⟩)
      omega
  have units : 2 ≤ 2 ^ (y.exponent - x.exponent).toNat := Nat.le_self_pow (by omega) 2
  have product : (2 ^ 54 - 1) * 2 ≤ y.lowQuarters * 2 ^ (y.exponent - x.exponent).toNat :=
    Nat.mul_le_mul low units
  have overlap := rounds.overlap_quarters other (by omega)
  unfold highQuarters at overlap
  omega

/-- A number rounds to at most one binary number. -/
theorem Covers.unique (rounds : x.Covers v) (other : y.Covers v) (canonical : x.Canonical)
    (canonical' : y.Canonical) : x = y := by
  have exponent : x.exponent = y.exponent :=
    le_antisymm (other.exponent_le rounds canonical' canonical) (rounds.exponent_le other canonical canonical')
  have forth := rounds.overlap_quarters other exponent.le
  have back := other.overlap_quarters rounds exponent.ge
  have significand : x.significand = y.significand := by
    simp only [exponent, sub_self, Int.toNat_zero, pow_zero, mul_one, lowQuarters, highQuarters] at forth back
    split at forth <;> split at back <;> omega
  have narrow : x.narrowBelow = y.narrowBelow := by
    rw [Bool.eq_iff_iff, canonical.narrow, canonical'.narrow, significand, exponent]
  cases x
  cases y
  simp_all

end Binary

/-! ## The bits -/

theorem scale_eq (bits : UInt64) : ((bits >>> 52) &&& 0x7FF).toNat = bits.toNat / 2 ^ 52 % 2 ^ 11 := by
  rw [UInt64.toNat_and, UInt64.toNat_shiftRight, Nat.shiftRight_eq_div_pow]
  exact Nat.and_two_pow_sub_one_eq_mod _ 11

theorem fraction_eq (bits : UInt64) : (bits &&& 0xFFFFFFFFFFFFF).toNat = bits.toNat % 2 ^ 52 := by
  rw [UInt64.toNat_and]
  exact Nat.and_two_pow_sub_one_eq_mod _ 52

theorem negative_iff (bits : UInt64) : bits >>> 63 = 1 ↔ 2 ^ 63 ≤ bits.toNat := by
  have bound := bits.toNat_lt
  rw [← UInt64.toNat_inj, UInt64.toNat_shiftRight, Nat.shiftRight_eq_div_pow]
  change bits.toNat / 2 ^ 63 = 1 ↔ _
  omega

/-- All bits but the sign. -/
theorem magnitude_bits (n : ℕ) : n % 2 ^ 63 = n % 2 ^ 52 + 2 ^ 52 * (n / 2 ^ 52 % 2 ^ 11) :=
  Nat.mod_mul (a := 2 ^ 52) (b := 2 ^ 11)

namespace Binary

theorem canonical_ofBits (bits : UInt64) : (ofBits bits).Canonical := by
  have fraction : bits.toNat % 2 ^ 52 < 2 ^ 52 := Nat.mod_lt _ (by positivity)
  unfold ofBits
  simp only [scale_eq, fraction_eq]
  split
  case isTrue => exact ⟨by simp only; omega, le_rfl, fun less => absurd less (lt_irrefl _), by simp⟩
  case isFalse positive =>
    refine ⟨by simp only; omega, by simp only; omega, fun _ => by simp only; omega, ?_⟩
    simp only [Bool.and_eq_true, beq_iff_eq, decide_eq_true_eq]
    omega

/-- A magnitude tells the bits but for the sign. -/
theorem ofBits_inj {bits other : UInt64} :
    ofBits bits = ofBits other ↔ bits.toNat % 2 ^ 63 = other.toNat % 2 ^ 63 := by
  have bound := Nat.mod_lt bits.toNat (y := 2 ^ 52) (by positivity)
  have bound' := Nat.mod_lt other.toNat (y := 2 ^ 52) (by positivity)
  unfold ofBits
  simp only [scale_eq, fraction_eq, magnitude_bits]
  generalize bits.toNat % 2 ^ 52 = fraction, bits.toNat / 2 ^ 52 % 2 ^ 11 = scale at *
  generalize other.toNat % 2 ^ 52 = fraction', other.toNat / 2 ^ 52 % 2 ^ 11 = scale' at *
  split <;> split <;> simp only [mk.injEq, and_true]
  · omega
  · omega
  · omega
  · constructor
    · omega
    · intro same
      have : scale = scale' ∧ fraction = fraction' := by omega
      simp [this]

theorem significand_ofBits_eq_zero_iff {bits : UInt64} :
    (ofBits bits).significand = 0 ↔ bits.toNat % 2 ^ 63 = 0 := by
  unfold ofBits
  simp only [scale_eq, fraction_eq, magnitude_bits]
  split <;> simp only <;> omega

end Binary
end TypedJson.Decimal
