import TypedJson.Position
import Mathlib.Data.List.DropRight

/-! # Positions along a text

A byte offset that does not fall inside a character cuts a text in two, and the position there is that
after the first part. Behind a text that ends a line, positions are those of what follows, moved down by
the lines of that text.
-/

namespace TypedJson

namespace Text

variable {text before after front back : List Char} {offset : ℕ}

theorem length_le_byteLength (text : List Char) : text.length ≤ byteLength text := by
  induction text with
  | nil => exact Nat.le_refl 0
  | cons c rest ih =>
    have wide := c.utf8Size_pos
    rw [List.length_cons, byteLength]
    omega

/-- A text is cut at a byte offset exactly if so many bytes stand before the cut. -/
theorem splitAtByte?_eq_some_iff :
    splitAtByte? text offset = some (before, after) ↔ text = before ++ after ∧ byteLength before = offset := by
  induction text generalizing offset before after with
  | nil =>
    cases offset with
    | zero => cases before <;> simp [splitAtByte?, byteLength, eq_comm]
    | succ offset => cases before <;> simp [splitAtByte?, byteLength]
  | cons c rest ih =>
    have wide := c.utf8Size_pos
    cases offset with
    | zero =>
      cases before with
      | nil => simp [splitAtByte?, byteLength]
      | cons d before => simp [splitAtByte?, byteLength, Nat.ne_of_gt d.utf8Size_pos]
    | succ offset =>
      rw [splitAtByte?]
      split
      case isTrue fits =>
        simp only [Option.map_eq_some_iff, Prod.exists, Prod.mk.injEq, ih]
        constructor
        · rintro ⟨before, after, ⟨rfl, bytes⟩, rfl, rfl⟩
          exact ⟨rfl, by rw [byteLength, bytes]; omega⟩
        · rintro ⟨split, bytes⟩
          cases before with
          | nil => cases bytes
          | cons d before =>
            obtain ⟨rfl, rfl⟩ := List.cons.inj split
            rw [byteLength] at bytes
            exact ⟨before, after, ⟨rfl, by omega⟩, rfl, rfl⟩
      case isFalse exceeds =>
        constructor
        · intro none
          cases none
        rintro ⟨split, bytes⟩
        cases before with
        | nil => cases bytes
        | cons d before =>
          obtain ⟨rfl, rfl⟩ := List.cons.inj split
          rw [byteLength] at bytes
          omega

/-- Behind a text, a cut goes through what follows the text. -/
theorem splitAtByte?_append (front back : List Char) (offset : ℕ) :
    splitAtByte? (front ++ back) (byteLength front + offset) =
      (splitAtByte? back offset).map fun split => (front ++ split.1, split.2) := by
  ext ⟨before, after⟩
  simp only [Option.map_eq_some_iff, Prod.exists, Prod.mk.injEq, splitAtByte?_eq_some_iff]
  constructor
  · rintro ⟨split, bytes⟩
    rcases List.append_eq_append_iff.mp split with ⟨gap, rfl, rfl⟩ | ⟨gap, rfl, rfl⟩
    · rw [byteLength_append, Nat.add_left_cancel_iff] at bytes
      exact ⟨gap, after, ⟨rfl, bytes⟩, rfl, rfl⟩
    · -- nothing fits between a cut that comes too early and the end of the text
      rw [byteLength_append] at bytes
      have short := length_le_byteLength gap
      obtain rfl := List.length_eq_zero_iff.mp (by omega : gap.length = 0)
      exact ⟨[], back, ⟨rfl, by rw [byteLength]; omega⟩, by simp, rfl⟩
  · rintro ⟨between, rest, ⟨rfl, bytes⟩, rfl, rfl⟩
    rw [List.append_assoc, byteLength_append, bytes]
    exact ⟨rfl, rfl⟩

theorem lastLine_eq_rtakeWhile (text : List Char) : lastLine text = text.rtakeWhile (· != '\n') := rfl

/-- The last line of two texts is that of the second one, together with that of the first one if the
second one ends no line. -/
theorem lastLine_append (front back : List Char) :
    lastLine (front ++ back) = if '\n' ∈ back then lastLine back else lastLine front ++ back := by
  induction back using List.reverseRecOn with
  | nil => simp
  | append_singleton back c ih =>
    simp only [lastLine_eq_rtakeWhile, ← List.append_assoc, List.rtakeWhile_concat] at ih ⊢
    by_cases newline : c = '\n'
    · simp [newline]
    · simp only [bne_iff_ne.mpr newline, if_true, ih, List.mem_append, List.mem_singleton, Ne.symm newline, or_false]
      split <;> simp

theorem lastLine_of_not_mem (whole : '\n' ∉ text) : lastLine text = text :=
  List.rtakeWhile_eq_self_iff.mpr fun _ member => bne_iff_ne.mpr (ne_of_mem_of_not_mem member whole)

/-- A text ends a line if nothing stands after its last line feed. -/
theorem lastLine_newline (text : List Char) : lastLine (text ++ ['\n']) = [] :=
  List.rtakeWhile_concat_neg _ text '\n' (by decide)

theorem newline_not_mem_lastLine (text : List Char) : '\n' ∉ lastLine text := fun inside =>
  absurd (List.mem_rtakeWhile_imp inside) (by decide)

/-- Lines that are ended one by one have as many line feeds as there are lines. -/
theorem count_newline_flatMap {lines : List (List Char)} (whole : ∀ line ∈ lines, '\n' ∉ line) :
    (lines.flatMap (· ++ ['\n'])).count '\n' = lines.length := by
  induction lines with
  | nil => rfl
  | cons line others ih =>
    have first : line.count '\n' = 0 := List.count_eq_zero.mpr (whole line (List.mem_cons_self ..))
    have rest := ih fun other member => whole other (List.mem_cons_of_mem _ member)
    rw [List.flatMap_cons, List.count_append, List.count_append, first, rest]
    simp [Nat.add_comm]

/-- After a text that ends a line, the last line is that of what follows. -/
theorem lastLine_append_of_nil (ends : lastLine front = []) : lastLine (front ++ back) = lastLine back := by
  rw [lastLine_append]
  split
  case isTrue => rfl
  case isFalse whole => rw [ends, List.nil_append, lastLine_of_not_mem whole]

end Text

namespace Position

variable {text front back : List Char} {position : Position} {offset : ℕ}

theorem atByte?_eq_some_iff : atByte? text offset = some position ↔
    ∃ before rest, text = before ++ rest ∧ Text.byteLength before = min offset (Text.byteLength text) ∧
      after before = position := by
  simp only [atByte?, Option.map_eq_some_iff, Prod.exists, Text.splitAtByte?_eq_some_iff, and_assoc]

/-- Where a text is cut, the position is that behind the first part. -/
theorem atByte?_byteLength (front back : List Char) :
    atByte? (front ++ back) (Text.byteLength front) = some (after front) := by
  refine atByte?_eq_some_iff.mpr ⟨front, back, rfl, ?_, rfl⟩
  rw [Text.byteLength_append]
  omega

/-- In a text that is not too long, the numbers of a position are those of its line and its character. -/
theorem toNat_after (short : text.length < UInt32.size) :
    (after text).line.toNat = text.count '\n' ∧ (after text).character.toNat = (Text.lastLine text).length := by
  have lines : text.count '\n' ≤ text.length := List.count_le_length
  have characters : (Text.lastLine text).length ≤ text.length := (List.rtakeWhile_suffix _ text).length_le
  exact ⟨UInt32.toNat_ofNat_of_lt' (by omega), UInt32.toNat_ofNat_of_lt' (by omega)⟩

/-- Positions come in the order of their lines, and on one line in that of their characters. -/
instance : LT Position where
  lt first second := first.line < second.line ∨ first.line = second.line ∧ first.character < second.character

instance : LE Position where
  le first second := first < second ∨ first = second

theorem lt_iff {first second : Position} : first < second ↔
    first.line < second.line ∨ first.line = second.line ∧ first.character < second.character := Iff.rfl

theorem le_iff {first second : Position} : first ≤ second ↔ first < second ∨ first = second := Iff.rfl

/-- Without a line feed, what follows a text only makes its last line longer. -/
theorem toNat_after_append_of_inLine (short : (front ++ back).length < UInt32.size) (inLine : '\n' ∉ back) :
    (after (front ++ back)).line = (after front).line ∧
      (after (front ++ back)).character.toNat = (after front).character.toNat + back.length := by
  have shorter : front.length < UInt32.size := by
    rw [List.length_append] at short
    omega
  obtain ⟨line, character⟩ := toNat_after short
  obtain ⟨line', character'⟩ := toNat_after shorter
  rw [List.count_append, List.count_eq_zero.mpr inLine, Nat.add_zero] at line
  rw [Text.lastLine_append, if_neg inLine, List.length_append] at character
  exact ⟨UInt32.toNat_inj.mp (line.trans line'.symm), by omega⟩

/-- In a text that is not too long, positions come in the order of the places that they are of. -/
theorem after_lt_after_append (short : (front ++ back).length < UInt32.size) (given : back ≠ []) :
    after front < after (front ++ back) := by
  rw [lt_iff, UInt32.lt_iff_toNat_lt, UInt32.lt_iff_toNat_lt]
  by_cases ends : '\n' ∈ back
  · have shorter : front.length < UInt32.size := by
      rw [List.length_append] at short
      omega
    have more : 0 < back.count '\n' := List.count_pos_iff.mpr ends
    rw [(toNat_after short).1, (toNat_after shorter).1, List.count_append]
    omega
  · obtain ⟨line, character⟩ := toNat_after_append_of_inLine short ends
    have more : 0 < back.length := List.length_pos_iff.mpr given
    exact .inr ⟨line.symm, by omega⟩

theorem after_le_after_append (short : (front ++ back).length < UInt32.size) :
    after front ≤ after (front ++ back) := by
  by_cases none : back = []
  · exact .inr (by rw [none, List.append_nil])
  · exact .inl (after_lt_after_append short none)

theorem start_le (position : Position) : start ≤ position := by
  obtain ⟨line, character⟩ := position
  rw [le_iff, lt_iff]
  simp only [start, UInt32.lt_iff_toNat_lt, ← UInt32.toNat_inj, Position.mk.injEq, UInt32.toNat_zero]
  omega

/-- A position after a text that ends a line, counted from the end of that text. -/
theorem after_append (ends : Text.lastLine front = [])
    (few : front.count '\n' + back.count '\n' < UInt32.size) :
    after (front ++ back) = (after back).down (front.count '\n').toUInt32 := by
  have lines : (front.count '\n').toUInt32.toNat = front.count '\n' := UInt32.toNat_ofNat_of_lt' (by omega)
  have more : (back.count '\n').toUInt32.toNat = back.count '\n' := UInt32.toNat_ofNat_of_lt' (by omega)
  simp only [after, down, addCapped, Text.lastLine_append_of_nil ends, lines, more]
  rw [if_pos (by omega), List.count_append, Nat.add_comm]
  exact congrArg (Position.mk · _) (UInt32.ofNat_add ..)

/-- Behind a text that ends a line, positions are those of what follows, moved down. -/
theorem atByte?_append (ends : Text.lastLine front = [])
    (few : front.count '\n' + back.count '\n' < UInt32.size) (offset : ℕ) :
    atByte? (front ++ back) (Text.byteLength front + offset) =
      (atByte? back offset).map (·.down (front.count '\n').toUInt32) := by
  rw [atByte?, Text.byteLength_append, Nat.add_min_add_left, Text.splitAtByte?_append, atByte?, Option.map_map,
    Option.map_map]
  cases split : Text.splitAtByte? back (min offset (Text.byteLength back)) with
  | none => rfl
  | some parts =>
    obtain ⟨rfl, -⟩ := Text.splitAtByte?_eq_some_iff.mp split
    rw [List.count_append] at few
    exact congrArg some (after_append ends (by omega))

/-- Before the end of a text that ends a line, positions are on the lines of that text. -/
theorem line_lt_of_atByte? (ends : Text.lastLine front = []) (few : front.count '\n' < UInt32.size)
    (within : offset < Text.byteLength front) (stands : atByte? (front ++ back) offset = some position) :
    position.line < (front.count '\n').toUInt32 := by
  obtain ⟨before, rest, split, bytes, rfl⟩ := atByte?_eq_some_iff.mp stands
  rw [Text.byteLength_append] at bytes
  rcases List.append_eq_append_iff.mp split with ⟨gap, rfl, -⟩ | ⟨gap, rfl, -⟩
  · rw [Text.byteLength_append] at bytes
    omega
  · -- a line ends between the position and the end of the text
    have more : 0 < gap.count '\n' := by
      rw [List.count_pos_iff]
      by_contra none
      rw [Text.lastLine_append, if_neg none, List.append_eq_nil_iff] at ends
      rw [ends.2, List.append_nil] at within
      omega
    rw [List.count_append] at few ⊢
    rw [UInt32.lt_iff_toNat_lt, after, UInt32.toNat_ofNat_of_lt' (by omega), UInt32.toNat_ofNat_of_lt' (by omega)]
    omega

end Position
end TypedJson
