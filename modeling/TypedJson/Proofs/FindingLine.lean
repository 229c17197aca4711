import TypedJson.CheckerOutput
import Mathlib.Data.List.Infix
import Mathlib.Data.List.TakeWhile

/-! # The line of a finding

A `Place` is what stands behind the file on the line of a finding. A line is read as the shortest file that a place
follows. Every place has a mark in it, and a file without a mark is read as a whole, whatever parentheses and
digits are in it: `Finding.ofLine?_append`.
-/

namespace TypedJson.Finding

/-- Digits of any scripts. -/
structure Digits where
  text : List Char
  given : text ≠ []
  areDigits : ∀ c ∈ text, Text.isDecimalDigit c = true

/-- How bad a finding is. -/
inductive Severity where
  | error
  | warning

/-- A severity with the letters that a code begins with. -/
def Severity.text : Severity → String
  | error => "error TS"
  | warning => "warning TS"

/-- What stands between the column and the code of a finding. -/
def Severity.mark (severity : Severity) : List Char := "): ".toList ++ severity.text.toList

/-- What stands behind the file on the line of a finding. -/
structure Place where
  line : Digits
  column : Digits
  severity : Severity
  code : Digits
  message : List Char

namespace Place

/-- A place as it is written. -/
def text (place : Place) : List Char :=
  '(' :: (place.line.text ++ ',' :: (place.column.text ++ (place.severity.mark ++
    (place.code.text ++ ':' :: ' ' :: place.message))))

/-- The finding at a place in a file. -/
def finding (place : Place) (file : Path) : Finding where
  file := some file
  line := zeroBased place.line.text
  character := zeroBased place.column.text
  length := 1
  code := wordOf? place.code.text
  message := String.ofList place.message

end Place

variable {text rest digits file : List Char} {wanted : String} {finding : Path → Finding}

theorem skip_eq_some_iff : skip wanted text = some rest ↔ text = wanted.toList ++ rest := by
  rw [skip]
  split
  case isTrue starts =>
    obtain ⟨back, rfl⟩ := List.isPrefixOf_iff_prefix.mp starts
    simp
  case isFalse other =>
    refine iff_of_false nofun ?_
    rintro rfl
    exact other (List.isPrefixOf_iff_prefix.mpr (List.prefix_append ..))

/-- Digits are read up to a character that is none. -/
theorem readDigits_append (digits : Digits) {c : Char} (stops : Text.isDecimalDigit c = false) (rest : List Char) :
    readDigits (digits.text ++ c :: rest) = some (digits.text, c :: rest) := by
  have whole : (digits.text ++ c :: rest).takeWhile Text.isDecimalDigit = digits.text := by
    rw [List.takeWhile_append_of_pos digits.areDigits, List.takeWhile_cons_of_neg (by simp [stops]), List.append_nil]
  have behind : (digits.text ++ c :: rest).dropWhile Text.isDecimalDigit = c :: rest := by
    rw [List.dropWhile_append_of_pos digits.areDigits, List.dropWhile_cons_of_neg (by simp [stops])]
  rw [readDigits, whole, behind]
  split
  case h_1 none => exact (digits.given none).elim
  case h_2 => rfl

theorem exists_digits_of_readDigits (reads : readDigits text = some (digits, rest)) :
    ∃ written : Digits, digits = written.text ∧ text = written.text ++ rest := by
  rw [readDigits] at reads
  split at reads
  case h_1 => cases reads
  case h_2 given =>
    obtain ⟨rfl, rfl⟩ := Prod.mk.inj (Option.some.inj reads)
    exact ⟨⟨_, given, fun c member => List.mem_takeWhile_imp member⟩, rfl, List.takeWhile_append_dropWhile.symm⟩

theorem readSeverity_eq_some_iff :
    readSeverity text = some rest ↔ ∃ severity : Severity, text = severity.text.toList ++ rest := by
  rw [readSeverity, Option.or_eq_some_iff, skip_eq_some_iff, skip_eq_some_iff]
  constructor
  · rintro (rfl | ⟨-, rfl⟩)
    · exact ⟨.error, rfl⟩
    · exact ⟨.warning, rfl⟩
  · rintro ⟨severity, rfl⟩
    cases severity with
    | error => exact .inl rfl
    | warning => exact .inr ⟨rfl, rfl⟩

/-- A place is read as what it says, and nothing else is read as a place. -/
theorem readPlace_eq_some_iff :
    readPlace text = some finding ↔ ∃ place : Place, text = place.text ∧ finding = place.finding := by
  simp only [readPlace, bind, Option.bind_eq_some_iff, Prod.exists, skip_eq_some_iff, readSeverity_eq_some_iff,
    Option.some.injEq]
  constructor
  · rintro ⟨_, rfl, _, _, reads, _, rfl, _, _, reads', _, rfl, _, ⟨severity, rfl⟩, _, _, reads'', message, rfl,
      rfl⟩
    obtain ⟨line, rfl, rfl⟩ := exists_digits_of_readDigits reads
    obtain ⟨column, rfl, rfl⟩ := exists_digits_of_readDigits reads'
    obtain ⟨code, rfl, rfl⟩ := exists_digits_of_readDigits reads''
    exact ⟨⟨line, column, severity, code, message⟩, rfl, rfl⟩
  · rintro ⟨place, rfl, rfl⟩
    exact ⟨_, rfl, _, _, readDigits_append place.line rfl _, _, rfl, _, _, readDigits_append place.column rfl _,
      _, rfl, _, ⟨place.severity, rfl⟩, _, _, readDigits_append place.code rfl _, _, rfl, rfl⟩

/-! ## Numbers -/

/-- The number that digits spell, if they are the common ones and a word holds it. All else counts as one. -/
def ordinal (digits : List Char) : ℕ :=
  if digits.all Text.isAsciiDigit = true ∧ Nat.ofDigitChars 10 digits 0 < UInt32.size then
    Nat.ofDigitChars 10 digits 0
  else 1

theorem ordinal_lt (digits : List Char) : ordinal digits < UInt32.size := by
  rw [ordinal]
  split
  case isTrue fits => exact fits.2
  case isFalse => decide

theorem wordOf?_eq (digits : List Char) : wordOf? digits =
    if digits.all Text.isAsciiDigit = true ∧ Nat.ofDigitChars 10 digits 0 < UInt32.size then
      some (Nat.ofDigitChars 10 digits 0).toUInt32
    else none := by
  have value : digits.foldl (fun n c => n * 10 + Text.digitValue c) 0 = Nat.ofDigitChars 10 digits 0 := by
    rw [Nat.ofDigitChars]
    exact congrArg (digits.foldl · 0) (funext₂ fun n c => by rw [Nat.mul_comm]; rfl)
  rw [wordOf?, value, ite_and]

/-- Counted from zero a number is one less, and nothing is taken off zero. -/
theorem toNat_zeroBased (digits : List Char) : (zeroBased digits).toNat = ordinal digits - 1 := by
  rw [zeroBased, wordOf?_eq, ordinal]
  by_cases fits : digits.all Text.isAsciiDigit = true ∧ Nat.ofDigitChars 10 digits 0 < UInt32.size
  · rw [if_pos fits, if_pos fits]
    generalize Nat.ofDigitChars 10 digits 0 = n at fits
    have word : n.toUInt32.toNat = n := UInt32.toNat_ofNat_of_lt' fits.2
    dsimp only
    split
    case isTrue zero =>
      rw [zero] at word
      rw [← word]
      rfl
    case isFalse positive =>
      have least : 1 ≤ n.toUInt32 := by
        rw [UInt32.le_iff_toNat_le]
        exact Nat.pos_of_ne_zero fun zero => positive (UInt32.toNat_inj.mp zero)
      rw [UInt32.toNat_sub_of_le _ _ least, word]
      rfl
  · rw [if_neg fits, if_neg fits]
    rfl

theorem isAsciiDigit_of_mem_toString {n : ℕ} {c : Char} (member : c ∈ (toString n).toList) :
    Text.isAsciiDigit c = true := by
  have digit := Nat.isDigit_of_mem_toDigits (by decide) (by decide) (Nat.toList_repr ▸ member)
  simpa [Char.isDigit, Text.isAsciiDigit, Char.le_def] using digit

/-- The common digits are among those of all scripts. -/
theorem isDecimalDigit_of_isAsciiDigit {c : Char} (digit : Text.isAsciiDigit c = true) :
    Text.isDecimalDigit c = true := by
  simp only [Text.isAsciiDigit, Bool.and_eq_true, decide_eq_true_eq, Char.le_def, UInt32.le_iff_toNat_le] at digit
  have bounds : 48 ≤ c.toNat ∧ c.toNat ≤ 57 := digit
  exact List.any_eq_true.mpr ⟨48, List.mem_cons_self, by simp; omega⟩

/-- A number in common digits. -/
def Digits.ofNat (n : ℕ) : Digits where
  text := (toString n).toList
  given := Nat.toList_repr ▸ Nat.toDigits_ne_nil
  areDigits := fun _ member => isDecimalDigit_of_isAsciiDigit (isAsciiDigit_of_mem_toString member)

theorem Digits.all_isAsciiDigit_ofNat (n : ℕ) : (ofNat n).text.all Text.isAsciiDigit = true :=
  List.all_eq_true.mpr fun _ => isAsciiDigit_of_mem_toString

theorem Digits.ofDigitChars_ofNat (n : ℕ) : Nat.ofDigitChars 10 (ofNat n).text 0 = n := by
  have written : (ofNat n).text = Nat.toDigits 10 n := Nat.toList_repr
  rw [written, Nat.ofDigitChars_toDigits (by decide) (by decide)]

theorem ordinal_ofNat {n : ℕ} (fits : n < UInt32.size) : ordinal (Digits.ofNat n).text = n := by
  rw [ordinal, Digits.ofDigitChars_ofNat, if_pos ⟨Digits.all_isAsciiDigit_ofNat n, fits⟩]

theorem zeroBased_ofNat {word : UInt32} (fits : word.toNat + 1 < UInt32.size) :
    zeroBased (Digits.ofNat (word.toNat + 1)).text = word := by
  rw [← UInt32.toNat_inj, toNat_zeroBased, ordinal_ofNat fits, Nat.add_sub_cancel]

theorem wordOf?_ofNat (word : UInt32) : wordOf? (Digits.ofNat word.toNat).text = some word := by
  rw [wordOf?_eq, Digits.ofDigitChars_ofNat, if_pos ⟨Digits.all_isAsciiDigit_ofNat _, word.toNat_lt⟩]
  exact congrArg some UInt32.ofNat_toNat

/-! ## The file before a place -/

/-- A text has a mark in it. -/
def Marked (text : List Char) : Prop := ∃ severity : Severity, severity.mark <:+: text

instance (text : List Char) : Decidable (Marked text) :=
  decidable_of_iff (Severity.error.mark <:+: text ∨ Severity.warning.mark <:+: text) <| by
    constructor
    · rintro (there | there)
      · exact ⟨_, there⟩
      · exact ⟨_, there⟩
    · rintro ⟨severity, there⟩
      cases severity with
      | error => exact .inl there
      | warning => exact .inr there

theorem Severity.exists_mark (severity : Severity) : ∃ tail, severity.mark = ')' :: tail := ⟨_, rfl⟩

/-- A mark begins with a parenthesis. -/
theorem Marked.of_cons {c : Char} (other : c ≠ ')') (marked : Marked (c :: text)) : Marked text := by
  obtain ⟨severity, there⟩ := marked
  rcases List.infix_cons_iff.mp there with starts | later
  · obtain ⟨tail, mark⟩ := severity.exists_mark
    rw [mark, List.cons_prefix_cons] at starts
    exact (other starts.1.symm).elim
  · exact ⟨severity, later⟩

theorem Marked.mono (marked : Marked text) (inside : text <:+: rest) : Marked rest := by
  obtain ⟨severity, there⟩ := marked
  exact ⟨severity, there.trans inside⟩

namespace Place

/-- What stands between the parenthesis and the code. -/
def reach (place : Place) : List Char :=
  place.line.text ++ ',' :: (place.column.text ++ place.severity.mark)

theorem text_eq_reach (place : Place) :
    place.text = '(' :: (place.reach ++ (place.code.text ++ ':' :: ' ' :: place.message)) := by
  simp [text, reach]

theorem marked_reach (place : Place) : Marked place.reach :=
  ⟨place.severity, place.line.text ++ ',' :: place.column.text, [], by simp [reach]⟩

theorem marked_text (place : Place) : Marked place.text := by
  rw [text_eq_reach]
  exact place.marked_reach.mono ((List.prefix_append ..).isInfix.trans (List.suffix_cons ..).isInfix)

theorem parenthesis_not_mem_reach (place : Place) : '(' ∉ place.reach := by
  have digits (digits : Digits) : '(' ∉ digits.text := fun member => nomatch digits.areDigits _ member
  have mark : '(' ∉ place.severity.mark := by cases place.severity <;> decide
  simp [reach, digits, mark]

end Place

/-- In front of a place, no part of a file without a mark is read as the beginning of a place. -/
theorem readPlace_append_eq_none (unmarked : ¬ Marked file) (given : file ≠ []) (place : Place) :
    readPlace (file ++ place.text) = none := by
  rw [Option.eq_none_iff_forall_ne_some]
  intro finding reads
  obtain ⟨other, same, -⟩ := readPlace_eq_some_iff.mp reads
  obtain ⟨c, file, rfl⟩ := List.exists_cons_of_ne_nil given
  rw [place.text_eq_reach, other.text_eq_reach, List.cons_append] at same
  -- from one parenthesis to the other there would be a mark, and there is no parenthesis up to it
  rcases List.append_eq_append_iff.mp (List.cons.inj same).2 with ⟨gap, reach, behind⟩ | ⟨gap, rfl, -⟩
  · cases gap with
    | nil =>
      rw [List.append_nil] at reach
      have marked : Marked file := reach ▸ other.marked_reach
      exact unmarked (marked.mono (List.suffix_cons ..).isInfix)
    | cons d gap =>
      obtain ⟨rfl, -⟩ := List.cons.inj behind
      exact other.parenthesis_not_mem_reach (reach ▸ by simp)
  · exact unmarked (other.marked_reach.mono ((List.prefix_append ..).isInfix.trans (List.suffix_cons ..).isInfix))

/-- A file without a mark is split off as a whole. -/
theorem splitFile_append (given : file ≠ []) (unmarked : ¬ Marked file) (place : Place) :
    splitFile (file ++ place.text) = some (file, place.finding) := by
  induction file with
  | nil => exact (given rfl).elim
  | cons c file ih =>
    have rest : ¬ Marked file := fun marked => unmarked (marked.mono (List.suffix_cons ..).isInfix)
    rw [List.cons_append, splitFile]
    by_cases more : file = []
    · rw [more, List.nil_append, readPlace_eq_some_iff.mpr ⟨place, rfl, rfl⟩]
    · rw [readPlace_append_eq_none rest more place, ih more rest]
      rfl

theorem exists_place_of_splitFile (splits : splitFile text = some (file, finding)) :
    ∃ place : Place, text = file ++ place.text ∧ finding = place.finding := by
  induction text generalizing file with
  | nil => cases splits
  | cons c text ih =>
    rw [splitFile] at splits
    split at splits
    case h_1 reads =>
      obtain ⟨rfl, rfl⟩ := Prod.mk.inj (Option.some.inj splits)
      obtain ⟨place, rfl, rfl⟩ := readPlace_eq_some_iff.mp reads
      exact ⟨place, rfl, rfl⟩
    case h_2 =>
      obtain ⟨⟨file, found⟩, further, same⟩ := Option.map_eq_some_iff.mp splits
      obtain ⟨rfl, rfl⟩ := Prod.mk.inj same
      obtain ⟨place, rfl, rfl⟩ := ih further
      exact ⟨place, rfl, rfl⟩

/-- A file without a mark is read as the file of a finding. -/
theorem ofLine?_append (directory : Path) (given : file ≠ []) (unmarked : ¬ Marked file) (place : Place) :
    ofLine? directory (file ++ place.text) = some (place.finding (directory.join ⟨String.ofList file⟩)) := by
  rw [ofLine?, splitFile_append given unmarked place]
  rfl

/-- The line of a finding is a file with a place behind it. -/
theorem exists_place_of_ofLine? {directory : Path} {finding : Finding} (reads : ofLine? directory text = some finding) :
    ∃ (file : List Char) (place : Place), text = file ++ place.text ∧
      finding = place.finding (directory.join ⟨String.ofList file⟩) := by
  obtain ⟨⟨file, found⟩, splits, rfl⟩ := Option.map_eq_some_iff.mp reads
  obtain ⟨place, rfl, rfl⟩ := exists_place_of_splitFile splits
  exact ⟨file, place, rfl, rfl⟩

/-- On a line without a mark there is no finding. -/
theorem ofLine?_eq_none (directory : Path) (unmarked : ¬ Marked text) : ofLine? directory text = none := by
  rw [Option.eq_none_iff_forall_ne_some]
  intro finding reads
  obtain ⟨file, place, rfl, -⟩ := exists_place_of_ofLine? reads
  exact unmarked (place.marked_text.mono (List.suffix_append ..).isInfix)

end TypedJson.Finding
