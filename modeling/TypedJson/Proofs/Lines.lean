import TypedJson.Proofs.Position

/-! # Lines and positions

The position behind a text counts its line feeds and the characters of its last line. The lines of a text do not
hold the ends of lines, and nothing behind the last line feed is no line. So the line that a position is on is,
but for a carriage return at its end, what stands around the place between two line feeds.
-/

namespace TypedJson.Text

variable {line text before rest : List Char}

/-- Between its separators a text has one segment more than there are separators. -/
theorem length_splitOn (sep : Char) (text : List Char) : (text.splitOn sep).length = text.count sep + 1 := by
  induction text with
  | nil => rfl
  | cons c rest ih =>
    rw [List.splitOn_cons_eq_if_modifyHead, List.count_cons]
    split <;> simp [ih]

theorem lines_append (inLine : '\n' ∉ line) (rest : List Char) :
    Text.lines (line ++ '\n' :: rest) = dropCarriageReturn line :: Text.lines rest := by
  rw [Text.lines, List.splitOn_append_cons_self_of_not_mem inLine, Text.lines]
  cases parts : rest.splitOn '\n' with
  | nil => exact (List.splitOn_ne_nil '\n' rest parts).elim
  | cons first others => rfl

theorem dropCarriageReturn_concat (line : List Char) : dropCarriageReturn (line ++ ['\r']) = line := by
  simp [dropCarriageReturn]

theorem dropCarriageReturn_cases (line : List Char) :
    dropCarriageReturn line = line ∨ line = dropCarriageReturn line ++ ['\r'] := by
  rw [dropCarriageReturn]
  split
  case isTrue ends => exact .inr (List.dropLast_append_getLast? _ ends).symm
  case isFalse => exact .inl rfl

/-- All segments before the last ones are lines. -/
theorem linesOfSegments_append {others : List (List Char)} (more : others ≠ []) (segments : List (List Char)) :
    linesOfSegments (segments ++ others) = segments.map dropCarriageReturn ++ linesOfSegments others := by
  induction segments with
  | nil => rfl
  | cons segment segments ih =>
    obtain ⟨next, behind, split⟩ := List.exists_cons_of_ne_nil (List.append_ne_nil_of_right_ne_nil segments more)
    rw [List.cons_append, split, linesOfSegments.eq_3 segment (next :: behind) nofun, ← split, ih]
    rfl

/-- The lines behind a line feed are those of what stands there. -/
theorem getElem?_lines_append (before rest : List Char) (number : ℕ) :
    (Text.lines (before ++ '\n' :: rest))[before.count '\n' + 1 + number]? = (Text.lines rest)[number]? := by
  have before' : ((before.splitOn '\n').map dropCarriageReturn).length = before.count '\n' + 1 := by
    rw [List.length_map, length_splitOn]
  rw [Text.lines, List.splitOn_append_cons_self, linesOfSegments_append (List.splitOn_ne_nil _ _),
    List.getElem?_append_right (by omega), before', Nat.add_sub_cancel_left]
  rfl

/-- A text is its last line, behind a line feed if it has one. -/
theorem lastLine_cases (text : List Char) :
    '\n' ∉ text ∧ lastLine text = text ∨ ∃ front, text = front ++ '\n' :: lastLine text ∧ '\n' ∉ lastLine text := by
  by_cases ends : '\n' ∈ text
  · obtain ⟨last, front, split, whole⟩ := List.eq_append_cons_of_mem (List.mem_reverse.mpr ends)
    have parts : text = front.reverse ++ '\n' :: last.reverse := by
      rw [← List.reverse_reverse text, split]
      simp
    have inLine : '\n' ∉ last.reverse := mt List.mem_reverse.mp whole
    have same : lastLine text = last.reverse := by
      rw [parts, List.append_cons, lastLine_append_of_nil (lastLine_newline _), lastLine_of_not_mem inLine]
    exact .inr ⟨front.reverse, by rw [same, ← parts], same ▸ inLine⟩
  · exact .inl ⟨ends, lastLine_of_not_mem ends⟩

/-- A text ends in a character other than a line feed exactly if its last line does. -/
theorem getLast?_lastLine {c : Char} (solid : c ≠ '\n') :
    (lastLine text).getLast? = some c ↔ text.getLast? = some c := by
  rcases lastLine_cases text with ⟨-, same⟩ | ⟨front, split, -⟩
  · rw [same]
  · conv_rhs => rw [split, List.getLast?_append]
    cases lastLine text with
    | nil => simp [solid.symm]
    | cons d last => simp [List.getLast?_cons_cons]

/-- The line of a text with a number; past the last line it is empty. -/
def row (text : List Char) (number : ℕ) : List Char := ((Text.lines text)[number]?).getD []

/-- A part of a line before a line feed, or at the end of a text, stands in the first line. -/
theorem exists_row_zero (inLine : '\n' ∉ line) (rest : List Char) :
    ∃ ends, (ends = [] ∨ ends = ['\r']) ∧ row (line ++ rest) 0 ++ ends = line ++ rest.takeWhile (· != '\n') := by
  by_cases ended : '\n' ∈ rest
  · obtain ⟨between, behind, rfl, whole⟩ := List.eq_append_cons_of_mem ended
    have stops : (between ++ '\n' :: behind).takeWhile (· != '\n') = between := by
      have inside : ∀ c ∈ between, (c != '\n') = true := by
        intro c member
        rw [bne_iff_ne]
        rintro rfl
        exact whole member
      rw [List.takeWhile_append_of_pos inside]
      simp
    have inLine' : '\n' ∉ line ++ between := List.not_mem_append inLine whole
    have first : row (line ++ (between ++ '\n' :: behind)) 0 = dropCarriageReturn (line ++ between) := by
      rw [row, ← List.append_assoc, lines_append inLine']
      rfl
    rw [stops, first]
    rcases dropCarriageReturn_cases (line ++ between) with same | ends
    · exact ⟨[], .inl rfl, by rw [same, List.append_nil]⟩
    · exact ⟨['\r'], .inr rfl, ends.symm⟩
  · have all : rest.takeWhile (· != '\n') = rest :=
      List.takeWhile_eq_self_iff.mpr fun c member => bne_iff_ne.mpr fun same => ended (same ▸ member)
    refine ⟨[], .inl rfl, ?_⟩
    rw [all, List.append_nil, row, Text.lines, List.splitOn_eq_singleton (List.not_mem_append inLine ended),
      linesOfSegments]
    cases written : line ++ rest <;> rfl

/-- The line that the position behind a part of a text is on, but for a carriage return at its end. -/
theorem exists_row (before rest : List Char) :
    ∃ ends, (ends = [] ∨ ends = ['\r']) ∧
      row (before ++ rest) (before.count '\n') ++ ends = lastLine before ++ rest.takeWhile (· != '\n') := by
  have inLine := newline_not_mem_lastLine before
  rcases lastLine_cases before with ⟨whole, same⟩ | ⟨front, split, -⟩
  · rw [List.count_eq_zero.mpr whole, same]
    exact exists_row_zero whole rest
  · have number : before.count '\n' = front.count '\n' + 1 := by
      conv_lhs => rw [split, List.count_append, List.count_cons_self, List.count_eq_zero.mpr inLine]
    have whole : before ++ rest = front ++ '\n' :: (lastLine before ++ rest) := by
      conv_lhs => rw [split, List.append_assoc, List.cons_append]
    have behind : row (before ++ rest) (before.count '\n') = row (lastLine before ++ rest) 0 := by
      rw [row, row, whole, number]
      exact congrArg (·.getD []) (getElem?_lines_append front _ 0)
    rw [behind]
    exact exists_row_zero inLine rest

end TypedJson.Text
