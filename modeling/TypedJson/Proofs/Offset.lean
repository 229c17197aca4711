import TypedJson.Proofs.Position

/-! # Offsets and positions

A position says as much as the byte offset that it is of. Later offsets have later positions, the offset is found
again by skipping as many lines and then as many characters as the position counts, and behind another text a
position moves down by the lines of that text and, on the line that the text ends in, to the right by its last
line: `Position.atByte?_embeds`.
-/

namespace TypedJson

namespace Text

variable {before rest : List Char} {c : Char}

/-- A byte offset that does not fall inside a character or behind the end of a text. -/
def IsBoundary (text : List Char) (offset : ℕ) : Prop :=
  ∃ before rest, text = before ++ rest ∧ byteLength before = offset

/-- What stands behind a number of lines, each skipped with the line feed that ends it. -/
def afterLines : ℕ → List Char → List Char
  | 0, text => text
  | lines + 1, text => afterLines lines ((text.dropWhile (· ≠ '\n')).drop 1)

theorem lastLine_cons_newline (text : List Char) : lastLine ('\n' :: text) = lastLine text :=
  @lastLine_append_of_nil ['\n'] text rfl

theorem lastLine_cons_of_mem (ends : '\n' ∈ before) (c : Char) : lastLine (c :: before) = lastLine before := by
  have parts := lastLine_append [c] before
  rwa [if_pos ends] at parts

theorem afterLines_cons (lines : ℕ) (other : c ≠ '\n') (rest : List Char) :
    afterLines (lines + 1) (c :: rest) = afterLines (lines + 1) rest := by
  rw [afterLines, List.dropWhile_cons_of_pos (by simpa using other), ← afterLines]

/-- Behind the lines that end in a text, its last line goes on. -/
theorem afterLines_count (before rest : List Char) :
    afterLines (before.count '\n') (before ++ rest) = lastLine before ++ rest := by
  induction before with
  | nil => rfl
  | cons c before ih =>
    by_cases newline : c = '\n'
    · subst newline
      rw [List.count_cons_self, lastLine_cons_newline, ← ih]
      rfl
    rw [List.count_cons_of_ne newline]
    by_cases ends : '\n' ∈ before
    · obtain ⟨lines, count⟩ := Nat.exists_eq_succ_of_ne_zero (Nat.ne_of_gt (List.count_pos_iff.mpr ends))
      rw [count, List.cons_append, afterLines_cons lines newline, lastLine_cons_of_mem ends, ← ih, count]
    · have whole : '\n' ∉ c :: before := by simp [ends, Ne.symm newline]
      rw [List.count_eq_zero.mpr ends, lastLine_of_not_mem whole]
      rfl

end Text

namespace Position

variable {text front before : List Char}

/-- What stands behind a position in a text. -/
def restIn (text : List Char) (position : Position) : List Char :=
  (Text.afterLines position.line.toNat text).drop position.character.toNat

/-- The byte offset of a position in a text. -/
def offsetIn (text : List Char) (position : Position) : ℕ :=
  Text.byteLength text - Text.byteLength (position.restIn text)

theorem restIn_after (short : before.length < UInt32.size) (behind : List Char) :
    (after before).restIn (before ++ behind) = behind := by
  obtain ⟨line, character⟩ := toNat_after short
  rw [restIn, line, character, Text.afterLines_count, List.drop_left]

/-- The lines and characters of a position lead back to its offset. -/
theorem offsetIn_after (short : before.length < UInt32.size) (behind : List Char) :
    (after before).offsetIn (before ++ behind) = Text.byteLength before := by
  rw [offsetIn, restIn_after short, Text.byteLength_append]
  omega

/-- Behind another text a position is as many lines further down as end in that text, and on the line that this
text ends in it is further to the right. -/
theorem toNat_after_append (short : (front ++ before).length < UInt32.size) :
    (after (front ++ before)).line.toNat = (after before).line.toNat + front.count '\n' ∧
      (after (front ++ before)).character.toNat = (after before).character.toNat +
        if (after before).line = 0 then (Text.lastLine front).length else 0 := by
  have shorter : before.length < UInt32.size := by
    rw [List.length_append] at short
    omega
  obtain ⟨line, character⟩ := toNat_after short
  obtain ⟨line', character'⟩ := toNat_after shorter
  have first : (after before).line = 0 ↔ '\n' ∉ before := by
    rw [← UInt32.toNat_inj, line', UInt32.toNat_zero, List.count_eq_zero]
  refine ⟨by rw [line, line', List.count_append, Nat.add_comm], ?_⟩
  rw [character, character', Text.lastLine_append]
  by_cases ends : '\n' ∈ before
  · rw [if_pos ends, if_neg (by simpa [first] using ends), Nat.add_zero]
  · rw [if_neg ends, if_pos (first.mpr ends), Text.lastLine_of_not_mem ends, List.length_append, Nat.add_comm]

/-- In a text that is not too long, byte offsets that are not inside a character have positions in the same order,
each of which leads back to its offset. Where a text is put together from two, the position of an offset in the
second part is counted on from the lines of the first part and, on its first line, from the last line of this. -/
theorem atByte?_embeds (short : Text.byteLength text < UInt32.size) :
    (∀ first second, Text.IsBoundary text first → Text.IsBoundary text second → first < second →
      ∃ position position', atByte? text first = some position ∧ atByte? text second = some position' ∧
        position < position') ∧
    (∀ place, Text.IsBoundary text place →
      ∃ position, atByte? text place = some position ∧ position.offsetIn text = place) ∧
    ∀ front back, text = front ++ back → ∀ place, Text.IsBoundary back place →
      ∃ position position', atByte? back place = some position ∧
        atByte? text (Text.byteLength front + place) = some position' ∧
        position'.line.toNat = position.line.toNat + front.count '\n' ∧
        position'.character.toNat = position.character.toNat +
          if position.line = 0 then (Text.lastLine front).length else 0 := by
  have fits := Nat.lt_of_le_of_lt (Text.length_le_byteLength text) short
  refine ⟨?_, ?_, ?_⟩
  · rintro _ _ ⟨before, rest, rfl, rfl⟩ ⟨before', rest', split, rfl⟩ less
    refine ⟨after before, after before', atByte?_byteLength before rest, ?_, ?_⟩
    · rw [split]
      exact atByte?_byteLength before' rest'
    rcases List.append_eq_append_iff.mp split with ⟨gap, rfl, rfl⟩ | ⟨gap, rfl, -⟩
    · have given : gap ≠ [] := by
        rintro rfl
        rw [List.append_nil] at less
        omega
      rw [← List.append_assoc, List.length_append] at fits
      exact after_lt_after_append (by omega) given
    · rw [Text.byteLength_append] at less
      omega
  · rintro _ ⟨before, rest, rfl, rfl⟩
    rw [List.length_append] at fits
    exact ⟨after before, atByte?_byteLength before rest, offsetIn_after (by omega) rest⟩
  · rintro front _ rfl _ ⟨before, rest, rfl, rfl⟩
    refine ⟨after before, after (front ++ before), atByte?_byteLength before rest, ?_, ?_⟩
    · rw [← List.append_assoc, ← Text.byteLength_append]
      exact atByte?_byteLength (front ++ before) rest
    · rw [← List.append_assoc, List.length_append] at fits
      exact toNat_after_append (by omega)

/-- Two lines and the beginning of a third one, with characters of two bytes. -/
def accentedLines : List Char := "éa\nüb\nc".toList

/-- The positions around a line feed are in order. The place behind the last character of the second line is found
again, and it is on the first line of what stands behind the first character of that line. -/
theorem atByte?_embeds_accented : Text.byteLength accentedLines < UInt32.size ∧
    (Text.IsBoundary accentedLines 3 ∧ Text.IsBoundary accentedLines 4 ∧
      ∃ position position', atByte? accentedLines 3 = some position ∧ atByte? accentedLines 4 = some position' ∧
        position < position') ∧
    (Text.IsBoundary accentedLines 7 ∧ ∃ position, atByte? accentedLines 7 = some position ∧
      position = ⟨1, 2⟩ ∧ position.offsetIn accentedLines = 7) ∧
    (Text.IsBoundary "b\nc".toList 1 ∧ ∃ position position', atByte? "b\nc".toList 1 = some position ∧
      atByte? accentedLines (6 + 1) = some position' ∧ position'.line.toNat = 0 + 1 ∧
      position'.character.toNat = 1 + 1) := by
  have short : Text.byteLength accentedLines < UInt32.size := by decide +kernel
  have before : Text.IsBoundary accentedLines 3 := ⟨"éa".toList, "\nüb\nc".toList, by decide, by decide⟩
  have behind : Text.IsBoundary accentedLines 4 := ⟨"éa\n".toList, "üb\nc".toList, by decide, by decide⟩
  have last : Text.IsBoundary accentedLines 7 := ⟨"éa\nüb".toList, "\nc".toList, by decide, by decide⟩
  have inner : Text.IsBoundary "b\nc".toList 1 := ⟨"b".toList, "\nc".toList, by decide, by decide⟩
  obtain ⟨ordered, recovered, moved⟩ := atByte?_embeds short
  refine ⟨short, ⟨before, behind, ordered 3 4 before behind (by decide)⟩, ⟨last, ?_⟩, inner, ?_⟩
  · obtain ⟨position, stands, leads⟩ := recovered 7 last
    have there : atByte? accentedLines 7 = some ⟨1, 2⟩ := by decide +kernel
    exact ⟨position, stands, Option.some.inj (stands.symm.trans there), leads⟩
  · obtain ⟨position, position', stands, stands', line, character⟩ :=
      moved "éa\nü".toList "b\nc".toList (by decide) 1 inner
    have there : atByte? "b\nc".toList 1 = some ⟨0, 1⟩ := by decide +kernel
    cases stands.symm.trans there
    exact ⟨_, position', stands, stands', line, character⟩

end Position
end TypedJson
