import TypedJson.Proofs.Phrase.Reading
import TypedJson.Proofs.Phrase.Scan

/-! # How deep a text is nested

The converse of reading: a phrase that is nested as deep as the reader allows is read, whatever stands behind it.
So a text is read as a value exactly if it is a writing that is nested no deeper than the limit
(`Json.ofText_eq_ok_iff`), and a text is a writing of one value only (`Writing.value_unique`).
-/

namespace TypedJson

namespace Json

mutual

/-- The number of arrays and objects that stand inside one another. -/
def nesting : Json → ℕ
  | array items => itemsNesting items + 1
  | object members => membersNesting members + 1
  | _ => 0

/-- The nesting of the deepest item. -/
def itemsNesting : List Json → ℕ
  | [] => 0
  | item :: rest => max item.nesting (itemsNesting rest)

/-- The nesting of the deepest value of a member. -/
def membersNesting : List (String × Json) → ℕ
  | [] => 0
  | (_, value) :: rest => max value.nesting (membersNesting rest)

end

end Json

variable {rest : List Char} {mark : Mark} {c : Char}

/-- A text does not go on with a character of a class. -/
def Stops (p : Char → Bool) (text : List Char) : Prop := ∀ c ∈ text.head?, p c = false

namespace Stops

variable {p : Char → Bool}

theorem nil : Stops p [] := nofun

theorem cons (other : p c = false) : Stops p (c :: rest) := fun _ first => Option.some.inj first ▸ other

theorem takeWhile_append {front : List Char} (stops : Stops p rest) (all : ∀ c ∈ front, p c = true) :
    (front ++ rest).takeWhile p = front ∧ (front ++ rest).dropWhile p = rest := by
  rw [List.takeWhile_append_of_pos all, List.dropWhile_append_of_pos all]
  cases rest with
  | nil => simp
  | cons c rest => simp [stops c rfl]

end Stops

/-- White space is skipped up to what follows it. -/
theorem Gap.skipBlank_append (gap : Gap) (mark : Mark) (stops : Stops isJsonBlank rest) :
    Cursor.skipBlank ⟨gap.text ++ rest, mark⟩ = ⟨rest, mark.afterText gap.text⟩ := by
  obtain ⟨front, back⟩ := stops.takeWhile_append gap.blank
  simp only [Cursor.skipBlank, Cursor.skipWhile, Cursor.after, front, back]

theorem Gap.skipBlank_cons (gap : Gap) (mark : Mark) (rest : List Char) (solid : isJsonBlank c = false) :
    Cursor.skipBlank ⟨gap.text ++ c :: rest, mark⟩ = ⟨c :: rest, mark.afterText gap.text⟩ :=
  gap.skipBlank_append mark (.cons solid)

/-! ## Numerals and words -/

namespace Numeral

variable {digits whole text : List Char} {fraction : Option (List Char)} {exponent : Option (Bool × List Char)}
  {numeral : Numeral} {n : Number}

theorem IsDigits.readDigits_append (number : IsDigits digits) (stops : Stops Text.isAsciiDigit rest) :
    readDigits ⟨digits ++ rest, mark⟩ = .ok (digits, ⟨rest, mark.afterText digits⟩) := by
  obtain ⟨front, back⟩ := stops.takeWhile_append number.2
  simp only [readDigits, front, Cursor.skipWhile, Cursor.after, back]
  obtain ⟨c, others, rfl⟩ := List.exists_cons_of_ne_nil number.1
  rfl

theorem IsDigits.readWhole_append (number : IsDigits whole) (zero : whole.head? = some '0' → whole = ['0'])
    (stops : Stops Text.isAsciiDigit rest) :
    readWhole ⟨whole ++ rest, mark⟩ = .ok (whole, ⟨rest, mark.afterText whole⟩) := by
  obtain ⟨c, others, rfl⟩ := List.exists_cons_of_ne_nil number.1
  by_cases first : c = '0'
  · obtain rfl : others = [] := by simpa [first] using zero
    subst first
    have alone : (rest.head?.map Text.isAsciiDigit).getD false = false := by
      cases rest with
      | nil => rfl
      | cons c rest => exact stops c rfl
    simp [readWhole, alone, Cursor.skip, Mark.afterText]
  · rw [← number.readDigits_append stops, readWhole]
    split
    case h_1 zero => exact absurd (List.cons.inj zero).1 first
    case h_2 => rfl

theorem Fraction.readFraction_append (fractional : Fraction fraction text) (point : Stops (· = '.') rest)
    (stops : Stops Text.isAsciiDigit rest) :
    readFraction ⟨text ++ rest, mark⟩ = .ok (fraction, ⟨rest, mark.afterText text⟩) := by
  cases fractional with
  | none =>
    simp only [readFraction, List.nil_append]
    split
    case h_1 => exact absurd (point '.' rfl) (by decide)
    case h_2 => rfl
  | some number =>
    simp only [readFraction, List.cons_append, Cursor.skip, number.readDigits_append stops]
    rfl

theorem Exponent.readExponent_append (exponential : Exponent exponent text)
    (marks : Stops (fun c => c = 'e' || c = 'E') rest) (stops : Stops Text.isAsciiDigit rest) :
    readExponent ⟨text ++ rest, mark⟩ = .ok (exponent, ⟨rest, mark.afterText text⟩) := by
  cases exponential with
  | none =>
    cases rest with
    | nil => rfl
    | cons c rest =>
      have other := marks c rfl
      simp only [List.nil_append, readExponent, other]
      rfl
  | @plain letter digits marked number =>
    obtain ⟨c, others, rfl⟩ := List.exists_cons_of_ne_nil number.1
    have digit : Text.isAsciiDigit c = true := number.2 c List.mem_cons_self
    have unsigned : readSign ⟨c :: others ++ rest, mark.after letter⟩ =
        (false, ⟨c :: others ++ rest, mark.after letter⟩) := by
      simp only [readSign, List.cons_append]
      split
      case h_1 first => exact absurd digit ((List.cons.inj first).1 ▸ by decide)
      case h_2 first => exact absurd digit ((List.cons.inj first).1 ▸ by decide)
      case h_3 => rfl
    have letters : (letter = 'e' || letter = 'E') = true := by simpa using marked
    simp only [readExponent, List.cons_append, letters, if_true, Cursor.skip] at unsigned ⊢
    rw [unsigned]
    simp only [← List.cons_append, number.readDigits_append stops]
    rfl
  | @positive letter digits marked number =>
    have letters : (letter = 'e' || letter = 'E') = true := by simpa using marked
    simp only [readExponent, List.cons_append, letters, if_true, Cursor.skip, readSign, number.readDigits_append stops]
    rfl
  | @negative letter digits marked number =>
    have letters : (letter = 'e' || letter = 'E') = true := by simpa using marked
    simp only [readExponent, List.cons_append, letters, if_true, Cursor.skip, readSign, number.readDigits_append stops]
    rfl

theorem Exponent.stops {p : Char → Bool} (exponential : Exponent exponent text) (marks : p 'e' = false ∧ p 'E' = false)
    (stops : Stops p rest) : Stops p (text ++ rest) := by
  cases exponential with
  | none => exact stops
  | plain marked | positive marked | negative marked =>
    refine .cons ?_
    rcases marked with rfl | rfl
    · exact marks.1
    · exact marks.2

/-- The sign of a numeral is skipped. -/
theorem skipSign (negative : Bool) {unsigned : List Char} (number : IsDigits whole) :
    ((if negative then ['-'] else []) ++ (whole ++ unsigned)).head? = some '-' ↔ negative = true := by
  obtain ⟨c, others, rfl⟩ := List.exists_cons_of_ne_nil number.1
  have digit : c ≠ '-' := by
    rintro rfl
    exact absurd (number.2 '-' List.mem_cons_self) (by decide)
  cases negative <;> simp [digit]

/-- A numeral is read as far as its characters go. -/
theorem Spells.read_append (spells : Spells text numeral) (value : numeral.value = .ok n) (mark : Mark)
    (stops : Stops isWordLetter rest) : ∃ stop, read ⟨text ++ rest, mark⟩ = .ok (n, ⟨rest, stop⟩) := by
  obtain ⟨number, zero, fractional, exponential⟩ := spells
  rename_i negative whole fractionText exponentText fraction exponent
  have other (c : Char) (letter : isWordLetter c = true) : c ∉ rest.head? := fun first =>
    absurd (stops c first) (by simp [letter])
  have digit : Stops Text.isAsciiDigit rest := fun c first => by
    have other := stops c first
    simp only [isWordLetter, Char.isAlphanum, Bool.or_eq_false_iff] at other
    exact other.1.1.1.2
  have point : Stops (· = '.') rest := fun c first => decide_eq_false fun same => other '.' rfl (same ▸ first)
  have letter : Stops (fun c => c = 'e' || c = 'E') rest := fun c first => by
    rw [Bool.or_eq_false_iff]
    exact ⟨decide_eq_false fun same => other 'e' rfl (same ▸ first),
      decide_eq_false fun same => other 'E' rfl (same ▸ first)⟩
  have behindFraction : Stops Text.isAsciiDigit (exponentText ++ rest) := exponential.stops (by decide) digit
  have behindWhole : Stops Text.isAsciiDigit (fractionText ++ (exponentText ++ rest)) := by
    cases fractional with
    | none => exact behindFraction
    | some => exact .cons (by decide)
  simp only [List.append_assoc]
  obtain ⟨start, skipped⟩ : ∃ start : Mark,
      (if negative then Cursor.skip ⟨(if negative then ['-'] else []) ++
        (whole ++ (fractionText ++ (exponentText ++ rest))), mark⟩ else ⟨(if negative then ['-'] else []) ++
        (whole ++ (fractionText ++ (exponentText ++ rest))), mark⟩) =
        ⟨whole ++ (fractionText ++ (exponentText ++ rest)), start⟩ := by
    cases negative with
    | false => exact ⟨mark, rfl⟩
    | true => exact ⟨mark.after '-', rfl⟩
  simp only [read, skipSign negative number, Bool.decide_eq_true, skipped]
  refine ⟨((start.afterText whole).afterText fractionText).afterText exponentText,
    bind_eq_ok_iff.mpr ⟨_, number.readWhole_append zero behindWhole, bind_eq_ok_iff.mpr
    ⟨_, fractional.readFraction_append (exponential.stops (by decide) point) behindFraction, bind_eq_ok_iff.mpr
      ⟨_, exponential.readExponent_append letter digit, ?_⟩⟩⟩⟩
  simp only [value]

end Numeral

theorem Scalar.readWord_append (word : Scalar) (letters : List Char) :
    readWord word letters ⟨letters ++ rest, mark⟩ = .ok (word, ⟨rest, mark.afterText letters⟩) := by
  induction letters generalizing mark with
  | nil => rfl
  | cons letter letters ih =>
    rw [readWord, List.cons_append, List.head?_cons, if_pos rfl]
    exact ih

theorem Quotation.read_append (literal : Quotation) (rest : List Char) (mark : Mark) :
    ∃ stop, StringLiteral.read ⟨literal.text ++ rest, mark⟩ = .ok (literal.value, ⟨rest, stop⟩) := by
  obtain ⟨stop, reads⟩ := literal.spells.readFrom_eq rest (mark.after '"')
  refine ⟨stop, ?_⟩
  rw [Quotation.text, StringLiteral.quote_append, StringLiteral.read]
  simp only [Cursor.skip, reads, Except.map, String.ofList_toList]

theorem Scalar.read_word {text : List Char} {value : Json} (written : Word text value) (mark : Mark)
    (stops : Stops isWordLetter rest) :
    ∃ scalar stop, Scalar.read ⟨text ++ rest, mark⟩ = .ok (scalar, ⟨rest, stop⟩) ∧ scalar.value = value := by
  cases written with
  | null => exact ⟨_, _, Scalar.readWord_append .null _, rfl⟩
  | true => exact ⟨_, _, Scalar.readWord_append (.bool true) _, rfl⟩
  | false => exact ⟨_, _, Scalar.readWord_append (.bool false) _, rfl⟩
  | @number text numeral n spelled value =>
    obtain ⟨stop, reads⟩ := spelled.read_append value mark stops
    refine ⟨.number n, stop, ?_, rfl⟩
    obtain ⟨c, others, text, numeric⟩ : ∃ c others, text = c :: others ∧ (c = '-' || Text.isAsciiDigit c) = true := by
      obtain ⟨number, -, -, -⟩ := spelled
      rename_i negative whole fractionText exponentText fraction exponent
      obtain ⟨c, others, rfl⟩ := List.exists_cons_of_ne_nil number.1
      cases negative with
      | false => exact ⟨c, _, rfl, by simp [number.2 c List.mem_cons_self]⟩
      | true => exact ⟨'-', _, rfl, rfl⟩
    subst text
    unfold Scalar.read
    split
    case h_5 same =>
      obtain ⟨rfl, -⟩ := List.cons.inj same
      rw [if_pos numeric, reads]
      rfl
    case h_6 same => cases same
    all_goals
      rename_i same
      obtain ⟨rfl, -⟩ := List.cons.inj same
      exact absurd numeric (by decide)

/-! ## Arrays and objects -/

/-- Nothing that stands behind a phrase is taken for a part of it. -/
def Phrase.EndsBefore : Phrase → List Char → Prop
  | word _ _ _, rest => Stops isWordLetter rest
  | _, _ => True

theorem Phrase.EndsBefore.of_stops {phrase : Phrase} (stops : Stops isWordLetter rest) : phrase.EndsBefore rest := by
  cases phrase with
  | word => exact stops
  | _ => trivial

theorem isWordLetter_of_isJsonBlank (blank : isJsonBlank c = true) : isWordLetter c = false := by
  simp only [isJsonBlank, Bool.or_eq_true, decide_eq_true_eq] at blank
  rcases blank with ((rfl | rfl) | rfl) | rfl <;> rfl

theorem Gap.stops (gap : Gap) : Stops isWordLetter gap.text := fun c first =>
  isWordLetter_of_isJsonBlank (gap.blank c (List.mem_of_mem_head? first))

theorem Gap.stops_append (gap : Gap) (other : isWordLetter c = false) : Stops isWordLetter (gap.text ++ c :: rest) := by
  intro d first
  rw [List.head?_append] at first
  cases blank : gap.text.head? with
  | none =>
    rw [blank] at first
    exact Option.some.inj first ▸ other
  | some e =>
    rw [blank] at first
    exact Option.some.inj first ▸ gap.stops e blank

/-- A phrase begins with a character that is no white space and closes nothing. -/
theorem Phrase.exists_cons (phrase : Phrase) : ∃ c tail, phrase.text = c :: tail ∧ isJsonBlank c = false ∧ c ≠ ']' := by
  cases phrase with
  | word text value written =>
    obtain ⟨c, tail, rfl⟩ := List.exists_cons_of_ne_nil written.ne_nil
    have letter := List.all_eq_true.mp written.all_isWordLetter c List.mem_cons_self
    refine ⟨c, tail, rfl, Bool.eq_false_iff.mpr fun blank => ?_, ?_⟩
    · exact absurd letter (by simp [isWordLetter_of_isJsonBlank blank])
    · rintro rfl
      exact absurd letter (by decide)
  | _ => exact ⟨_, _, rfl, by decide, by decide⟩

/-- Phrases that are nested no deeper than given are read, whatever stands behind them. -/
def ReadsNested (readNode : Cursor → Reading Node) (depth : ℕ) : Prop :=
  ∀ (gap : Gap) (phrase : Phrase) (rest : List Char) (mark : Mark), phrase.value.nesting ≤ depth →
    phrase.EndsBefore rest → ∃ node stop,
      readNode ⟨gap.text ++ (phrase.text ++ rest), mark⟩ = (node, some ⟨rest, stop⟩) ∧ node.value = .ok phrase.value

section

variable {readNode : Cursor → Reading Node} {depth : ℕ}

/-- An item is read, and then the items behind a comma, or nothing behind the closing bracket. -/
theorem Items.read_item (reads : ReadsNested readNode depth) (before : Gap) (item : Phrase) (behind : Gap)
    (rest : List Char) (bound : ℕ) (first : Bool) (mark : Mark) (nested : item.value.nesting ≤ depth)
    (solid : isJsonBlank c = false) (apart : isWordLetter c = false) : ∃ node stop, node.value = .ok item.value ∧
      (c = ',' → Items.read readNode (bound + 1) first
        ⟨before.text ++ (item.text ++ (behind.text ++ c :: rest)), mark⟩ =
          ((Items.read readNode bound false ⟨rest, stop⟩).map (.item node) id)) ∧
      (c = ']' → ∃ last, Items.read readNode (bound + 1) first
        ⟨before.text ++ (item.text ++ (behind.text ++ c :: rest)), mark⟩ =
          (.item node (.close last), some ⟨rest, stop⟩)) := by
  obtain ⟨node, stop, read, valued⟩ := reads .none item (behind.text ++ c :: rest) (mark.afterText before.text)
    nested (.of_stops (behind.stops_append apart))
  obtain ⟨d, tail, text, solid', other⟩ := item.exists_cons
  have skip := before.skipBlank_cons mark (tail ++ (behind.text ++ c :: rest)) solid'
  have skipBehind := behind.skipBlank_cons stop rest solid
  rw [text, Gap.none, List.nil_append, List.cons_append] at read
  refine ⟨node, (stop.afterText behind.text).after c, valued, ?_, ?_⟩
  all_goals
    rintro rfl
    simp only [text, List.cons_append, Items.read, skip]
    split
    case h_1 none => cases none
    case h_2 same => exact absurd (List.cons.inj same).1 other
    case h_3 => simp [read, skipBehind, Cursor.skip, Prod.map]

/-- Items are read from an opening bracket or a comma on to the closing bracket. -/
theorem Items.read_append (reads : ReadsNested readNode depth) (items : Phrase.Items) (rest : List Char)
    (bound : ℕ) (first : Bool) (mark : Mark) (nested : Json.itemsNesting items.values ≤ depth)
    (room : items.values.length ≤ bound) :
    ∃ nodes stop, Items.read readNode bound first ⟨items.text ++ rest, mark⟩ = (nodes, some ⟨rest, stop⟩) ∧
      ∀ number, nodes.values number = .ok items.values := by
  obtain _ | bound := bound
  · cases items <;> simp [Phrase.Items.values] at room
  cases items with
  | last before item behind =>
    have inside : item.value.nesting ≤ depth := by simpa [Phrase.Items.values, Json.itemsNesting] using nested
    obtain ⟨node, stop, valued, -, read⟩ := Items.read_item reads before item behind rest bound first mark inside
      (c := ']') rfl rfl
    obtain ⟨last, read⟩ := read rfl
    simp only [Phrase.Items.text, List.append_assoc, List.singleton_append]
    exact ⟨_, _, read, fun number => Items.values_item_eq_ok_iff.mpr ⟨_, _, valued, rfl, rfl⟩⟩
  | more before item behind others =>
    obtain ⟨inside, further⟩ := Nat.max_le.mp nested
    obtain ⟨node, stop, valued, read, -⟩ := Items.read_item reads before item behind (others.text ++ rest) bound first
      mark inside (c := ',') rfl rfl
    obtain ⟨nodes, last, more, values⟩ := Items.read_append reads others rest bound false stop further
      (Nat.le_of_succ_le_succ room)
    simp only [Phrase.Items.text, List.append_assoc, List.cons_append]
    refine ⟨.item node nodes, last, by rw [read rfl, more]; rfl, fun number => ?_⟩
    exact Items.values_item_eq_ok_iff.mpr ⟨_, _, valued, values _, rfl⟩

/-- A member is read, and then the members behind a comma, or nothing behind the closing brace. -/
theorem Members.read_member (reads : ReadsNested readNode depth) (label : Label) (value : Phrase) (behind : Gap)
    (rest : List Char) (bound : ℕ) (first : Bool) (mark : Mark) (nested : value.value.nesting ≤ depth)
    (solid : isJsonBlank c = false) (apart : isWordLetter c = false) :
    ∃ named settled node rested stop, node.value = .ok value.value ∧
      (c = ',' → Members.read readNode (bound + 1) first
        ⟨label.text ++ (value.text ++ (behind.text ++ c :: rest)), mark⟩ =
          (Members.read readNode bound false ⟨rest, stop⟩).map
            (.member label.name.value named settled node rested) id) ∧
      (c = '\x7d' → ∃ last, Members.read readNode (bound + 1) first
        ⟨label.text ++ (value.text ++ (behind.text ++ c :: rest)), mark⟩ =
          (.member label.name.value named settled node rested (.close last), some ⟨rest, stop⟩)) := by
  obtain ⟨before, name, between, start⟩ := label
  -- the marks that the reader comes to, from the name on
  obtain ⟨named, literal⟩ := name.read_append
    (between.text ++ ':' :: (start.text ++ (value.text ++ (behind.text ++ c :: rest)))) (mark.afterText before.text)
  obtain ⟨d, tail, text, solid', other⟩ := value.exists_cons
  obtain ⟨node, stop, read, valued⟩ := reads .none value (behind.text ++ c :: rest)
    (((named.afterText between.text).after ':').afterText start.text) nested (.of_stops (behind.stops_append apart))
  have skip := before.skipBlank_cons mark (name.body ++ '"' :: (between.text ++ ':' ::
    (start.text ++ (value.text ++ (behind.text ++ c :: rest))))) (c := '"') rfl
  have skipBetween := between.skipBlank_cons named (start.text ++ (value.text ++ (behind.text ++ c :: rest)))
    (c := ':') rfl
  have skipStart : Cursor.skipBlank ⟨start.text ++ (value.text ++ (behind.text ++ c :: rest)),
      (named.afterText between.text).after ':'⟩ = ⟨value.text ++ (behind.text ++ c :: rest), _⟩ :=
    start.skipBlank_append _ (by rw [text]; exact .cons solid')
  have skipBehind := behind.skipBlank_cons stop rest solid
  rw [Quotation.text, StringLiteral.quote_append] at literal
  refine ⟨named, Cursor.settledMark ⟨between.text ++ ':' :: (start.text ++ (value.text ++ (behind.text ++ c :: rest))),
    named⟩, node, stop.afterText behind.text, (stop.afterText behind.text).after c, valued, ?_, ?_⟩
  all_goals
    rintro rfl
    rw [Gap.none, List.nil_append] at read
    simp only [Label.text, Quotation.text, List.append_assoc, List.cons_append, StringLiteral.quote_append,
      Members.read, skip, literal, skipBetween, Cursor.skip, skipStart, read, skipBehind]
  · rfl
  · exact ⟨_, rfl⟩

/-- Members are read from an opening brace or a comma on to the closing brace. -/
theorem Members.read_append (reads : ReadsNested readNode depth) (members : Phrase.Members) (rest : List Char)
    (bound : ℕ) (first : Bool) (mark : Mark) (nested : Json.membersNesting members.values ≤ depth)
    (room : members.values.length ≤ bound) :
    ∃ nodes stop, Members.read readNode bound first ⟨members.text ++ rest, mark⟩ = (nodes, some ⟨rest, stop⟩) ∧
      nodes.values = .ok members.values := by
  obtain _ | bound := bound
  · cases members <;> simp [Phrase.Members.values] at room
  cases members with
  | last label value behind =>
    have inside : value.value.nesting ≤ depth := by simpa [Phrase.Members.values, Json.membersNesting] using nested
    obtain ⟨named, settled, node, rested, stop, valued, -, read⟩ := Members.read_member reads label value
      behind rest bound first mark inside (c := '\x7d') rfl rfl
    obtain ⟨last, read⟩ := read rfl
    simp only [Phrase.Members.text, List.append_assoc, List.singleton_append]
    exact ⟨_, _, read, Members.values_member_eq_ok_iff.mpr ⟨_, _, valued, rfl, rfl⟩⟩
  | more label value behind others =>
    obtain ⟨inside, further⟩ := Nat.max_le.mp nested
    obtain ⟨named, settled, node, rested, stop, valued, read, -⟩ := Members.read_member reads label value
      behind (others.text ++ rest) bound first mark inside (c := ',') rfl rfl
    obtain ⟨nodes, last, more, values⟩ := Members.read_append reads others rest bound false stop further
      (Nat.le_of_succ_le_succ room)
    simp only [Phrase.Members.text, List.append_assoc, List.cons_append]
    refine ⟨.member label.name.value named settled node rested nodes, last, by rw [read rfl, more]; rfl, ?_⟩
    exact Members.values_member_eq_ok_iff.mpr ⟨_, _, valued, values, rfl⟩

end

namespace Phrase

/-- Every item takes at least one character. -/
theorem Items.length_values_le (items : Items) : items.values.length ≤ items.text.length := by
  cases items with
  | last before item behind =>
    simp only [Items.values, Items.text, List.length_append, List.length_singleton]
    omega
  | more before item behind others =>
    have further := others.length_values_le
    simp only [Items.values, Items.text, List.length_cons, List.length_append]
    omega

/-- Every member takes at least one character. -/
theorem Members.length_values_le (members : Members) : members.values.length ≤ members.text.length := by
  cases members with
  | last label value behind =>
    simp only [Members.values, Members.text, List.length_append, List.length_singleton]
    omega
  | more label value behind others =>
    have further := others.length_values_le
    simp only [Members.values, Members.text, List.length_cons, List.length_append]
    omega

end Phrase

/-! ## Phrases and texts -/

/-- What opens no array and no object is read as a scalar. -/
theorem Node.read_eq_ofScalar (depth : ℕ) (gap : Gap) (solid : isJsonBlank c = false) (array : c ≠ '[')
    (object : c ≠ '\x7b') :
    Node.read depth ⟨gap.text ++ c :: rest, mark⟩ = Node.ofScalar ⟨c :: rest, mark.afterText gap.text⟩ := by
  have skip := gap.skipBlank_cons mark rest solid
  cases depth with
  | zero =>
    simp only [Node.read, skip]
    split
    case h_1 same => exact absurd (List.cons.inj same).1 array
    case h_2 same => exact absurd (List.cons.inj same).1 object
    case h_3 => rfl
  | succ depth =>
    simp only [Node.read, skip]
    split
    case h_1 same => exact absurd (List.cons.inj same).1 array
    case h_2 same => exact absurd (List.cons.inj same).1 object
    case h_3 => rfl

theorem Node.read_word {text : List Char} {value : Json} (depth : ℕ) (gap : Gap) (written : Word text value)
    (stops : Stops isWordLetter rest) : ∃ node stop,
      Node.read depth ⟨gap.text ++ (text ++ rest), mark⟩ = (node, some ⟨rest, stop⟩) ∧ node.value = .ok value := by
  obtain ⟨scalar, stop, read, rfl⟩ := Scalar.read_word written (mark.afterText gap.text) stops
  obtain ⟨c, tail, text, solid, -⟩ := (Phrase.word text _ written).exists_cons
  rw [Phrase.text] at text
  subst text
  have letter := List.all_eq_true.mp written.all_isWordLetter c List.mem_cons_self
  refine ⟨.scalar (mark.afterText gap.text) scalar stop, stop, ?_, rfl⟩
  rw [List.cons_append] at read ⊢
  rw [Node.read_eq_ofScalar depth gap solid]
  · simp only [Node.ofScalar, read]
  · rintro rfl
    exact absurd letter (by decide)
  · rintro rfl
    exact absurd letter (by decide)

theorem Node.read_string (depth : ℕ) (gap : Gap) (literal : Quotation) : ∃ node stop,
    Node.read depth ⟨gap.text ++ (literal.text ++ rest), mark⟩ = (node, some ⟨rest, stop⟩) ∧
      node.value = .ok (.string literal.value) := by
  obtain ⟨stop, read⟩ := literal.read_append rest (mark.afterText gap.text)
  refine ⟨.scalar (mark.afterText gap.text) (.string literal.value) stop, stop, ?_, rfl⟩
  rw [Quotation.text, StringLiteral.quote_append] at read ⊢
  rw [Node.read_eq_ofScalar depth gap (by decide) (by decide) (by decide)]
  simp only [Node.ofScalar, Scalar.read, read, Except.map]

/-- At every depth, phrases that are nested no deeper are read. -/
theorem Node.readsNested_read (depth : ℕ) : ReadsNested (Node.read depth) depth := by
  induction depth with
  | zero =>
    intro gap phrase rest mark nested ends
    cases phrase with
    | word text value written => exact Node.read_word 0 gap written ends
    | string literal => exact Node.read_string 0 gap literal
    | _ => simp [Phrase.value, Json.nesting] at nested
  | succ depth ih =>
    intro gap phrase rest mark nested ends
    cases phrase with
    | word text value written => exact Node.read_word (depth + 1) gap written ends
    | string literal => exact Node.read_string (depth + 1) gap literal
    | emptyArray inside =>
      have skip := gap.skipBlank_cons mark (inside.text ++ ']' :: rest) (c := '[') rfl
      have skipInside := inside.skipBlank_cons ((mark.afterText gap.text).after '[') rest (c := ']') rfl
      simp only [Phrase.text, List.cons_append, List.append_assoc, List.nil_append, Node.read, skip, Items.read,
        Cursor.skip, skipInside]
      exact ⟨_, _, rfl, rfl⟩
    | array items =>
      have skip := gap.skipBlank_cons mark (items.text ++ rest) (c := '[') rfl
      obtain ⟨nodes, stop, read, values⟩ := Items.read_append ih items rest
        ((items.text ++ rest).length + 1) true ((mark.afterText gap.text).after '[') (Nat.le_of_succ_le_succ nested)
        (by have := items.length_values_le; rw [List.length_append]; omega)
      simp only [Phrase.text, List.cons_append, Node.read, skip, Cursor.skip, read]
      exact ⟨_, _, rfl, map_eq_ok_iff.mpr ⟨_, values 0, rfl⟩⟩
    | emptyObject inside =>
      have skip := gap.skipBlank_cons mark (inside.text ++ '\x7d' :: rest) (c := '\x7b') rfl
      have skipInside := inside.skipBlank_cons ((mark.afterText gap.text).after '\x7b') rest (c := '\x7d') rfl
      simp only [Phrase.text, List.cons_append, List.append_assoc, List.nil_append, Node.read, skip, Members.read,
        Cursor.skip, skipInside]
      exact ⟨_, _, rfl, rfl⟩
    | object members =>
      have skip := gap.skipBlank_cons mark (members.text ++ rest) (c := '\x7b') rfl
      obtain ⟨nodes, stop, read, values⟩ := Members.read_append ih members rest
        ((members.text ++ rest).length + 1) true ((mark.afterText gap.text).after '\x7b') (Nat.le_of_succ_le_succ nested)
        (by have := members.length_values_le; rw [List.length_append]; omega)
      simp only [Phrase.text, List.cons_append, Node.read, skip, Cursor.skip, read]
      exact ⟨_, _, rfl, map_eq_ok_iff.mpr ⟨_, values, rfl⟩⟩

/-! ## How deep is read -/

/-- A tree has no value that is nested deeper than given. -/
def Node.Shallow (depth : ℕ) (node : Node) : Prop := ∀ value, node.value = .ok value → value.nesting ≤ depth

/-- Items have no values that are nested deeper than given. -/
def Items.Shallow (depth : ℕ) (items : Items) : Prop :=
  ∀ number values, items.values number = .ok values → Json.itemsNesting values ≤ depth

/-- Members have no values that are nested deeper than given. -/
def Members.Shallow (depth : ℕ) (members : Members) : Prop :=
  ∀ values, members.values = .ok values → Json.membersNesting values ≤ depth

section

variable {readNode : Cursor → Reading Node} {depth : ℕ}

theorem Items.Shallow.item {head : Node} {rest : Items} (shallow : head.Shallow depth) (others : rest.Shallow depth) :
    (Items.item head rest).Shallow depth := by
  intro number values valued
  obtain ⟨value, more, headed, ended, rfl⟩ := Items.values_item_eq_ok_iff.mp valued
  exact Nat.max_le.mpr ⟨shallow value headed, others _ _ ended⟩

theorem Items.Shallow.close (stop : Mark) : (Items.close stop).Shallow depth := by
  rintro number _ ⟨⟩
  exact Nat.zero_le depth

theorem Items.Shallow.broken (fault : Fault) : (Items.broken fault).Shallow depth := nofun

theorem Members.Shallow.member {name : String} {stop settled rested : Mark} {value : Node} {rest : Members}
    (shallow : value.Shallow depth) (others : rest.Shallow depth) :
    (Members.member name stop settled value rested rest).Shallow depth := by
  intro values valued
  obtain ⟨value, more, headed, ended, rfl⟩ := Members.values_member_eq_ok_iff.mp valued
  exact Nat.max_le.mpr ⟨shallow value headed, others _ ended⟩

theorem Members.Shallow.close (stop : Mark) : (Members.close stop).Shallow depth := by
  rintro _ ⟨⟩
  exact Nat.zero_le depth

theorem Members.Shallow.broken (fault : Fault) (found : Node) : (Members.broken fault found).Shallow depth := nofun

theorem Members.Shallow.unpaired (name : String) (stop settled : Mark) (fault : Fault) :
    (Members.unpaired name stop settled fault).Shallow depth := nofun

theorem Node.Shallow.broken (start : Mark) (first : Option Char) (fault : Fault) :
    (Node.broken start first fault).Shallow depth := nofun

theorem Items.shallow_read (shallow : ∀ cursor, (readNode cursor).1.Shallow depth) (bound : ℕ) (first : Bool)
    (cursor : Cursor) : (Items.read readNode bound first cursor).1.Shallow depth := by
  induction bound generalizing first cursor with
  | zero => exact .broken _
  | succ bound ih =>
    have head := shallow cursor.skipBlank
    simp only [Items.read]
    split
    case h_1 => exact .broken _
    case h_2 =>
      split
      case isTrue => exact .close _
      case isFalse => exact .broken _
    case h_3 =>
      generalize readNode cursor.skipBlank = reading at head ⊢
      obtain ⟨node, _ | next⟩ := reading
      · exact .item head (.broken _)
      · simp only
        split
        case h_1 => exact .item head (ih _ _)
        case h_2 => exact .item head (.close _)
        case h_3 => exact .item head (.broken _)
        case h_4 => exact .item head (.broken _)

theorem Members.shallow_read (shallow : ∀ cursor, (readNode cursor).1.Shallow depth) (bound : ℕ) (first : Bool)
    (cursor : Cursor) : (Members.read readNode bound first cursor).1.Shallow depth := by
  induction bound generalizing first cursor with
  | zero => exact .broken _ _
  | succ bound ih =>
    simp only [Members.read]
    split
    case h_1 => exact .broken _ _
    case h_2 =>
      split
      case isTrue => exact .close _
      case isFalse => exact .broken _ _
    case h_4 => exact .broken _ _
    case h_3 =>
      split
      case h_1 => exact .broken _ _
      case h_2 name next named =>
        split
        case h_2 => exact .unpaired _ _ _ _
        case h_3 => exact .unpaired _ _ _ _
        case h_1 =>
          have value := shallow next.skipBlank.skip.skipBlank
          generalize readNode next.skipBlank.skip.skipBlank = reading at value ⊢
          obtain ⟨node, _ | after⟩ := reading
          · exact .member value (.broken _ _)
          · simp only
            split
            case h_1 => exact .member value (ih _ _)
            case h_2 => exact .member value (.close _)
            case h_3 => exact .member value (.broken _ _)
            case h_4 => exact .member value (.broken _ _)

end

theorem Node.shallow_ofScalar (depth : ℕ) (cursor : Cursor) : (Node.ofScalar cursor).1.Shallow depth := by
  unfold Node.ofScalar
  split
  case h_1 scalar next read =>
    rintro _ ⟨⟩
    cases scalar <;> exact Nat.zero_le depth
  case h_2 => exact .broken _ _ _

/-- No more is read than is allowed to be nested. -/
theorem Node.shallow_read (depth : ℕ) (cursor : Cursor) : (Node.read depth cursor).1.Shallow depth := by
  induction depth generalizing cursor with
  | zero =>
    simp only [Node.read]
    split
    case h_3 => exact Node.shallow_ofScalar 0 _
    all_goals exact .broken _ _ _
  | succ depth ih =>
    simp only [Node.read]
    split
    case h_1 rest bracket =>
      intro value valued
      obtain ⟨values, parts, rfl⟩ := map_eq_ok_iff.mp valued
      exact Nat.succ_le_succ (Items.shallow_read ih _ _ _ _ _ parts)
    case h_2 rest brace =>
      intro value valued
      obtain ⟨values, parts, rfl⟩ := map_eq_ok_iff.mp valued
      exact Nat.succ_le_succ (Members.shallow_read ih _ _ _ _ parts)
    case h_3 => exact Node.shallow_ofScalar (depth + 1) _

/-- A text begins with one phrase only, if the phrase is not to go on with what stands behind it. -/
theorem Phrase.value_unique {gap gap' : Gap} {phrase phrase' : Phrase} {rest rest' : List Char}
    (same : gap.text ++ (phrase.text ++ rest) = gap'.text ++ (phrase'.text ++ rest')) (ends : phrase.EndsBefore rest)
    (ends' : phrase'.EndsBefore rest') : phrase.value = phrase'.value ∧ rest = rest' := by
  obtain ⟨node, stop, read, valued⟩ := Node.readsNested_read _ gap phrase rest .start
    (Nat.le_max_left _ phrase'.value.nesting) ends
  obtain ⟨node', stop', read', valued'⟩ := Node.readsNested_read _ gap' phrase' rest' .start
    (Nat.le_max_right phrase.value.nesting _) ends'
  rw [same, read'] at read
  cases read
  exact ⟨Except.ok.inj (valued.symm.trans valued'), rfl⟩

/-! ## Writings -/

namespace Writing

variable {writing : Writing} {text : List Char} {value : Json}

/-- A writing that is nested no deeper than given is read to its end. -/
theorem exists_node (writing : Writing) {depth : ℕ} (nested : writing.root.value.nesting ≤ depth) : ∃ node stop,
    Node.read depth (.ofText writing.text) = (node, some ⟨writing.behind.text, stop⟩) ∧
      node.value = .ok writing.root.value := by
  rw [Writing.text, List.append_assoc]
  exact Node.readsNested_read depth writing.before writing.root writing.behind.text _ nested
    (.of_stops writing.behind.stops)

/-- A text is a writing of one value only. -/
theorem value_unique {other : Writing} (same : writing.text = other.text) : writing.root.value = other.root.value := by
  rw [Writing.text, Writing.text, List.append_assoc, List.append_assoc] at same
  exact (Phrase.value_unique same (.of_stops writing.behind.stops) (.of_stops other.behind.stops)).1

/-- A writing is read as its value if it is nested no deeper than the limit. -/
theorem ofText_text (nested : writing.root.value.nesting ≤ nestingLimit) :
    Json.ofText writing.text = .ok writing.root.value.canonical := by
  obtain ⟨node, stop, read, valued⟩ := writing.exists_node nested
  have done : (Cursor.skipBlank ⟨writing.behind.text, stop⟩).rest = [] := by
    rw [← List.append_nil writing.behind.text, writing.behind.skipBlank_append _ .nil]
  rw [Json.ofText, Node.ofText, read]
  simp [valued, done]

/-- If a text is read as a value, then any writing of it is one of this value, nested no deeper than the limit. -/
theorem of_ofText (reads : Json.ofText writing.text = .ok value) :
    writing.root.value.nesting ≤ nestingLimit ∧ writing.root.value.canonical = value := by
  obtain ⟨node, next, raw, read, valued, done, rfl⟩ := Json.exists_node_of_ofText reads
  obtain ⟨other, same, rfl⟩ := Node.exists_writing_of_ofText read valued done
  have shallow := Node.shallow_read nestingLimit (.ofText writing.text)
  rw [← Node.ofText, read] at shallow
  rw [value_unique same.symm]
  exact ⟨shallow _ valued, rfl⟩

end Writing

/-- A text is read as a value exactly if it is a writing of it that is nested no deeper than the limit. -/
theorem Json.ofText_eq_ok_iff {text : List Char} {value : Json} : Json.ofText text = .ok value ↔
    ∃ writing : Writing, writing.text = text ∧ writing.root.value.nesting ≤ nestingLimit ∧
      writing.root.value.canonical = value := by
  constructor
  · intro reads
    obtain ⟨writing, rfl, -⟩ := Json.exists_writing_of_ofText reads
    exact ⟨writing, rfl, Writing.of_ofText reads⟩
  · rintro ⟨writing, rfl, nested, rfl⟩
    exact Writing.ofText_text nested

end TypedJson
