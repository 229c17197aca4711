import TypedJson.Proofs.Position
import TypedJson.TypeTag
import Mathlib.Data.List.Basic
import Mathlib.Data.List.Induction

/-! # What string literals spell

`StringLiteral.Spells` is the grammar of what stands between the quotes of a JSON string, with the text that it
spells: the reader reads what the grammar allows and nothing else, and a written text spells itself.
`StringLiteral.Closed` forgets what is spelled. A text with this property closes no quotation that it stands in,
so a quotation ends at one place only, and another one cannot begin inside it and end elsewhere.
-/

namespace TypedJson

/-! ## Results -/

section

variable {ε ε' α β : Type} {result : Except ε α} {fault : ε} {fault' : ε'} {a : α} {b : β} {p : α → Prop}

theorem bind_eq_ok_iff {f : α → Except ε β} : result >>= f = .ok b ↔ ∃ a, result = .ok a ∧ f a = .ok b := by
  cases result with
  | error fault => simp [bind, Except.bind]
  | ok a => simp [bind, Except.bind]

theorem map_eq_ok_iff {f : α → β} : result.map f = .ok b ↔ ∃ a, result = .ok a ∧ f a = b := by
  cases result with
  | error fault => simp [Except.map]
  | ok a => simp [Except.map]

theorem mapError_eq_ok_iff {f : ε → ε'} : result.mapError f = .ok a ↔ result = .ok a := by
  cases result with
  | error fault => simp [Except.mapError]
  | ok a => simp [Except.mapError]

theorem error_ne_ok : Except.error fault ≠ .ok a := nofun

theorem not_exists_ok : ¬ ∃ a, Except.error fault = .ok a ∧ p a := by
  rintro ⟨a, accepted, -⟩
  exact error_ne_ok accepted

/-- What is refused by a reader and has no value agrees with any account of the values that the reader accepts. -/
theorem refused_iff : Except.error fault' = .ok b ↔ ∃ a, Except.error fault = .ok a ∧ p a :=
  iff_of_false error_ne_ok not_exists_ok

end

namespace StringLiteral

/-- What can stand after a backslash, and the character that it stands for. -/
inductive Escape : List Char → Char → Prop
  | short {letter c : Char} (known : shortEscape? letter = some c) : Escape [letter] c
  | unit {digits : List Char} {n : ℕ} (four : digits.length = 4) (value : hexNumber? digits = some n)
      (single : n < 0xD800 ∨ 0xDFFF < n) : Escape ('u' :: digits) (Char.ofNat n)
  | pair {high low : List Char} {n m : ℕ} (four : high.length = 4) (value : hexNumber? high = some n)
      (first : 0xD800 ≤ n ∧ n ≤ 0xDBFF) (more : low.length = 4) (valued : hexNumber? low = some m)
      (second : 0xDC00 ≤ m ∧ m ≤ 0xDFFF) :
      Escape ('u' :: high ++ '\\' :: 'u' :: low) (Char.ofNat (0x10000 + (n - 0xD800) * 0x400 + (m - 0xDC00)))

/-- What stands between the quotes of a literal, and the text that it spells. -/
inductive Spells : List Char → List Char → Prop
  | nil : Spells [] []
  | plain {c : Char} {body text : List Char} (bare : c ≠ '"' ∧ c ≠ '\\' ∧ ' ' ≤ c) (spells : Spells body text) :
      Spells (c :: body) (c :: text)
  | escape {letters body text : List Char} {c : Char} (escape : Escape letters c) (spells : Spells body text) :
      Spells ('\\' :: letters ++ body) (c :: text)

variable {text body rest letters digits value : List Char} {cursor next : Cursor} {mark : Mark} {c : Char} {n : ℕ}

/-- A digit is a character of one byte, and its value is below sixteen. -/
theorem hexValue?_bounds (known : hexValue? c = some n) : n < 16 ∧ c.utf8Size = 1 := by
  have ascii (bound : c.toNat ≤ 'f'.toNat) : c.utf8Size = 1 :=
    Char.utf8Size_eq_one_iff.mpr (UInt32.le_iff_toNat_le.mpr (Nat.le_trans bound (by decide)))
  simp only [hexValue?, Bool.and_eq_true, decide_eq_true_eq] at known
  split_ifs at known with decimal lower upper
  all_goals obtain rfl := Option.some.inj known
  · have low : '0'.toNat ≤ c.toNat := decimal.1
    have high : c.toNat ≤ '9'.toNat := decimal.2
    simp only [Char.reduceToNat] at *
    exact ⟨by omega, ascii (by omega)⟩
  · have low : 'a'.toNat ≤ c.toNat := lower.1
    have high : c.toNat ≤ 'f'.toNat := lower.2
    simp only [Char.reduceToNat] at *
    exact ⟨by omega, ascii (by omega)⟩
  · have low : 'A'.toNat ≤ c.toNat := upper.1
    have high : c.toNat ≤ 'F'.toNat := upper.2
    simp only [Char.reduceToNat] at *
    exact ⟨by omega, ascii (by omega)⟩

theorem hexNumber?_concat_eq_some_iff : hexNumber? (digits ++ [c]) = some n ↔
    ∃ front last, hexNumber? digits = some front ∧ hexValue? c = some last ∧ front * 16 + last = n := by
  simp only [hexNumber?, List.foldlM_append, List.foldlM_cons, List.foldlM_nil, Option.bind_eq_bind, Option.pure_def,
    Option.bind_fun_some, Option.bind_eq_some_iff, Option.map_eq_some_iff, exists_and_left]

/-- Digits are characters of one byte, and each makes the number sixteen times as large at most. -/
theorem hexNumber?_bounds (value : hexNumber? digits = some n) :
    n < Nat.pow 16 digits.length ∧ Text.byteLength digits = digits.length := by
  induction digits using List.reverseRecOn generalizing n with
  | nil =>
    cases value
    exact ⟨Nat.one_pos, rfl⟩
  | append_singleton digits c ih =>
    obtain ⟨front, last, known, digit, rfl⟩ := hexNumber?_concat_eq_some_iff.mp value
    obtain ⟨bound, bytes⟩ := ih known
    obtain ⟨small, single⟩ := hexValue?_bounds digit
    rw [Text.byteLength_append, List.length_append, bytes]
    have more : Nat.pow 16 (digits.length + [c].length) = Nat.pow 16 digits.length * 16 := rfl
    rw [more]
    simp only [Text.byteLength, single, List.length_singleton, and_true]
    omega

/-- The digits of a numeric escape are read as the number that they spell. -/
theorem readUnit_append (four : digits.length = 4) (known : hexNumber? digits = some n) :
    readUnit ⟨digits ++ rest, mark⟩ = .ok (n, ⟨rest, mark.afterText digits⟩) := by
  have front : (digits ++ rest).take 4 = digits := List.take_left' four
  have back : (digits ++ rest).drop 4 = rest := List.drop_left' four
  obtain ⟨-, bytes⟩ := hexNumber?_bounds known
  simp [readUnit, front, back, bytes, four, known, Cursor.after]

theorem exists_digits_of_readUnit (reads : readUnit cursor = .ok (n, next)) :
    ∃ digits, cursor.rest = digits ++ next.rest ∧ digits.length = 4 ∧ hexNumber? digits = some n := by
  unfold readUnit at reads
  split_ifs at reads with short
  split at reads
  case h_2 => cases reads
  case h_1 known =>
    cases reads
    obtain ⟨-, bytes⟩ := hexNumber?_bounds known
    have most := List.length_take_le 4 cursor.rest
    exact ⟨_, (List.take_append_drop 4 cursor.rest).symm, by omega, known⟩

/-- A code point that is no surrogate is that of a character. -/
theorem toNat_ofNat (valid : n.isValidChar) : (Char.ofNat n).toNat = n := by
  rw [Char.ofNat, dif_pos valid]
  rfl

theorem demand_cons (wanted : Char) : demand wanted ⟨wanted :: rest, mark⟩ = .ok ⟨rest, mark.after wanted⟩ := by
  simp [demand, Cursor.skip]

theorem rest_of_demand (reads : demand c cursor = .ok next) : cursor.rest = c :: next.rest := by
  obtain ⟨_ | ⟨d, rest⟩, mark⟩ := cursor
  · cases reads
  · simp only [demand] at reads
    split_ifs at reads with same
    cases reads
    rw [same]
    rfl

/-- The length of an escape can be told from its first letter and the character it stands for. -/
theorem Escape.escapeLength_eq (escape : Escape letters c) (rest : List Char) :
    escapeLength (letters ++ rest).head? c = letters.length := by
  cases escape with
  | @short letter _ known =>
    have short : letter ≠ 'u' := by
      rintro rfl
      cases known
    simp [escapeLength, short]
  | @unit digits n four value single =>
    obtain ⟨small, -⟩ := hexNumber?_bounds value
    rw [four] at small
    have bound : n < 0x10000 := small
    have point : (Char.ofNat n).toNat = n := toNat_ofNat (by unfold Nat.isValidChar; omega)
    simp [escapeLength, point, four, bound]
  | @pair high low n m four value first more valued second =>
    have point := toNat_ofNat (n := 0x10000 + (n - 0xD800) * 0x400 + (m - 0xDC00)) (by unfold Nat.isValidChar; omega)
    have beyond : ¬ 0x10000 + (n - 0xD800) * 0x400 + (m - 0xDC00) < 0x10000 := by omega
    simp [escapeLength, point, four, more, beyond]

theorem readEscape_append (escape : Escape letters c) (rest : List Char) (mark : Mark) :
    ∃ stop, readEscape ⟨letters ++ rest, mark⟩ = .ok (c, ⟨rest, stop⟩) := by
  cases escape with
  | @short letter _ known =>
    have short : letter ≠ 'u' := by
      rintro rfl
      cases known
    refine ⟨mark.after letter, ?_⟩
    simp [readEscape, short, known, Cursor.skip]
  | @unit digits n four value single =>
    obtain ⟨bound, -⟩ := hexNumber?_bounds value
    refine ⟨(mark.after 'u').afterText digits, ?_⟩
    have low : ¬ (0xDC00 ≤ n ∧ n ≤ 0xDFFF) := by omega
    have high : n < 0xD800 ∨ 0xDBFF < n := by omega
    simp [readEscape, readCodePoint, Cursor.skip, readUnit_append four value, low, high, bind, Except.bind]
  | @pair high low n m four value first more valued second =>
    refine ⟨((((mark.after 'u').afterText high).after '\\').after 'u').afterText low, ?_⟩
    have trail : ¬ (0xDC00 ≤ n ∧ n ≤ 0xDFFF) := by omega
    have lead : ¬ (n < 0xD800 ∨ 0xDBFF < n) := by omega
    have second : ¬ (m < 0xDC00 ∨ 0xDFFF < m) := by omega
    simp only [List.cons_append, List.append_assoc]
    simp [readEscape, readCodePoint, Cursor.skip, readUnit_append four value, readUnit_append more valued,
      demand_cons, trail, lead, second, bind, Except.bind]

theorem exists_escape_of_readCodePoint (reads : readCodePoint cursor = .ok (c, next)) :
    ∃ letters, Escape ('u' :: letters) c ∧ cursor.rest = letters ++ next.rest := by
  obtain ⟨⟨n, behind⟩, first, reads⟩ := bind_eq_ok_iff.mp reads
  obtain ⟨high, split, four, value⟩ := exists_digits_of_readUnit first
  simp only [Bool.and_eq_true, Bool.or_eq_true, decide_eq_true_eq] at reads
  split_ifs at reads with trail lead
  · cases reads
    exact ⟨high, .unit four value (by omega), split⟩
  · obtain ⟨slash, backslash, reads⟩ := bind_eq_ok_iff.mp reads
    obtain ⟨letter, u, reads⟩ := bind_eq_ok_iff.mp reads
    obtain ⟨⟨m, last⟩, second, reads⟩ := bind_eq_ok_iff.mp reads
    obtain ⟨low, splits, more, valued⟩ := exists_digits_of_readUnit second
    simp only at reads
    split_ifs at reads with alone
    obtain ⟨rfl, rfl⟩ := Prod.mk.inj (Except.ok.inj reads)
    refine ⟨high ++ '\\' :: 'u' :: low, .pair four value (by omega) more valued (by omega), ?_⟩
    rw [split, rest_of_demand backslash, rest_of_demand u, splits]
    simp

theorem exists_escape_of_readEscape (reads : readEscape cursor = .ok (c, next)) :
    ∃ letters, Escape letters c ∧ cursor.rest = letters ++ next.rest := by
  obtain ⟨_ | ⟨letter, rest⟩, mark⟩ := cursor
  · cases reads
  · simp only [readEscape] at reads
    split_ifs at reads with numeric
    · subst numeric
      obtain ⟨letters, escape, split⟩ := exists_escape_of_readCodePoint reads
      exact ⟨'u' :: letters, escape, congrArg _ split⟩
    · split at reads
      case h_1 known =>
        cases reads
        exact ⟨[letter], .short known, rfl⟩
      case h_2 => cases reads

/-! ## Reading literals -/

theorem readFrom_append (mark : Mark) (letters rest : List Char) :
    readFrom mark letters.length (letters ++ rest) = readFrom (mark.afterText letters) 0 rest := by
  induction letters generalizing mark with
  | nil => rfl
  | cons letter letters ih => exact ih _

/-- What the grammar allows is read as the text that it spells. -/
theorem Spells.readFrom_eq (spells : Spells body text) (rest : List Char) (mark : Mark) :
    ∃ stop, readFrom mark 0 (body ++ '"' :: rest) = .ok (text, ⟨rest, stop⟩) := by
  induction spells generalizing mark with
  | nil => exact ⟨mark.after '"', by simp [readFrom]⟩
  | @plain c body text bare spells ih =>
    obtain ⟨stop, reads⟩ := ih (mark.after c)
    refine ⟨stop, ?_⟩
    simp [readFrom, bare.1, bare.2.1, Char.not_lt.mpr bare.2.2, reads, Except.map]
  | @escape letters body text c escape spells ih =>
    obtain ⟨behind, escaped⟩ := readEscape_append escape (body ++ '"' :: rest) (mark.after '\\')
    obtain ⟨stop, reads⟩ := ih ((mark.after '\\').afterText letters)
    have skips := readFrom_append (mark.after '\\') letters (body ++ '"' :: rest)
    refine ⟨stop, ?_⟩
    rw [← escape.escapeLength_eq (body ++ '"' :: rest), reads] at skips
    rw [List.cons_append, List.cons_append, List.append_assoc, readFrom, if_neg (by decide), if_pos rfl, escaped]
    simp only [skips, Except.map]

/-- What is read is what the grammar allows. -/
theorem exists_spells_of_readFrom {skipped : ℕ} {stop : Cursor}
    (reads : readFrom mark skipped text = .ok (value, stop)) :
    ∃ body, text.drop skipped = body ++ '"' :: stop.rest ∧ Spells body value := by
  induction text generalizing mark skipped value with
  | nil => cases skipped <;> cases reads
  | cons c text ih =>
    cases skipped with
    | succ skipped => exact ih reads
    | zero =>
      simp only [readFrom] at reads
      split_ifs at reads with quote backslash control
      · cases reads
        exact ⟨[], by rw [quote]; rfl, .nil⟩
      · split at reads
        case h_1 => cases reads
        case h_2 escaped behind escape =>
          obtain ⟨⟨others, last⟩, further, same⟩ := map_eq_ok_iff.mp reads
          cases same
          obtain ⟨letters, escape, split⟩ := exists_escape_of_readEscape escape
          obtain ⟨body, splits, spells⟩ := ih further
          simp only at split
          rw [split, escape.escapeLength_eq, List.drop_left] at splits
          exact ⟨'\\' :: letters ++ body, by simp [backslash, split, splits], .escape escape spells⟩
      · obtain ⟨⟨others, last⟩, further, same⟩ := map_eq_ok_iff.mp reads
        cases same
        obtain ⟨body, splits, spells⟩ := ih further
        exact ⟨c :: body, congrArg (c :: ·) splits, .plain ⟨quote, backslash, Char.not_lt.mp control⟩ spells⟩

/-- The literal between two quotes. -/
def quote (body : List Char) : List Char := '"' :: body ++ ['"']

theorem quote_append (body rest : List Char) : quote body ++ rest = '"' :: (body ++ '"' :: rest) := by simp [quote]

/-! ## Where a literal ends -/

/-- A text that closes no quotation and ends no line, and that leaves no escape open. -/
inductive Closed : List Char → Prop
  | nil : Closed []
  | plain {c : Char} {body : List Char} (bare : c ≠ '"' ∧ c ≠ '\\' ∧ c ≠ '\n') (closed : Closed body) :
      Closed (c :: body)
  | escape {c : Char} {body : List Char} (inLine : c ≠ '\n') (closed : Closed body) : Closed ('\\' :: c :: body)

theorem Closed.of_all (plain : body.all fun c => c ≠ '"' ∧ c ≠ '\\' ∧ c ≠ '\n') : Closed body := by
  induction body with
  | nil => exact .nil
  | cons c body ih =>
    obtain ⟨bare, plain⟩ := Bool.and_eq_true_iff.mp plain
    exact .plain (of_decide_eq_true bare) (ih plain)

theorem Closed.append (closed : Closed body) (more : Closed rest) : Closed (body ++ rest) := by
  induction closed with
  | nil => exact more
  | plain bare _ ih => exact .plain bare ih
  | escape inLine _ ih => exact .escape inLine ih

theorem bare_of_hexValue? (known : hexValue? c = some n) : c ≠ '"' ∧ c ≠ '\\' ∧ c ≠ '\n' := by
  refine ⟨?_, ?_, ?_⟩ <;> rintro rfl <;> exact nomatch known

theorem closed_of_hexNumber? (value : hexNumber? digits = some n) : Closed digits := by
  induction digits using List.reverseRecOn generalizing n with
  | nil => exact .nil
  | append_singleton digits c ih =>
    obtain ⟨front, last, known, digit, -⟩ := hexNumber?_concat_eq_some_iff.mp value
    exact (ih known).append (.plain (bare_of_hexValue? digit) .nil)

theorem Escape.closed (escape : Escape letters c) : Closed ('\\' :: letters) := by
  cases escape with
  | short known =>
    refine .escape ?_ .nil
    rintro rfl
    cases known
  | unit four value single => exact .escape (by decide) (closed_of_hexNumber? value)
  | pair four value first more valued second =>
    exact .escape (by decide)
      ((closed_of_hexNumber? value).append (.escape (by decide) (closed_of_hexNumber? valued)))

theorem Spells.closed (spells : Spells body text) : Closed body := by
  induction spells with
  | nil => exact .nil
  | plain bare _ ih =>
    refine .plain ⟨bare.1, bare.2.1, ?_⟩ ih
    rintro rfl
    exact absurd bare.2.2 (by decide)
  | escape escape _ ih => exact escape.closed.append ih

/-- A quotation ends at the first quote behind a closed text. -/
theorem Closed.splitQuoted_eq (closed : Closed body) (rest : List Char) :
    TypeTag.splitQuoted (body ++ '"' :: rest) = some (body ++ ['"'], rest) := by
  induction closed with
  | nil => rfl
  | plain bare _ ih =>
    obtain ⟨quote, backslash, newline⟩ := bare
    simp [TypeTag.splitQuoted, ih, backslash, newline]
  | escape inLine _ ih => simp [TypeTag.splitQuoted, ih, inLine]

theorem Closed.append_inj {more rest' : List Char} (closed : Closed body) (closed' : Closed more)
    (same : body ++ '"' :: rest = more ++ '"' :: rest') : body = more ∧ rest = rest' := by
  have split := closed.splitQuoted_eq rest
  rw [same, closed'.splitQuoted_eq] at split
  simpa [eq_comm] using split

/-- A quote in a closed text is escaped, so what follows it is closed. -/
theorem Closed.of_append_quote {front back : List Char} (closed : Closed (front ++ '"' :: back)) : Closed back := by
  generalize whole : front ++ '"' :: back = text at closed
  induction closed generalizing front with
  | nil => exact absurd whole (by simp)
  | plain bare closed ih =>
    cases front with
    | nil => exact absurd (List.cons.inj whole).1.symm bare.1
    | cons d front => exact ih (List.cons.inj whole).2
  | escape inLine closed ih =>
    match front with
    | [] => exact absurd (List.cons.inj whole).1 (by decide)
    | [d] =>
      obtain ⟨-, whole⟩ := List.cons.inj whole
      exact (List.cons.inj whole).2 ▸ closed
    | d :: e :: front => exact ih (List.cons.inj (List.cons.inj whole).2).2

/-- At the beginning of a literal, no other literal begins. -/
theorem quote_prefix_quote_iff {name : List Char} (name_closed : Closed name) (closed : Closed body) :
    quote name <+: quote body ++ rest ↔ quote body = quote name := by
  constructor
  · rintro ⟨tail, same⟩
    rw [quote_append, quote_append] at same
    rw [(name_closed.append_inj closed (List.cons.inj same).2).1]
  · intro same
    rw [same]
    exact List.prefix_append ..

/-- From a place in a literal on, another literal begins only if it is all that is left. -/
theorem quote_prefix_iff {name front back : List Char} (name_closed : Closed name) (closed : Closed body)
    (apart : ¬ name ++ ['"'] <+: rest) (split : quote body = front ++ back) (inside : back ≠ []) :
    quote name <+: back ++ rest ↔ back = quote name := by
  cases front with
  | nil =>
    obtain rfl : quote body = back := split
    exact quote_prefix_quote_iff name_closed closed
  | cons first front =>
    constructor
    · rintro ⟨tail, same⟩
      rw [quote_append] at same
      obtain ⟨b, back, rfl⟩ := List.exists_cons_of_ne_nil inside
      obtain rfl := (List.cons.inj same).1
      rcases List.eq_nil_or_concat' back with rfl | ⟨middle, last, rfl⟩
      · -- a literal that begins at the closing quote would end in what follows
        exact absurd ⟨tail, by simpa using same⟩ apart
      · have cut : body ++ ['"'] = (front ++ '"' :: middle) ++ [last] := by
          simpa [quote] using (List.cons.inj split).2
        obtain ⟨rfl, ends⟩ := List.append_inj' cut rfl
        obtain rfl : '"' = last := List.singleton_inj.mp ends
        change _ = quote middle ++ rest at same
        rw [quote_append] at same
        rw [(name_closed.append_inj closed.of_append_quote (List.cons.inj same).2).1]
        rfl
    · rintro rfl
      exact List.prefix_append ..

/-! ## Writing literals -/

theorem Spells.append {more added : List Char} (spells : Spells body text) (further : Spells more added) :
    Spells (body ++ more) (text ++ added) := by
  induction spells with
  | nil => exact further
  | plain bare _ ih => exact .plain bare ih
  | escape escape _ ih =>
    rw [List.append_assoc]
    exact .escape escape ih

/-- A control character is written with four digits. -/
theorem escape_of_digits (four : digits.length = 4) (value : hexNumber? digits = some c.toNat)
    (control : c.toNat < 0x20) :
    Spells ('\\' :: 'u' :: digits) [c] := by
  have escape := Escape.unit four value (.inl (by omega))
  rw [Char.ofNat_toNat] at escape
  simpa using Spells.escape escape .nil

theorem spells_encodeChar (c : Char) : Spells (Quoted.encodeChar c) [c] := by
  unfold Quoted.encodeChar
  split
  iterate 7 exact .escape (.short rfl) .nil
  case _ quote backslash _ _ _ _ _ =>
    have small : ∀ n < 0x10, (['0', '0', '0'] ++ Quoted.hex n).length = 4 ∧
        hexNumber? (['0', '0', '0'] ++ Quoted.hex n) = some n := by decide +kernel
    have large : ∀ n < 0x20, ¬ n < 0x10 → (['0', '0'] ++ Quoted.hex n).length = 4 ∧
        hexNumber? (['0', '0'] ++ Quoted.hex n) = some n := by decide +kernel
    split_ifs with one two
    · exact escape_of_digits (small _ one).1 (small _ one).2 (by omega)
    · exact escape_of_digits (large _ two one).1 (large _ two one).2 two
    · exact .plain ⟨quote, backslash, Nat.not_lt.mp two⟩ .nil

/-- A written text spells itself. -/
theorem spells_encode (text : List Char) : Spells (text.flatMap Quoted.encodeChar) text := by
  induction text with
  | nil => exact .nil
  | cons c text ih => exact (spells_encodeChar c).append ih

end StringLiteral

/-- A literal by itself is JSON text of the string that it spells. -/
theorem Json.stringOfText?_quote {body text : List Char} (spells : StringLiteral.Spells body text) :
    Json.stringOfText? (StringLiteral.quote body) = some (String.ofList text) := by
  obtain ⟨stop, reads⟩ := spells.readFrom_eq [] (Mark.start.after '"')
  have scalar : StringLiteral.read (.ofText (StringLiteral.quote body)) = .ok (String.ofList text, ⟨[], stop⟩) := by
    rw [StringLiteral.read]
    exact congrArg (Except.map _) reads
  have node : Node.ofText (StringLiteral.quote body) =
      (.scalar .start (.string (String.ofList text)) stop, some ⟨[], stop⟩) := by
    have start : (Cursor.ofText (StringLiteral.quote body)).skipBlank =
        Cursor.ofText (StringLiteral.quote body) := rfl
    have first : (Cursor.ofText (StringLiteral.quote body)).rest = '"' :: (body ++ ['"']) := rfl
    rw [Node.ofText, nestingLimit, Node.read]
    simp only [start, first, Node.ofScalar, Scalar.read, scalar, Except.map]
    rfl
  simp [Json.stringOfText?, Json.ofText, node, Node.value, Scalar.value, Cursor.skipBlank, Cursor.skipWhile,
    Cursor.after, Json.canonical]

end TypedJson
