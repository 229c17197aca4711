import TypedJson.Proofs.Phrase.Basic

/-! # What is read is a phrase

Every part of the reader takes from a text what the grammar allows there. So a text that is read as a value is
a writing of it: `Json.exists_writing_of_ofText`.
-/

namespace TypedJson

variable {cursor next : Cursor} {c : Char}

theorem Cursor.exists_gap_skipBlank (cursor : Cursor) :
    ∃ gap : Gap, cursor.rest = gap.text ++ cursor.skipBlank.rest :=
  ⟨⟨cursor.rest.takeWhile isJsonBlank, fun _ => List.mem_takeWhile_imp⟩, List.takeWhile_append_dropWhile.symm⟩

theorem Cursor.rest_skip {rest : List Char} (first : cursor.rest = c :: rest) : cursor.skip.rest = rest := by
  simp [Cursor.skip, first]

/-- A string literal that is read is a quotation. -/
theorem StringLiteral.exists_quotation_of_read {rest : List Char} {name : String} (quote : cursor.rest = '"' :: rest)
    (reads : StringLiteral.read cursor = .ok (name, next)) :
    ∃ literal : Quotation, cursor.rest = literal.text ++ next.rest ∧ literal.value = name := by
  obtain ⟨⟨value, stop⟩, read, same⟩ := map_eq_ok_iff.mp reads
  cases same
  obtain ⟨body, split, spells⟩ := exists_spells_of_readFrom read
  rw [List.drop_zero, Cursor.rest_skip quote] at split
  refine ⟨⟨body, String.ofList value, by rwa [String.toList_ofList]⟩, ?_, rfl⟩
  rw [quote, split]
  exact (quote_append ..).symm

/-! ## Numerals and words -/

namespace Numeral

variable {digits whole : List Char} {fraction : Option (List Char)} {exponent : Option (Bool × List Char)}
  {n : Number}

theorem isDigits_of_readDigits (reads : readDigits cursor = .ok (digits, next)) :
    IsDigits digits ∧ cursor.rest = digits ++ next.rest := by
  unfold readDigits at reads
  split at reads
  case h_1 => cases reads
  case h_2 some none =>
    cases reads
    exact ⟨⟨none, fun _ => List.mem_takeWhile_imp⟩, List.takeWhile_append_dropWhile.symm⟩

theorem isDigits_of_readWhole (reads : readWhole cursor = .ok (whole, next)) :
    IsDigits whole ∧ (whole.head? = some '0' → whole = ['0']) ∧ cursor.rest = whole ++ next.rest := by
  unfold readWhole at reads
  split at reads
  case h_1 rest first =>
    split_ifs at reads with alone
    cases reads
    exact ⟨⟨by simp, by simp; rfl⟩, fun _ => rfl, by rw [first, Cursor.rest_skip first]; rfl⟩
  case h_2 other =>
    obtain ⟨number, split⟩ := isDigits_of_readDigits reads
    refine ⟨number, fun zero => ?_, split⟩
    obtain ⟨rest, rfl⟩ := List.head?_eq_some_iff.mp zero
    exact absurd split (other _)

theorem exists_fraction_of_readFraction (reads : readFraction cursor = .ok (fraction, next)) :
    ∃ text, Fraction fraction text ∧ cursor.rest = text ++ next.rest := by
  unfold readFraction at reads
  split at reads
  case h_1 rest first =>
    obtain ⟨⟨digits, behind⟩, read, reads⟩ := bind_eq_ok_iff.mp reads
    cases reads
    obtain ⟨number, split⟩ := isDigits_of_readDigits read
    exact ⟨'.' :: digits, .some number, by rw [first, ← Cursor.rest_skip first, split]; rfl⟩
  case h_2 =>
    cases reads
    exact ⟨[], .none, rfl⟩

theorem cases_of_readSign {negative : Bool} (reads : readSign cursor = (negative, next)) :
    (negative = false ∧ cursor = next) ∨ (negative = false ∧ cursor.rest = '+' :: next.rest) ∨
      (negative = true ∧ cursor.rest = '-' :: next.rest) := by
  unfold readSign at reads
  split at reads <;> cases reads
  case h_1 rest first => exact .inr (.inl ⟨rfl, by rw [first, Cursor.rest_skip first]⟩)
  case h_2 rest first => exact .inr (.inr ⟨rfl, by rw [first, Cursor.rest_skip first]⟩)
  case h_3 => exact .inl ⟨rfl, rfl⟩

theorem exists_exponent_of_readExponent (reads : readExponent cursor = .ok (exponent, next)) :
    ∃ text, Exponent exponent text ∧ cursor.rest = text ++ next.rest := by
  unfold readExponent at reads
  split at reads
  case h_2 first =>
    cases reads
    exact ⟨[], .none, rfl⟩
  case h_1 mark rest first =>
    split_ifs at reads with marked
    · rcases sign : readSign cursor.skip with ⟨negative, signed⟩
      rw [sign] at reads
      obtain ⟨⟨digits, behind⟩, read, reads⟩ := bind_eq_ok_iff.mp reads
      cases reads
      obtain ⟨number, split⟩ := isDigits_of_readDigits read
      have marked : mark = 'e' ∨ mark = 'E' := by simpa using marked
      rw [← Cursor.rest_skip first] at first
      rcases cases_of_readSign sign with ⟨rfl, rfl⟩ | ⟨rfl, plus⟩ | ⟨rfl, minus⟩
      · exact ⟨mark :: digits, .plain marked number, by rw [first, split]; rfl⟩
      · exact ⟨mark :: '+' :: digits, .positive marked number, by rw [first, plus, split]; rfl⟩
      · exact ⟨mark :: '-' :: digits, .negative marked number, by rw [first, minus, split]; rfl⟩
    · cases reads
      exact ⟨[], .none, rfl⟩

/-- A numeral that is read is spelled by the rules. -/
theorem exists_spells_of_read (reads : read cursor = .ok (n, next)) :
    ∃ text numeral, Spells text numeral ∧ numeral.value = .ok n ∧ cursor.rest = text ++ next.rest := by
  obtain ⟨⟨whole, first⟩, readsWhole, reads⟩ := bind_eq_ok_iff.mp reads
  obtain ⟨⟨fraction, second⟩, readsFraction, reads⟩ := bind_eq_ok_iff.mp reads
  obtain ⟨⟨exponent, third⟩, readsExponent, reads⟩ := bind_eq_ok_iff.mp reads
  simp only at reads
  split at reads
  case h_2 => cases reads
  case h_1 value =>
    cases reads
    obtain ⟨number, zero, behindSign⟩ := isDigits_of_readWhole readsWhole
    obtain ⟨fractionText, fractional, behindWhole⟩ := exists_fraction_of_readFraction readsFraction
    obtain ⟨exponentText, exponential, behindFraction⟩ := exists_exponent_of_readExponent readsExponent
    refine ⟨_, _, .mk number zero fractional exponential, value, ?_⟩
    rw [behindWhole, behindFraction] at behindSign
    by_cases negative : cursor.rest.head? = some '-'
    · obtain ⟨rest, minus⟩ := List.head?_eq_some_iff.mp negative
      simp only [negative, decide_true, if_true, Cursor.rest_skip minus] at behindSign ⊢
      rw [minus, behindSign]
      simp
    · simp only [negative, decide_false, Bool.false_eq_true, if_false] at behindSign ⊢
      rw [behindSign]
      simp

end Numeral

namespace Scalar

variable {scalar : Scalar}

theorem eq_of_readWord {letters : List Char} {word : Scalar}
    (reads : readWord word letters cursor = .ok (scalar, next)) :
    scalar = word ∧ cursor.rest = letters ++ next.rest := by
  induction letters generalizing cursor with
  | nil =>
    cases reads
    exact ⟨rfl, rfl⟩
  | cons letter letters ih =>
    simp only [readWord] at reads
    split_ifs at reads with first
    obtain ⟨rest, first⟩ := List.head?_eq_some_iff.mp first
    obtain ⟨rfl, split⟩ := ih reads
    rw [Cursor.rest_skip first] at split
    exact ⟨rfl, by rw [first, split]; rfl⟩

theorem exists_phrase_of_read (reads : Scalar.read cursor = .ok (scalar, next)) :
    ∃ phrase : Phrase, cursor.rest = phrase.text ++ next.rest ∧ phrase.value = scalar.value := by
  unfold Scalar.read at reads
  split at reads
  case h_1 =>
    obtain ⟨rfl, split⟩ := eq_of_readWord reads
    exact ⟨.word _ _ .null, split, rfl⟩
  case h_2 =>
    obtain ⟨rfl, split⟩ := eq_of_readWord reads
    exact ⟨.word _ _ .true, split, rfl⟩
  case h_3 =>
    obtain ⟨rfl, split⟩ := eq_of_readWord reads
    exact ⟨.word _ _ .false, split, rfl⟩
  case h_4 rest quote =>
    obtain ⟨⟨text, behind⟩, read, same⟩ := map_eq_ok_iff.mp reads
    cases same
    obtain ⟨literal, split, rfl⟩ := StringLiteral.exists_quotation_of_read quote read
    exact ⟨.string literal, split, rfl⟩
  case h_5 c rest _ _ _ _ first =>
    split_ifs at reads with numeric
    obtain ⟨⟨n, behind⟩, read, same⟩ := map_eq_ok_iff.mp reads
    cases same
    obtain ⟨text, numeral, spelled, value, split⟩ := Numeral.exists_spells_of_read read
    exact ⟨.word text _ (.number spelled value), split, rfl⟩
  case h_6 => cases reads

end Scalar

/-! ## Arrays and objects -/

/-- What a reader of nodes reads as a value is a phrase behind white space. -/
def ReadsPhrases (readNode : Cursor → Reading Node) : Prop :=
  ∀ ⦃cursor node stop value⦄, readNode cursor = (node, stop) → node.value = .ok value →
    ∃ next, stop = some next ∧ ∃ (gap : Gap) (phrase : Phrase),
      cursor.rest = gap.text ++ phrase.text ++ next.rest ∧ phrase.value = value

namespace ReadsPhrases

variable {readNode : Cursor → Reading Node} {node : Node} {value : Json}

theorem phrase (sound : ReadsPhrases readNode) (reads : readNode cursor = (node, some next))
    (valued : node.value = .ok value) : ∃ (gap : Gap) (phrase : Phrase),
      cursor.rest = gap.text ++ phrase.text ++ next.rest ∧ phrase.value = value := by
  obtain ⟨_, same, written⟩ := sound reads valued
  cases same
  exact written

/-- What the reader stops at has no value. -/
theorem ne_ok (sound : ReadsPhrases readNode) (reads : readNode cursor = (node, none)) : node.value ≠ .ok value := by
  intro valued
  obtain ⟨_, none, -⟩ := sound reads valued
  cases none

end ReadsPhrases

/-- Two stretches of white space, one behind the other. -/
def Gap.append (gap more : Gap) : Gap :=
  ⟨gap.text ++ more.text, fun c member => (List.mem_append.mp member).elim (gap.blank c) (more.blank c)⟩

variable {readNode : Cursor → Reading Node} {bound number : ℕ} {first : Bool} {stop : Option Cursor}

theorem Items.values_item_eq_ok_iff {head : Node} {rest : Items} {values : List Json} :
    (Items.item head rest).values number = .ok values ↔ ∃ value others, head.value = .ok value ∧
      rest.values (number + 1) = .ok others ∧ value :: others = values := by
  simp only [Items.values, bind_eq_ok_iff, mapError_eq_ok_iff, exists_and_left, Except.ok.injEq]

theorem Members.values_member_eq_ok_iff {name : String} {stop settled rested : Mark} {node : Node} {rest : Members}
    {values : List (String × Json)} : (Members.member name stop settled node rested rest).values = .ok values ↔
      ∃ value others, node.value = .ok value ∧ rest.values = .ok others ∧ (name, value) :: others = values := by
  simp only [Members.values, bind_eq_ok_iff, mapError_eq_ok_iff, exists_and_left, Except.ok.injEq]

/-- What is read behind an opening bracket or a comma: white space and the closing bracket, only behind the
opening bracket, or items. -/
theorem Items.exists_phrases_of_read {items : Items} {values : List Json} (sound : ReadsPhrases readNode)
    (reads : Items.read readNode bound first cursor = (items, stop)) (valued : items.values number = .ok values) :
    ∃ next, stop = some next ∧
      ((first = true ∧ values = [] ∧ ∃ gap : Gap, cursor.rest = gap.text ++ ']' :: next.rest) ∨
        ∃ phrases : Phrase.Items, cursor.rest = phrases.text ++ next.rest ∧ phrases.values = values) := by
  -- the reader refuses in every branch but three, and what it refuses has no values
  induction bound generalizing first cursor items stop number values with
  | zero =>
    cases reads
    cases valued
  | succ bound ih =>
    obtain ⟨gap, behindGap⟩ := cursor.exists_gap_skipBlank
    simp only [Items.read] at reads
    split at reads
    case h_1 =>
      cases reads
      cases valued
    case h_2 rest bracket =>
      split_ifs at reads with opened
      · cases reads
        cases valued
        exact ⟨_, rfl, .inl ⟨opened, rfl, gap, by rw [behindGap, bracket, Cursor.rest_skip bracket]⟩⟩
      · cases reads
        cases valued
    case h_3 =>
      split at reads
      case h_1 head item =>
        cases reads
        obtain ⟨value, others, headed, -⟩ := Items.values_item_eq_ok_iff.mp valued
        exact absurd headed (sound.ne_ok item)
      case h_2 head next item =>
        obtain ⟨behind, behindItem⟩ := next.exists_gap_skipBlank
        split at reads
        case h_1 comma =>
          rcases further : Items.read readNode bound false next.skipBlank.skip with ⟨others, last⟩
          rw [further] at reads
          cases reads
          obtain ⟨value, values, headed, ended, rfl⟩ := Items.values_item_eq_ok_iff.mp valued
          obtain ⟨inner, phrase, split, rfl⟩ := sound.phrase item headed
          obtain ⟨last, rfl, ⟨opened, -⟩ | ⟨phrases, splits, rfl⟩⟩ := ih further ended
          · cases opened
          · rw [Cursor.rest_skip comma] at splits
            refine ⟨last, rfl, .inr ⟨.more (gap.append inner) phrase behind phrases, ?_, rfl⟩⟩
            simp [Phrase.Items.text, Gap.append, behindGap, split, behindItem, comma, splits]
        case h_2 bracket =>
          cases reads
          obtain ⟨value, values, headed, ended, rfl⟩ := Items.values_item_eq_ok_iff.mp valued
          cases ended
          obtain ⟨inner, phrase, split, rfl⟩ := sound.phrase item headed
          refine ⟨_, rfl, .inr ⟨.last (gap.append inner) phrase behind, ?_, rfl⟩⟩
          simp [Phrase.Items.text, Gap.append, behindGap, split, behindItem, bracket, Cursor.rest_skip bracket]
        all_goals
          cases reads
          obtain ⟨value, values, -, ended, -⟩ := Items.values_item_eq_ok_iff.mp valued
          cases ended

/-- What is read behind an opening brace or a comma: white space and the closing brace, only behind the opening
brace, or members. -/
theorem Members.exists_phrases_of_read {members : Members} {values : List (String × Json)}
    (sound : ReadsPhrases readNode) (reads : Members.read readNode bound first cursor = (members, stop))
    (valued : members.values = .ok values) :
    ∃ next, stop = some next ∧
      ((first = true ∧ values = [] ∧ ∃ gap : Gap, cursor.rest = gap.text ++ '\x7d' :: next.rest) ∨
        ∃ phrases : Phrase.Members, cursor.rest = phrases.text ++ next.rest ∧ phrases.values = values) := by
  induction bound generalizing first cursor members stop values with
  | zero =>
    cases reads
    cases valued
  | succ bound ih =>
    obtain ⟨before, behindGap⟩ := cursor.exists_gap_skipBlank
    simp only [Members.read] at reads
    split at reads
    case h_1 =>
      cases reads
      cases valued
    case h_2 rest brace =>
      split_ifs at reads with opened
      · cases reads
        cases valued
        exact ⟨_, rfl, .inl ⟨opened, rfl, before, by rw [behindGap, brace, Cursor.rest_skip brace]⟩⟩
      · cases reads
        cases valued
    case h_4 =>
      cases reads
      cases valued
    case h_3 rest quote =>
      split at reads
      case h_1 =>
        cases reads
        cases valued
      case h_2 name next named =>
        obtain ⟨behindName, behindNamed⟩ := next.exists_gap_skipBlank
        split at reads
        case h_2 =>
          cases reads
          cases valued
        case h_3 =>
          cases reads
          cases valued
        case h_1 colon =>
          obtain ⟨literal, splitName, rfl⟩ := StringLiteral.exists_quotation_of_read quote named
          obtain ⟨start, behindColon⟩ := next.skipBlank.skip.exists_gap_skipBlank
          rw [Cursor.rest_skip colon] at behindColon
          split at reads
          case h_1 node item =>
            cases reads
            obtain ⟨value, others, headed, -⟩ := Members.values_member_eq_ok_iff.mp valued
            exact absurd headed (sound.ne_ok item)
          case h_2 node after item =>
            obtain ⟨behind, behindValue⟩ := after.exists_gap_skipBlank
            split at reads
            case h_1 comma =>
              rcases further : Members.read readNode bound false after.skipBlank.skip with ⟨others, last⟩
              rw [further] at reads
              cases reads
              obtain ⟨value, values, headed, ended, rfl⟩ := Members.values_member_eq_ok_iff.mp valued
              obtain ⟨inner, phrase, split, rfl⟩ := sound.phrase item headed
              obtain ⟨last, rfl, ⟨opened, -⟩ | ⟨phrases, splits, rfl⟩⟩ := ih further ended
              · cases opened
              · rw [Cursor.rest_skip comma] at splits
                refine ⟨last, rfl, .inr
                  ⟨.more ⟨before, literal, behindName, start.append inner⟩ phrase behind phrases, ?_, rfl⟩⟩
                simp [Phrase.Members.text, Label.text, Gap.append, behindGap, splitName, behindNamed, colon, behindColon,
                  split, behindValue, comma, splits]
            case h_2 brace =>
              cases reads
              obtain ⟨value, values, headed, ended, rfl⟩ := Members.values_member_eq_ok_iff.mp valued
              cases ended
              obtain ⟨inner, phrase, split, rfl⟩ := sound.phrase item headed
              refine ⟨_, rfl, .inr ⟨.last ⟨before, literal, behindName, start.append inner⟩ phrase behind, ?_, rfl⟩⟩
              simp [Phrase.Members.text, Label.text, Gap.append, behindGap, splitName, behindNamed, colon, behindColon,
                split, behindValue, brace, Cursor.rest_skip brace]
            all_goals
              cases reads
              obtain ⟨value, values, -, ended, -⟩ := Members.values_member_eq_ok_iff.mp valued
              cases ended

/-! ## Values and texts -/

theorem Node.readsPhrases_ofScalar {node : Node} {value : Json} (reads : Node.ofScalar cursor = (node, stop))
    (valued : node.value = .ok value) :
    ∃ next, stop = some next ∧ ∃ phrase : Phrase, cursor.rest = phrase.text ++ next.rest ∧ phrase.value = value := by
  unfold Node.ofScalar at reads
  split at reads
  case h_1 scalar next read =>
    cases reads
    cases valued
    obtain ⟨phrase, split, same⟩ := Scalar.exists_phrase_of_read read
    exact ⟨next, rfl, phrase, split, same⟩
  case h_2 =>
    cases reads
    cases valued

/-- At every depth, what is read as a value is a phrase. -/
theorem Node.readsPhrases_read (depth : ℕ) : ReadsPhrases (Node.read depth) := by
  induction depth with
  | zero =>
    intro cursor node stop value reads valued
    obtain ⟨gap, behindGap⟩ := cursor.exists_gap_skipBlank
    simp only [Node.read] at reads
    split at reads
    case h_3 =>
      obtain ⟨next, rfl, phrase, split, same⟩ := Node.readsPhrases_ofScalar reads valued
      exact ⟨next, rfl, gap, phrase, by rw [behindGap, split, List.append_assoc], same⟩
    all_goals
      cases reads
      cases valued
  | succ depth ih =>
    intro cursor node stop value reads valued
    obtain ⟨gap, behindGap⟩ := cursor.exists_gap_skipBlank
    simp only [Node.read] at reads
    split at reads
    case h_1 rest bracket =>
      rcases inner : Items.read (Node.read depth) (rest.length + 1) true cursor.skipBlank.skip with ⟨items, last⟩
      rw [inner] at reads
      cases reads
      obtain ⟨values, parts, rfl⟩ := map_eq_ok_iff.mp valued
      obtain ⟨next, rfl, ⟨-, rfl, inside, split⟩ | ⟨phrases, split, rfl⟩⟩ :=
        Items.exists_phrases_of_read ih inner parts
      · rw [Cursor.rest_skip bracket] at split
        exact ⟨next, rfl, gap, .emptyArray inside, by simp [behindGap, bracket, split, Phrase.text], rfl⟩
      · rw [Cursor.rest_skip bracket] at split
        exact ⟨next, rfl, gap, .array phrases, by simp [behindGap, bracket, split, Phrase.text], rfl⟩
    case h_2 rest brace =>
      rcases inner : Members.read (Node.read depth) (rest.length + 1) true cursor.skipBlank.skip with ⟨members, last⟩
      rw [inner] at reads
      cases reads
      obtain ⟨values, parts, rfl⟩ := map_eq_ok_iff.mp valued
      obtain ⟨next, rfl, ⟨-, rfl, inside, split⟩ | ⟨phrases, split, rfl⟩⟩ :=
        Members.exists_phrases_of_read ih inner parts
      · rw [Cursor.rest_skip brace] at split
        exact ⟨next, rfl, gap, .emptyObject inside, by simp [behindGap, brace, split, Phrase.text], rfl⟩
      · rw [Cursor.rest_skip brace] at split
        exact ⟨next, rfl, gap, .object phrases, by simp [behindGap, brace, split, Phrase.text], rfl⟩
    case h_3 =>
      obtain ⟨next, rfl, phrase, split, same⟩ := Node.readsPhrases_ofScalar reads valued
      exact ⟨next, rfl, gap, phrase, by rw [behindGap, split, List.append_assoc], same⟩

/-- A text that is read as a value is a well-formed tree with white space behind it. -/
theorem Json.exists_node_of_ofText {text : List Char} {value : Json} (reads : Json.ofText text = .ok value) :
    ∃ node next raw, Node.ofText text = (node, some next) ∧ node.value = .ok raw ∧ next.skipBlank.rest = [] ∧
      raw.canonical = value := by
  unfold Json.ofText at reads
  rcases read : Node.ofText text with ⟨node, stop⟩
  rw [read] at reads
  cases valued : node.value with
  | error fault =>
    simp only [valued] at reads
    cases reads
  | ok raw =>
    obtain ⟨next, rfl, -⟩ := Node.readsPhrases_read nestingLimit read valued
    simp only [valued] at reads
    split_ifs at reads with done
    cases reads
    exact ⟨node, next, raw, rfl, valued, List.isEmpty_iff.mp done, rfl⟩

/-- A text that is read to its end as a well-formed tree is a writing of the value of this tree. -/
theorem Node.exists_writing_of_ofText {text : List Char} {node : Node} {next : Cursor} {value : Json}
    (reads : Node.ofText text = (node, some next)) (valued : node.value = .ok value)
    (done : next.skipBlank.rest = []) : ∃ writing : Writing, writing.text = text ∧ writing.root.value = value := by
  obtain ⟨gap, phrase, split, same⟩ := (Node.readsPhrases_read nestingLimit).phrase reads valued
  obtain ⟨behind, behindRoot⟩ := next.exists_gap_skipBlank
  refine ⟨⟨gap, phrase, behind⟩, ?_, same⟩
  rw [done, List.append_nil] at behindRoot
  rw [Writing.text, ← behindRoot, ← split]
  rfl

/-- A text that is read as a value is a writing of this value. -/
theorem Json.exists_writing_of_ofText {text : List Char} {value : Json} (reads : Json.ofText text = .ok value) :
    ∃ writing : Writing, writing.text = text ∧ writing.root.value.canonical = value := by
  obtain ⟨node, next, raw, read, valued, done, same⟩ := Json.exists_node_of_ofText reads
  obtain ⟨writing, written, rfl⟩ := Node.exists_writing_of_ofText read valued done
  exact ⟨writing, written, same⟩

end TypedJson
