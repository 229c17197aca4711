import TypedJson.Proofs.Phrase.Basic
import TypedJson.Proofs.TypeTag
import Mathlib.Tactic.IntervalCases

/-! # Where the tag of a text is found

The tag of a text is the first one that is spelled in it. So it is read behind any text that does not name a
tag, and in front of any text at all, whatever white space is in it: `TypeTag.ofText?_around`.
-/

namespace TypedJson

/-- White space of any script. -/
structure Space where
  text : List Char
  blank : ∀ c ∈ text, Text.isBlank c = true

/-- No white space. -/
def Space.none : Space := ⟨[], List.forall_mem_nil _⟩

namespace TypeTag

variable {wanted input rest space : List Char} {c : Char} {tag found : TypeTag}

/-! ## Values that can be spliced -/

/-- A letter of an identifier. -/
def IsNameLetter (c : Char) : Prop := ('A' ≤ c ∧ c ≤ 'Z') ∨ ('a' ≤ c ∧ c ≤ 'z') ∨ c = '_' ∨ c = '$'

/-- The source is not empty, has no quotes and ends no line; the name is an identifier. -/
structure Sound (tag : TypeTag) : Prop where
  given : tag.source ≠ ""
  inLine : ∀ c ∈ tag.source.toList, c ≠ '"' ∧ c ≠ '\n' ∧ c ≠ '\r'
  identifier : ∃ first others, tag.name.toList = first :: others ∧ IsNameLetter first ∧
    ∀ c ∈ others, IsNameLetter c ∨ ('0' ≤ c ∧ c ≤ '9')

theorem isIdentifierStart_iff : isIdentifierStart c = true ↔ IsNameLetter c := by
  have alpha : c.isAlpha = true ↔ ('A' ≤ c ∧ c ≤ 'Z') ∨ ('a' ≤ c ∧ c ≤ 'z') := by
    delta Char.isAlpha Char.isUpper Char.isLower
    simp [Char.le_def]
  simp [isIdentifierStart, IsNameLetter, alpha, or_assoc]

theorem isDigit_iff : c.isDigit = true ↔ '0' ≤ c ∧ c ≤ '9' := by simp [Char.isDigit, Char.le_def]

theorem isSource_iff : isSource input = true ↔ input ≠ [] ∧ ∀ c ∈ input, c ≠ '"' ∧ c ≠ '\n' ∧ c ≠ '\r' := by
  simp [isSource, and_assoc]

theorem isIdentifier_iff : isIdentifier input = true ↔
    ∃ first others, input = first :: others ∧ IsNameLetter first ∧
      ∀ c ∈ others, IsNameLetter c ∨ ('0' ≤ c ∧ c ≤ '9') := by
  cases input with
  | nil => simp [isIdentifier]
  | cons first others => simp [isIdentifier, isIdentifierStart_iff, isDigit_iff]

/-- The check lets a tag pass if its values are sound. -/
theorem check_eq_some_iff : check tag = some found ↔ found = tag ∧ tag.Sound := by
  have sound : (isSource tag.source.toList && isIdentifier tag.name.toList) = true ↔ tag.Sound := by
    rw [Bool.and_eq_true, isSource_iff, isIdentifier_iff, Ne, String.toList_eq_nil_iff]
    constructor
    · rintro ⟨⟨given, inLine⟩, identifier⟩
      exact ⟨given, inLine, identifier⟩
    · rintro ⟨given, inLine, identifier⟩
      exact ⟨⟨given, inLine⟩, identifier⟩
  unfold check
  split
  case isTrue passed => simp [sound.mp passed, eq_comm]
  case isFalse refused => simp [mt sound.mpr refused]

/-! ## Tokens -/

theorem skipText_append : skipText wanted (wanted ++ rest) = some rest := by simp [skipText]

theorem skipText_eq_none (other : ¬ wanted <+: input) : skipText wanted input = none := by
  simp [skipText, other]

theorem skipToken_append (blank : ∀ c ∈ space, Text.isBlank c = true) :
    skipToken wanted (space ++ rest) = skipToken wanted rest := by
  rw [skipToken, skipToken, Text.trimStart, Text.trimStart, List.dropWhile_append_of_pos blank]

theorem skipToken_cons (solid : Text.isBlank c = false) :
    skipToken wanted (c :: rest) = skipText wanted (c :: rest) := by
  rw [skipToken, Text.trimStart, List.dropWhile_cons_of_neg (by simp [solid])]

theorem skipToken_mark (blank : ∀ c ∈ space, Text.isBlank c = true) (solid : Text.isBlank c = false) :
    skipToken [c] (space ++ c :: rest) = some rest := by
  rw [skipToken_append blank, skipToken_cons solid]
  exact skipText_append

theorem skipToken_other {d : Char} (blank : ∀ c ∈ space, Text.isBlank c = true) (solid : Text.isBlank c = false)
    (other : d ≠ c) : skipToken [d] (space ++ c :: rest) = none := by
  rw [skipToken_append blank, skipToken_cons solid]
  exact skipText_eq_none (by simp [List.cons_prefix_cons, other])

theorem skipKey_keyText (blank : ∀ c ∈ space, Text.isBlank c = true) (key : TagKey) :
    skipKey (space ++ (keyText key ++ rest)) = some (key, rest) := by
  rw [skipKey, skipToken_append blank, skipToken_append blank]
  cases key with
  | source => rfl
  | name => rfl

theorem readQuoted_quotation (blank : ∀ c ∈ space, Text.isBlank c = true) (literal : Quotation) :
    readQuoted (space ++ (literal.text ++ rest)) = some (literal.text, rest) := by
  have quoted := literal.spells.closed.splitQuoted_eq rest
  rw [Quotation.text, StringLiteral.quote_append, readQuoted, skipToken_mark blank (by decide)]
  simp [quoted, StringLiteral.quote]

/-! ## A tag as it is written -/

/-- The two entries of a tag: the name and the value of each. -/
structure Entries where
  first : TagKey × Quotation
  second : TagKey × Quotation

/-- The entries with their values as they are written. -/
def Entries.texts (entries : Entries) : (TagKey × List Char) × (TagKey × List Char) :=
  ((entries.first.1, entries.first.2.text), (entries.second.1, entries.second.2.text))

/-- One entry gives the source and the other one the name. -/
inductive Gives : Entries → TypeTag → Prop
  | sourceFirst (source name : Quotation) : Gives ⟨(.source, source), (.name, name)⟩ ⟨source.value, name.value⟩
  | nameFirst (name source : Quotation) : Gives ⟨(.name, name), (.source, source)⟩ ⟨source.value, name.value⟩

theorem gives_iff {key other : TagKey} {literal more : Quotation} : Gives ⟨(key, literal), (other, more)⟩ tag ↔
    key ≠ other ∧ tag = if key = .source then ⟨literal.value, more.value⟩ else ⟨more.value, literal.value⟩ := by
  constructor
  · rintro (_ | _)
    · exact ⟨by decide, rfl⟩
    · exact ⟨by decide, rfl⟩
  · rintro ⟨different, rfl⟩
    match key, other with
    | .source, .source => exact absurd rfl different
    | .source, .name => exact .sourceFirst literal more
    | .name, .source => exact .nameFirst literal more
    | .name, .name => exact absurd rfl different

theorem Gives.unique {entries : Entries} (gives : Gives entries tag) (other : Gives entries found) :
    tag = found := by
  rw [(gives_iff.mp gives).2, (gives_iff.mp other).2]

/-- The tag of a text is what the first spelling of a tag gives, if it is sound. -/
theorem ofText?_eq_some_iff_gives {entries : Entries} (first : findSpelling input = some entries.texts) :
    ofText? input = some tag ↔ Gives entries tag ∧ tag.Sound := by
  obtain ⟨⟨key, literal⟩, ⟨other, more⟩⟩ := entries
  have value (literal : Quotation) : Json.stringOfText? literal.text = some literal.value := by
    rw [Quotation.text, Json.stringOfText?_quote literal.spells, String.ofList_toList]
  rw [gives_iff]
  by_cases same : key = other
  · simp [ofText?, first, Entries.texts, same]
  · have checked : ofText? input = check (if key = .source then ⟨literal.value, more.value⟩
        else ⟨more.value, literal.value⟩) := by
      simp only [ofText?, first, Entries.texts, Option.bind_eq_bind, Option.bind_some, if_neg same, value]
      split <;> rfl
    rw [checked, check_eq_some_iff]
    constructor
    · rintro ⟨rfl, sound⟩
      exact ⟨⟨same, rfl⟩, sound⟩
    · rintro ⟨⟨-, rfl⟩, sound⟩
      exact ⟨rfl, sound⟩

/-- An entry of a tag with the white space in it. -/
structure Field where
  before : Space
  key : TagKey
  behind : Space
  start : Space
  value : Quotation

/-- The text of an entry. -/
def Field.text (field : Field) : List Char :=
  field.before.text ++ keyText field.key ++ field.behind.text ++ ':' :: field.start.text ++ field.value.text

theorem readEntry_field (field : Field) :
    readEntry (field.text ++ rest) = some ((field.key, field.value.text), rest) := by
  simp only [Field.text, List.append_assoc, List.cons_append]
  rw [readEntry, skipKey_keyText field.before.blank]
  simp only [Option.bind_eq_bind, Option.bind_some]
  rw [skipToken_mark field.behind.blank (by decide), Option.bind_some, readQuoted_quotation field.start.blank]
  rfl

/-- A tag with the white space in it. -/
structure Spelling where
  behind : Space
  start : Space
  first : Field
  between : Space
  second : Field
  stop : Space

namespace Spelling

/-- What is behind the name in the text of a tag. -/
def tail (spelling : Spelling) : List Char :=
  spelling.behind.text ++ ':' :: spelling.start.text ++ '\x7b' :: spelling.first.text ++ spelling.between.text ++
    ',' :: spelling.second.text ++ spelling.stop.text ++ ['\x7d']

/-- The text of a tag. -/
def text (spelling : Spelling) : List Char := memberText ++ spelling.tail

/-- The entries of a tag. -/
def entries (spelling : Spelling) : Entries :=
  ⟨(spelling.first.key, spelling.first.value), (spelling.second.key, spelling.second.value)⟩

theorem readSpelling_text (spelling : Spelling) (rest : List Char) :
    readSpelling (spelling.text ++ rest) = some spelling.entries.texts := by
  simp only [text, tail, List.append_assoc, List.cons_append, List.nil_append]
  rw [readSpelling, skipText_append]
  simp only [Option.bind_eq_bind, Option.bind_some]
  rw [skipToken_mark spelling.behind.blank (by decide), Option.bind_some,
    skipToken_mark spelling.start.blank (by decide), Option.bind_some, readEntry_field, Option.bind_some]
  simp only
  rw [skipToken_mark spelling.between.blank (by decide), Option.bind_some, readEntry_field, Option.bind_some]
  simp only
  rw [skipToken_mark spelling.stop.blank (by decide)]
  rfl

end Spelling

/-! ## What stands before a tag -/

theorem readSpelling_eq_none (other : ¬ memberText <+: input) : readSpelling input = none := by
  rw [readSpelling, skipText_eq_none other]
  rfl

/-- The name of a tag does not begin inside itself: no tag begins with a part of the name in front of a whole
one. -/
theorem readSpelling_cut {front : List Char} (cut : front <+: memberText) (begun : front ≠ [])
    (short : front ≠ memberText) : readSpelling (front ++ (memberText ++ rest)) = none := by
  have bound : front.length ≤ 7 := cut.length_le
  rw [List.prefix_iff_eq_take] at cut
  generalize front.length = n at cut bound
  subst cut
  interval_cases n
  case «0» => exact absurd rfl begun
  case «7» => exact absurd rfl short
  all_goals rfl

theorem readSpelling_front {front : List Char} (begun : front ≠ []) (apart : ¬ memberText <+: front) :
    readSpelling (front ++ (memberText ++ rest)) = none := by
  by_cases starts : memberText <+: front ++ (memberText ++ rest)
  · rcases List.prefix_or_prefix_of_prefix starts (List.prefix_append front _) with whole | cut
    · exact absurd whole apart
    · exact readSpelling_cut cut begun fun whole => apart (whole ▸ List.prefix_rfl)
  · exact readSpelling_eq_none starts

/-- A text that does not name a tag is passed over. -/
theorem findSpelling_append {front : List Char} {found : (TagKey × List Char) × (TagKey × List Char)}
    (apart : ¬ memberText <:+: front) (here : readSpelling (memberText ++ rest) = some found) :
    findSpelling (front ++ (memberText ++ rest)) = some found := by
  induction front with
  | nil =>
    change (readSpelling (memberText ++ rest)).or _ = _
    rw [here]
    rfl
  | cons c front ih =>
    have none : readSpelling (c :: front ++ (memberText ++ rest)) = none :=
      readSpelling_front (List.cons_ne_nil c front) fun starts => apart starts.isInfix
    have further := ih fun inside => apart (List.infix_cons inside)
    change (readSpelling (c :: front ++ (memberText ++ rest))).or (findSpelling (front ++ (memberText ++ rest))) = _
    rw [none, further]
    rfl

/-- A tag is read as it is written, whatever stands behind it, and before it whatever does not name a tag. It is
the tag of the text if its values are sound; if not, the text has no tag. -/
theorem ofText?_around {front : List Char} (apart : ¬ memberText <:+: front) (spelling : Spelling)
    (gives : Gives spelling.entries tag) (rest : List Char) :
    (tag.Sound → ofText? (front ++ spelling.text ++ rest) = some tag) ∧
      (¬ tag.Sound → ofText? (front ++ spelling.text ++ rest) = none) := by
  have here := spelling.readSpelling_text rest
  simp only [Spelling.text, List.append_assoc] at here ⊢
  have first := findSpelling_append apart here
  constructor
  · intro sound
    exact (ofText?_eq_some_iff_gives first).mpr ⟨gives, sound⟩
  · intro unsound
    rw [Option.eq_none_iff_forall_ne_some]
    intro found tagged
    obtain ⟨given, sound⟩ := (ofText?_eq_some_iff_gives first).mp tagged
    exact unsound (gives.unique given ▸ sound)

/-- The tag is found behind a broken text that ends inside another name of a tag. -/
theorem ofText?_around_cut_name : ofText? ("\x7b,, \"$type".toList ++
    "\"$type\" :\u2028\x7b\"$import\":\"M\" , \"$from\":\"dir\\\\model.ts\"\x7d".toList ++ " ]".toList) =
      some ⟨"dir\\model.ts", "M"⟩ := by
  have apart : ¬ memberText <:+: "\x7b,, \"$type".toList := by decide +kernel
  have checked : check ⟨"dir\\model.ts", "M"⟩ = some ⟨"dir\\model.ts", "M"⟩ := by decide +kernel
  have sound := (check_eq_some_iff.mp checked).2
  obtain ⟨spelling, text, gives⟩ : ∃ spelling : Spelling,
      spelling.text = "\"$type\" :\u2028\x7b\"$import\":\"M\" , \"$from\":\"dir\\\\model.ts\"\x7d".toList ∧
        Gives spelling.entries ⟨"dir\\model.ts", "M"⟩ :=
    ⟨⟨⟨[' '], List.all_eq_true.mp rfl⟩, ⟨['\u2028'], List.all_eq_true.mp rfl⟩,
      ⟨.none, .name, .none, .none, .ofString "M"⟩, ⟨[' '], List.all_eq_true.mp rfl⟩,
      ⟨⟨[' '], List.all_eq_true.mp rfl⟩, .source, .none, .none, .ofString "dir\\model.ts"⟩,
      .none⟩, by decide +kernel, .nameFirst _ _⟩
  have around := (ofText?_around apart spelling gives " ]".toList).1 sound
  rwa [text] at around

end TypeTag

end TypedJson
