import TypedJson.Proofs.StringLiteral

/-! # Phrases of JSON text

A phrase is a JSON value together with the way it is written: the grammar of JSON text as trees that keep the
white space, the spelling of every string and every numeral, and repeated names. `Phrase.text` is the text of a
phrase and `Phrase.value` its value; a `Writing` is a whole text, with white space around one phrase.
-/

namespace TypedJson

/-- White space between tokens. -/
structure Gap where
  text : List Char
  blank : ∀ c ∈ text, isJsonBlank c = true

/-- A string between quotes. -/
structure Quotation where
  body : List Char
  value : String
  spells : StringLiteral.Spells body value.toList

/-- No white space. -/
def Gap.none : Gap := ⟨[], nofun⟩

/-- A string as it is written by itself. -/
def Quotation.ofString (value : String) : Quotation := ⟨_, value, StringLiteral.spells_encode value.toList⟩

namespace Numeral

/-- One or more digits. -/
def IsDigits (digits : List Char) : Prop := digits ≠ [] ∧ ∀ c ∈ digits, Text.isAsciiDigit c = true

/-- The spelling of a fraction, or of its absence. -/
inductive Fraction : Option (List Char) → List Char → Prop
  | none : Fraction none []
  | some {digits : List Char} (number : IsDigits digits) : Fraction (some digits) ('.' :: digits)

/-- The spelling of an exponent, or of its absence. -/
inductive Exponent : Option (Bool × List Char) → List Char → Prop
  | none : Exponent none []
  | plain {mark : Char} {digits : List Char} (marked : mark = 'e' ∨ mark = 'E') (number : IsDigits digits) :
      Exponent (some (false, digits)) (mark :: digits)
  | positive {mark : Char} {digits : List Char} (marked : mark = 'e' ∨ mark = 'E') (number : IsDigits digits) :
      Exponent (some (false, digits)) (mark :: '+' :: digits)
  | negative {mark : Char} {digits : List Char} (marked : mark = 'e' ∨ mark = 'E') (number : IsDigits digits) :
      Exponent (some (true, digits)) (mark :: '-' :: digits)

/-- The spelling of a numeral. Its whole part begins with a zero only if it is zero. -/
inductive Spells : List Char → Numeral → Prop
  | mk {negative : Bool} {whole fractionText exponentText : List Char} {fraction : Option (List Char)}
      {exponent : Option (Bool × List Char)} (number : IsDigits whole)
      (zero : whole.head? = some '0' → whole = ['0'])
      (fractional : Fraction fraction fractionText) (exponential : Exponent exponent exponentText) :
      Spells ((if negative then ['-'] else []) ++ whole ++ fractionText ++ exponentText)
        ⟨negative, whole, fraction, exponent⟩

end Numeral

/-- A value that is written as a word or a numeral. -/
inductive Word : List Char → Json → Prop
  | null : Word ['n', 'u', 'l', 'l'] .null
  | true : Word ['t', 'r', 'u', 'e'] (.bool true)
  | false : Word ['f', 'a', 'l', 's', 'e'] (.bool false)
  | number {text : List Char} {numeral : Numeral} {n : Number} (spelled : Numeral.Spells text numeral)
      (value : numeral.value = .ok n) : Word text (.number n)

/-- The name of a member, with the white space before it and that around the colon. -/
structure Label where
  before : Gap
  name : Quotation
  behind : Gap
  start : Gap

/-- The name of a member as it is written by itself. -/
def Label.ofString (name : String) : Label := ⟨.none, .ofString name, .none, .none⟩

mutual

/-- A value as it is written. -/
inductive Phrase where
  | word (text : List Char) (value : Json) (written : Word text value)
  | string (literal : Quotation)
  | emptyArray (inside : Gap)
  | array (items : Phrase.Items)
  | emptyObject (inside : Gap)
  | object (members : Phrase.Members)

/-- The items of an array up to its closing bracket. -/
inductive Phrase.Items where
  | last (before : Gap) (item : Phrase) (behind : Gap)
  | more (before : Gap) (item : Phrase) (behind : Gap) (rest : Phrase.Items)

/-- The members of an object up to its closing brace. -/
inductive Phrase.Members where
  | last (label : Label) (value : Phrase) (behind : Gap)
  | more (label : Label) (value : Phrase) (behind : Gap) (rest : Phrase.Members)

end

/-- The text of a quotation, from quote to quote. -/
def Quotation.text (literal : Quotation) : List Char := StringLiteral.quote literal.body

/-- The text from before the name of a member to before its value. -/
def Label.text (label : Label) : List Char :=
  label.before.text ++ label.name.text ++ label.behind.text ++ ':' :: label.start.text

namespace Phrase

mutual

/-- The text of a phrase. -/
def text : Phrase → List Char
  | word text _ _ => text
  | string literal => literal.text
  | emptyArray inside => '[' :: inside.text ++ [']']
  | array items => '[' :: items.text
  | emptyObject inside => '\x7b' :: inside.text ++ ['\x7d']
  | object members => '\x7b' :: members.text

/-- The text of items, with the closing bracket. -/
def Items.text : Items → List Char
  | .last before item behind => before.text ++ item.text ++ behind.text ++ [']']
  | .more before item behind rest => before.text ++ item.text ++ behind.text ++ ',' :: rest.text

/-- The text of members, with the closing brace. -/
def Members.text : Members → List Char
  | .last label value behind => label.text ++ value.text ++ behind.text ++ ['\x7d']
  | .more label value behind rest => label.text ++ value.text ++ behind.text ++ ',' :: rest.text

end

mutual

/-- The value of a phrase. -/
def value : Phrase → Json
  | word _ value _ => value
  | string literal => .string literal.value
  | emptyArray _ => .array []
  | array items => .array items.values
  | emptyObject _ => .object []
  | object members => .object members.values

/-- The values of items. -/
def Items.values : Items → List Json
  | .last _ item _ => [item.value]
  | .more _ item _ rest => item.value :: rest.values

/-- The names and values of members. -/
def Members.values : Members → List (String × Json)
  | .last label value _ => [(label.name.value, value.value)]
  | .more label value _ rest => (label.name.value, value.value) :: rest.values

end

end Phrase

/-- A whole text: a phrase with white space around it. -/
structure Writing where
  before : Gap
  root : Phrase
  behind : Gap

/-- The text of a writing. -/
def Writing.text (writing : Writing) : List Char :=
  writing.before.text ++ writing.root.text ++ writing.behind.text

end TypedJson
