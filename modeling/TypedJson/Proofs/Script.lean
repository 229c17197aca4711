import TypedJson.Json.StringLiteral
import Mathlib.Data.List.Basic

/-! # String literals of scripts

The header of an artifact is a script, so it is read by the lexical rules of ECMAScript. `Script.Reads` is
the grammar of a string literal between double quotes in a module, with the value that it denotes as UTF-16
code units. Between the quotes only a backslash does not stand for itself, and what it begins denotes fewer
units than it has.
-/

namespace TypedJson.Script

/-- Line feeds, carriage returns, line separators and paragraph separators end a line. -/
def isLineEnd (c : Char) : Bool := c = '\n' || c = '\r' || c = '\u2028' || c = '\u2029'

/-- The number of lines of a text. A carriage return and a line feed after it end one line. -/
def lineCount : List Char → ℕ
  | [] => 1
  | '\r' :: '\n' :: rest => lineCount rest + 1
  | c :: rest => if isLineEnd c then lineCount rest + 1 else lineCount rest

/-- The code units of a code point: one, or two surrogates. -/
def unitsOf (point : ℕ) : List ℕ :=
  if point < 0x10000 then [point]
  else [0xD800 + (point - 0x10000) / 0x400, 0xDC00 + (point - 0x10000) % 0x400]

/-- The code units of a text. -/
def units (text : List Char) : List ℕ := text.flatMap fun c => unitsOf c.toNat

/-- The code unit that a letter after a backslash stands for. -/
def singleEscape? : Char → Option ℕ
  | '\'' => some 0x27
  | '"' => some 0x22
  | '\\' => some 0x5C
  | 'b' => some 0x8
  | 't' => some 0x9
  | 'n' => some 0xA
  | 'v' => some 0xB
  | 'f' => some 0xC
  | 'r' => some 0xD
  | _ => none

/-- Letters that do not stand for themselves after a backslash. -/
def isEscapeLetter (c : Char) : Bool := (singleEscape? c).isSome || c.isDigit || c = 'x' || c = 'u'

/-- What can stand after a backslash, before a given text, and the code units that it denotes. Digits other
than a lone zero are not allowed there in a module. -/
inductive Escape : List Char → List Char → List ℕ → Prop
  | single {letter : Char} {unit : ℕ} {rest : List Char} (known : singleEscape? letter = some unit) :
      Escape [letter] rest [unit]
  | zero {rest : List Char} (alone : ∀ c ∈ rest.head?, c.isDigit = false) : Escape ['0'] rest [0]
  | byte {digits rest : List Char} {unit : ℕ} (two : digits.length = 2)
      (value : StringLiteral.hexNumber? digits = some unit) : Escape ('x' :: digits) rest [unit]
  | word {digits rest : List Char} {unit : ℕ} (four : digits.length = 4)
      (value : StringLiteral.hexNumber? digits = some unit) : Escape ('u' :: digits) rest [unit]
  | point {digits rest : List Char} {point : ℕ} (nonempty : digits ≠ [])
      (value : StringLiteral.hexNumber? digits = some point) (small : point ≤ 0x10FFFF) :
      Escape ('u' :: '\x7b' :: digits ++ ['\x7d']) rest (unitsOf point)
  | continued {lineEnd : Char} {rest : List Char} (ends : isLineEnd lineEnd = true)
      (whole : lineEnd = '\r' → rest.head? ≠ some '\n') : Escape [lineEnd] rest []
  | continuedPair {rest : List Char} : Escape ['\r', '\n'] rest []
  | itself {c : Char} {rest : List Char} (plain : isEscapeLetter c = false) (inLine : isLineEnd c = false) :
      Escape [c] rest (unitsOf c.toNat)

/-- A text begins, behind an opening double quote, with the rest of a string literal that denotes the given
code units; the last text is what follows the closing quote. -/
inductive Reads : List Char → List ℕ → List Char → Prop
  | close {rest : List Char} : Reads ('"' :: rest) [] rest
  | plain {c : Char} {text rest : List Char} {value : List ℕ}
      (bare : c ≠ '"' ∧ c ≠ '\\' ∧ c ≠ '\n' ∧ c ≠ '\r') (reads : Reads text value rest) :
      Reads (c :: text) (unitsOf c.toNat ++ value) rest
  | escape {letters text rest : List Char} {denoted value : List ℕ} (escape : Escape letters text denoted)
      (reads : Reads text value rest) : Reads ('\\' :: letters ++ text) (denoted ++ value) rest

/-- A text is an import of a name from a module, and the name of the module is the value of a literal. -/
def Imports (line name : List Char) (module : List ℕ) : Prop :=
  ∃ literal, line = "import \x7b ".toList ++ name ++ " \x7d from \"".toList ++ literal ∧
    Reads literal module [';']

variable {text body rest letters : List Char} {value denoted : List ℕ}

theorem units_append (text more : List Char) : units (text ++ more) = units text ++ units more :=
  List.flatMap_append

theorem units_cons (c : Char) (text : List Char) : units (c :: text) = unitsOf c.toNat ++ units text :=
  List.flatMap_cons

theorem length_unitsOf_pos (point : ℕ) : 0 < (unitsOf point).length := by
  unfold unitsOf
  split <;> simp

theorem length_unitsOf_le (point : ℕ) : (unitsOf point).length ≤ 2 := by
  unfold unitsOf
  split <;> simp

theorem length_le_units (text : List Char) : text.length ≤ (units text).length := by
  induction text with
  | nil => exact Nat.le_refl 0
  | cons c rest ih =>
    have wide := length_unitsOf_pos c.toNat
    rw [units_cons, List.length_append, List.length_cons]
    omega

theorem isLineEnd_of_all (inLine : text.all (!isLineEnd ·) = true) {c : Char} (member : c ∈ text) :
    isLineEnd c = false := by simpa using List.all_eq_true.mp inLine c member

/-- A text is one line exactly if nothing in it ends a line. -/
theorem lineCount_eq_one_iff : lineCount text = 1 ↔ ∀ c ∈ text, isLineEnd c = false := by
  have positive (text : List Char) : 0 < lineCount text := by
    fun_induction lineCount text <;> omega
  fun_induction lineCount text with
  | case1 => simp
  | case2 rest ih =>
    have more := positive rest
    refine iff_of_false (by omega) fun inLine => ?_
    simpa [isLineEnd] using inLine '\r' (List.mem_cons_self ..)
  | case3 c rest apart ends ih =>
    have more := positive rest
    exact iff_of_false (by omega) fun inLine => by simp [inLine c (List.mem_cons_self ..)] at ends
  | case4 c rest apart inLine ih => simpa [inLine] using ih

/-- An escape denotes no more units than stand after the backslash. -/
theorem Escape.length_le (escape : Escape letters rest denoted) : denoted.length ≤ (units letters).length := by
  have letters := length_le_units letters
  cases escape with
  | single | zero => exact letters
  | byte two | word four => simp only [List.length_cons, List.length_nil] at letters ⊢; omega
  | @point digits _ point =>
    have few := length_unitsOf_le point
    simp only [List.cons_append, List.length_cons, List.length_append] at letters ⊢
    omega
  | continued | continuedPair => exact Nat.zero_le _
  | itself => exact Nat.le_of_eq (by simp [units])

/-- A literal closes at a quote. It denotes no more units than stand before the quote, and fewer if a
backslash is among them. -/
theorem Reads.exists_body (reads : Reads text value rest) :
    ∃ body, text = body ++ '"' :: rest ∧ value.length ≤ (units body).length ∧
      ('\\' ∈ body → value.length < (units body).length) := by
  induction reads with
  | close => exact ⟨[], rfl, Nat.le_refl 0, nofun⟩
  | @plain c text rest value bare reads ih =>
    obtain ⟨body, rfl, few, fewer⟩ := ih
    refine ⟨c :: body, rfl, ?_, fun escaped => ?_⟩
    · rw [units_cons, List.length_append, List.length_append]
      omega
    · have later := (List.mem_cons.mp escaped).resolve_left fun same => bare.2.1 same.symm
      have fewer := fewer later
      rw [units_cons, List.length_append, List.length_append]
      omega
  | @escape letters text rest denoted value escape reads ih =>
    obtain ⟨body, rfl, few, -⟩ := ih
    have short := escape.length_le
    have backslash := length_unitsOf_pos '\\'.toNat
    refine ⟨'\\' :: letters ++ body, by simp, ?_, fun _ => ?_⟩
    all_goals
      rw [List.cons_append, units_cons, units_append, List.length_append, List.length_append,
        List.length_append]
      omega

/-- Characters that stand for themselves are read as they are. -/
theorem Reads.of_bare (bare : ∀ c ∈ body, c ≠ '"' ∧ c ≠ '\\' ∧ c ≠ '\n' ∧ c ≠ '\r') :
    Reads (body ++ '"' :: rest) (units body) rest := by
  induction body with
  | nil => exact .close
  | cons c body ih =>
    rw [units_cons]
    exact .plain (bare c (List.mem_cons_self ..)) (ih fun d later => bare d (List.mem_cons_of_mem _ later))

/-- A text between quotes denotes itself exactly if it has no backslash, provided that it closes no literal
and ends no line. -/
theorem reads_itself_iff (bare : ∀ c ∈ body, c ≠ '"' ∧ c ≠ '\n' ∧ c ≠ '\r') (rest : List Char) :
    Reads (body ++ '"' :: rest) (units body) rest ↔ '\\' ∉ body := by
  constructor
  · intro reads escaped
    obtain ⟨body', same, -, fewer⟩ := reads.exists_body
    obtain rfl := List.append_cancel_right same
    exact Nat.lt_irrefl _ (fewer escaped)
  · intro unescaped
    refine .of_bare fun c member => ?_
    obtain ⟨open', feed, turn⟩ := bare c member
    exact ⟨open', fun same => unescaped (same ▸ member), feed, turn⟩

end TypedJson.Script
