import TypedJson.Proofs.Phrase.Basic
import TypedJson.Text.Blank

/-! # Scanning what is written

`Phrase.entries` lists the members of the objects in a phrase, at every depth and in the order of the text.
`Scans` is about a search that goes through a text from one place to the next. If it passes over whatever is
no name of a member, then what it finds in a phrase is what it finds at one of these names: `Scans.writing`.
-/

namespace TypedJson

variable {rest : List Char}

/-- A member of an object as it is written, and the number of characters before it. -/
structure Phrase.Entry where
  place : ℕ
  label : Label
  value : Phrase

namespace Phrase.Entry

/-- The number of characters before the name. -/
def start (entry : Entry) : ℕ := entry.place + entry.label.before.text.length

/-- The number of characters up to the end of the name. -/
def stop (entry : Entry) : ℕ := entry.start + entry.label.name.text.length

/-- The number of characters before the value. -/
def inside (entry : Entry) : ℕ := entry.place + entry.label.text.length

end Phrase.Entry

namespace Phrase

mutual

/-- The members in a phrase that begins at a place, at every depth. -/
def entries : Phrase → ℕ → List Entry
  | array items, place => items.entries (place + 1)
  | object members, place => members.entries (place + 1)
  | _, _ => []

/-- The members in items that begin at a place. -/
def Items.entries : Items → ℕ → List Entry
  | .last before item _, place => item.entries (place + before.text.length)
  | .more before item behind rest, place => item.entries (place + before.text.length) ++
      rest.entries (place + before.text.length + item.text.length + behind.text.length + 1)

/-- Members that begin at a place, and the members in their values. -/
def Members.entries : Members → ℕ → List Entry
  | .last label value _, place => ⟨place, label, value⟩ :: value.entries (place + label.text.length)
  | .more label value behind rest, place =>
      ⟨place, label, value⟩ :: value.entries (place + label.text.length) ++
        rest.entries (place + label.text.length + value.text.length + behind.text.length + 1)

end

end Phrase

/-- The members in a writing, at every depth. -/
def Writing.entries (writing : Writing) : List Phrase.Entry := writing.root.entries writing.before.text.length

/-! ## What follows a value -/

/-- What follows a value: a separator or a bracket. -/
def valueEnds : List Char := [',', ']', '\x7d']

/-- What follows a string: what follows a value, or the colon behind a name. -/
def literalEnds : List Char := ':' :: valueEnds

/-- The first character that is not white space, if there is one, is one of these. -/
def Begins (marks text : List Char) : Prop := ∀ c ∈ (text.dropWhile isJsonBlank).head?, c ∈ marks

theorem Begins.mono {marks more : List Char} (begins : Begins marks rest) (among : marks ⊆ more) :
    Begins more rest := fun c first => among (begins c first)

namespace Gap

theorem dropWhile_append (gap : Gap) (rest : List Char) :
    (gap.text ++ rest).dropWhile isJsonBlank = rest.dropWhile isJsonBlank :=
  List.dropWhile_append_of_pos gap.blank

theorem begins_append {marks : List Char} {c : Char} (gap : Gap) (mark : c ∈ marks)
    (solid : isJsonBlank c = false) : Begins marks (gap.text ++ c :: rest) := by
  intro d first
  rw [gap.dropWhile_append, List.dropWhile_cons_of_neg (by simp [solid])] at first
  exact Option.some.inj first ▸ mark

theorem begins {marks : List Char} (gap : Gap) : Begins marks gap.text := by
  intro d first
  rw [← List.append_nil gap.text, gap.dropWhile_append] at first
  cases first

theorem unquoted (gap : Gap) : ∀ c ∈ gap.text, c ≠ '"' := by
  rintro _ member rfl
  exact absurd (gap.blank _ member) (by decide)

theorem unquoted_between {left right : Char} (opens : left ≠ '"') (closes : right ≠ '"') (gap : Gap) :
    ∀ c ∈ left :: gap.text ++ [right], c ≠ '"' :=
  List.forall_mem_cons.mpr ⟨opens, List.forall_mem_append.mpr ⟨gap.unquoted, List.forall_mem_singleton.mpr closes⟩⟩

end Gap

theorem isBlank_of_isJsonBlank {c : Char} (blank : isJsonBlank c = true) : Text.isBlank c = true := by
  simp only [isJsonBlank, Bool.or_eq_true, decide_eq_true_eq] at blank
  rcases blank with ((rfl | rfl) | rfl) | rfl <;> rfl

theorem Gap.isBlank (gap : Gap) : ∀ c ∈ gap.text, Text.isBlank c = true := fun c member =>
  isBlank_of_isJsonBlank (gap.blank c member)

/-- No colon follows a value. -/
theorem Begins.head?_trimStart_ne (begins : Begins valueEnds rest) : (Text.trimStart rest).head? ≠ some ':' := by
  have blank : ∀ c ∈ rest.takeWhile isJsonBlank, Text.isBlank c = true := fun c member =>
    isBlank_of_isJsonBlank (List.mem_takeWhile_imp member)
  rw [← List.takeWhile_append_dropWhile (p := isJsonBlank) (l := rest), Text.trimStart,
    List.dropWhile_append_of_pos blank]
  cases first : rest.dropWhile isJsonBlank with
  | nil => exact nofun
  | cons c behind =>
    have mark : c ∈ valueEnds := begins c (by rw [first]; rfl)
    have solid : Text.isBlank c = false := by
      simp only [valueEnds, List.mem_cons, List.not_mem_nil, or_false] at mark
      rcases mark with rfl | rfl | rfl <;> rfl
    rw [List.dropWhile_cons_of_neg (by simp [solid])]
    rintro ⟨⟩
    exact absurd mark (by decide)

/-- A text is not what can stand between two strings: it does not begin, after white space, with what follows a
string. -/
def Unmarked (name : List Char) : Prop := ∀ c ∈ (name.dropWhile isJsonBlank).head?, c ∉ literalEnds

/-- What stands behind a string up to the next one is no such text. -/
theorem Unmarked.apart {name : List Char} (unmarked : Unmarked name) (begins : Begins literalEnds rest) :
    ¬ name ++ ['"'] <+: rest := by
  rintro ⟨tail, rfl⟩
  unfold Begins at begins
  rw [List.append_assoc, List.dropWhile_append] at begins
  cases solid : name.dropWhile isJsonBlank with
  | nil =>
    rw [solid] at begins
    exact absurd (begins '"' rfl) (by decide)
  | cons c behind =>
    rw [solid] at begins
    exact unmarked c (by simp [solid]) (begins c rfl)

/-! ## What follows the strings of a text -/

/-- What stands behind the name of a member. -/
def Label.tail (label : Label) (value : Phrase) (rest : List Char) : List Char :=
  label.behind.text ++ ':' :: (label.start.text ++ (value.text ++ rest))

theorem Label.begins_tail (label : Label) (value : Phrase) (rest : List Char) :
    Begins literalEnds (label.tail value rest) := label.behind.begins_append (by decide) rfl

namespace Phrase

mutual

/-- What stands behind each string in a phrase that has a text behind it. -/
def tails : Phrase → List Char → List (List Char)
  | string _, rest => [rest]
  | array items, rest => items.tails rest
  | object members, rest => members.tails rest
  | _, _ => []

/-- What stands behind each string in items that have a text behind them. -/
def Items.tails : Items → List Char → List (List Char)
  | .last _ item behind, rest => item.tails (behind.text ++ ']' :: rest)
  | .more _ item behind others, rest =>
      item.tails (behind.text ++ ',' :: (others.text ++ rest)) ++ others.tails rest

/-- What stands behind each string in members that have a text behind them. -/
def Members.tails : Members → List Char → List (List Char)
  | .last label value behind, rest =>
      label.tail value (behind.text ++ '\x7d' :: rest) :: value.tails (behind.text ++ '\x7d' :: rest)
  | .more label value behind others, rest =>
      label.tail value (behind.text ++ ',' :: (others.text ++ rest)) ::
        (value.tails (behind.text ++ ',' :: (others.text ++ rest)) ++ others.tails rest)

end

mutual

/-- A string is followed by what follows a value, or by a colon. -/
theorem begins_of_mem_tails (phrase : Phrase) {rest tail : List Char} (stops : Begins valueEnds rest)
    (listed : tail ∈ phrase.tails rest) : Begins literalEnds tail := by
  cases phrase with
  | string literal =>
    obtain rfl := List.mem_singleton.mp listed
    exact stops.mono (List.subset_cons_self ..)
  | array items => exact items.begins_of_mem_tails listed
  | object members => exact members.begins_of_mem_tails listed
  | word => cases listed
  | emptyArray => cases listed
  | emptyObject => cases listed

theorem Items.begins_of_mem_tails (items : Items) {rest tail : List Char} (listed : tail ∈ items.tails rest) :
    Begins literalEnds tail := by
  cases items with
  | last before item behind => exact item.begins_of_mem_tails (behind.begins_append (by decide) rfl) listed
  | more before item behind others =>
    rcases List.mem_append.mp listed with here | later
    · exact item.begins_of_mem_tails (behind.begins_append (by decide) rfl) here
    · exact others.begins_of_mem_tails later

theorem Members.begins_of_mem_tails (members : Members) {rest tail : List Char}
    (listed : tail ∈ members.tails rest) : Begins literalEnds tail := by
  cases members with
  | last label value behind =>
    rcases List.mem_cons.mp listed with rfl | inside
    · exact label.begins_tail _ _
    · exact value.begins_of_mem_tails (behind.begins_append (by decide) rfl) inside
  | more label value behind others =>
    rcases List.mem_cons.mp listed with rfl | listed
    · exact label.begins_tail _ _
    · rcases List.mem_append.mp listed with inside | later
      · exact value.begins_of_mem_tails (behind.begins_append (by decide) rfl) inside
      · exact others.begins_of_mem_tails later

end

end Phrase

/-- What stands behind each string of a writing. -/
def Writing.tails (writing : Writing) : List (List Char) := writing.root.tails writing.behind.text

theorem Writing.begins_of_mem_tails {writing : Writing} {tail : List Char} (listed : tail ∈ writing.tails) :
    Begins literalEnds tail := writing.root.begins_of_mem_tails writing.behind.begins listed

/-! ## Characters of words -/

/-- Words and numerals are made of letters, digits, signs and points. -/
def isWordLetter (c : Char) : Bool := c.isAlphanum || c = '+' || c = '-' || c = '.'

namespace Numeral

variable {digits text : List Char} {numeral : Numeral}

theorem IsDigits.all_isWordLetter (number : IsDigits digits) : digits.all isWordLetter :=
  List.all_eq_true.mpr fun c member => by
    have digit : c.isDigit = true := number.2 c member
    simp [isWordLetter, Char.isAlphanum, digit]

theorem Spells.all_isWordLetter (spells : Spells text numeral) : text.all isWordLetter := by
  obtain ⟨number, -, fractional, exponential⟩ := spells
  rename_i negative whole fractionText exponentText fraction exponent
  have sign : (if negative then ['-'] else []).all isWordLetter = true := by cases negative <;> rfl
  have point : fractionText.all isWordLetter = true := by
    cases fractional with
    | none => rfl
    | some number => exact number.all_isWordLetter
  have power : exponentText.all isWordLetter = true := by
    cases exponential with
    | none => rfl
    | plain marked number => rcases marked with rfl | rfl <;> exact number.all_isWordLetter
    | positive marked number => rcases marked with rfl | rfl <;> exact number.all_isWordLetter
    | negative marked number => rcases marked with rfl | rfl <;> exact number.all_isWordLetter
  simp only [List.all_append, sign, number.all_isWordLetter, point, power, Bool.and_self]

theorem Spells.ne_nil (spells : Spells text numeral) : text ≠ [] := by
  obtain ⟨number, -, -, -⟩ := spells
  simp [number.1]

end Numeral

theorem Word.all_isWordLetter {text : List Char} {value : Json} (written : Word text value) :
    text.all isWordLetter := by
  cases written with
  | number spelled value => exact spelled.all_isWordLetter
  | _ => decide

theorem Word.ne_nil {text : List Char} {value : Json} (written : Word text value) : text ≠ [] := by
  cases written with
  | number spelled value => exact spelled.ne_nil
  | _ => decide

theorem Word.unquoted {text : List Char} {value : Json} (written : Word text value) : ∀ c ∈ text, c ≠ '"' := by
  rintro _ member rfl
  have letter := List.all_eq_true.mp written.all_isWordLetter '"' member
  exact absurd letter (by decide)

/-! ## Searching -/

variable {α : Type} {scan : ℕ → List Char → Option α} {hit : Phrase.Entry → Option α} {free : List Char → Prop}
  {text : List Char}

/-- A search that goes through a text passes over what is no name of a member, and finds at a name what belongs
to its member, as long as it is free of what could stand behind a string. -/
structure Scans (scan : ℕ → List Char → Option α) (hit : Phrase.Entry → Option α) (free : List Char → Prop) :
    Prop where
  bare {c : Char} (unquoted : c ≠ '"') (place : ℕ) (rest : List Char) :
    scan place (c :: rest) = scan (place + 1) rest
  literal (literal : Quotation) (place : ℕ) {rest : List Char} (stops : Begins valueEnds rest) (clear : free rest) :
    scan place (literal.text ++ rest) = scan (place + literal.text.length) rest
  name (entry : Phrase.Entry) {rest : List Char} (stops : Begins valueEnds rest)
    (clear : free (entry.label.tail entry.value rest)) :
    scan entry.start (entry.label.name.text ++ entry.label.tail entry.value rest) =
      (hit entry).or (scan entry.stop (entry.label.tail entry.value rest))

theorem findSome?_cons_eq_or {β : Type} (f : β → Option α) (b : β) (rest : List β) :
    (b :: rest).findSome? f = (f b).or (rest.findSome? f) := by
  rw [List.findSome?_cons]
  cases f b <;> rfl

namespace Scans

theorem unquoted (scans : Scans scan hit free) (plain : ∀ c ∈ text, c ≠ '"') (place : ℕ) (rest : List Char) :
    scan place (text ++ rest) = scan (place + text.length) rest := by
  induction text generalizing place with
  | nil => rfl
  | cons c text ih =>
    rw [List.cons_append, scans.bare (plain c List.mem_cons_self),
      ih (fun d member => plain d (List.mem_cons_of_mem _ member)), List.length_cons]
    congr 1
    omega

/-- At the label of a member it finds what belongs to the member, or it comes to the value. -/
theorem label (scans : Scans scan hit free) (place : ℕ) (label : Label) (value : Phrase)
    (stops : Begins valueEnds rest) (clear : free (label.tail value rest)) :
    scan place (label.text ++ (value.text ++ rest)) =
      (hit ⟨place, label, value⟩).or (scan (place + label.text.length) (value.text ++ rest)) := by
  have name := scans.name ⟨place, label, value⟩ stops clear
  simp only [Phrase.Entry.start, Phrase.Entry.stop, Label.tail] at name
  simp only [Label.text, List.append_assoc, List.cons_append]
  rw [scans.unquoted label.before.unquoted, name, scans.unquoted label.behind.unquoted,
    scans.bare (by decide), scans.unquoted label.start.unquoted]
  congr 2
  simp
  omega

-- Along the tree: at each token the search moves on by the characters of the token, so the places that
-- `Phrase.entries` counts are those that it comes to.
mutual

theorem phrase (scans : Scans scan hit free) (phrase : Phrase) (place : ℕ) {rest : List Char}
    (stops : Begins valueEnds rest) (clear : ∀ tail ∈ phrase.tails rest, free tail) :
    scan place (phrase.text ++ rest) =
      ((phrase.entries place).findSome? hit).or (scan (place + phrase.text.length) rest) := by
  cases phrase with
  | word text value written => exact scans.unquoted written.unquoted place rest
  | string literal => exact scans.literal literal place stops (clear rest List.mem_cons_self)
  | emptyArray inside => exact scans.unquoted (inside.unquoted_between (by decide) (by decide)) place rest
  | array items =>
    simp only [Phrase.text, Phrase.entries, List.cons_append]
    rw [scans.bare (by decide), scans.items items _ rest clear]
    congr 2
    simp
    omega
  | emptyObject inside => exact scans.unquoted (inside.unquoted_between (by decide) (by decide)) place rest
  | object members =>
    simp only [Phrase.text, Phrase.entries, List.cons_append]
    rw [scans.bare (by decide), scans.members members _ rest clear]
    congr 2
    simp
    omega

theorem items (scans : Scans scan hit free) (items : Phrase.Items) (place : ℕ) (rest : List Char)
    (clear : ∀ tail ∈ items.tails rest, free tail) : scan place (items.text ++ rest) =
      ((items.entries place).findSome? hit).or (scan (place + items.text.length) rest) := by
  cases items with
  | last before item behind =>
    simp only [Phrase.Items.text, Phrase.Items.entries, List.append_assoc, List.singleton_append]
    rw [scans.unquoted before.unquoted, scans.phrase item _ (behind.begins_append (by decide) rfl) clear,
      scans.unquoted behind.unquoted, scans.bare (by decide)]
    congr 2
    simp
    omega
  | more before item behind others =>
    obtain ⟨here, later⟩ := List.forall_mem_append.mp clear
    simp only [Phrase.Items.text, Phrase.Items.entries, List.append_assoc, List.cons_append, List.findSome?_append,
      Option.or_assoc]
    rw [scans.unquoted before.unquoted, scans.phrase item _ (behind.begins_append (by decide) rfl) here,
      scans.unquoted behind.unquoted, scans.bare (by decide), scans.items others _ rest later]
    congr 3
    simp
    omega

theorem members (scans : Scans scan hit free) (members : Phrase.Members) (place : ℕ) (rest : List Char)
    (clear : ∀ tail ∈ members.tails rest, free tail) : scan place (members.text ++ rest) =
      ((members.entries place).findSome? hit).or (scan (place + members.text.length) rest) := by
  cases members with
  | last label value behind =>
    obtain ⟨name, inside⟩ := List.forall_mem_cons.mp clear
    have stops : Begins valueEnds (behind.text ++ '\x7d' :: rest) := behind.begins_append (by decide) rfl
    simp only [Phrase.Members.text, Phrase.Members.entries, List.append_assoc, List.singleton_append]
    rw [scans.label place label value stops name, scans.phrase value _ stops inside, scans.unquoted behind.unquoted,
      scans.bare (by decide), findSome?_cons_eq_or, Option.or_assoc]
    congr 3
    simp
    omega
  | more label value behind others =>
    obtain ⟨name, inside, later⟩ : _ ∧ _ ∧ _ :=
      (List.forall_mem_cons.mp clear).imp_right List.forall_mem_append.mp
    have stops : Begins valueEnds (behind.text ++ ',' :: (others.text ++ rest)) :=
      behind.begins_append (by decide) rfl
    simp only [Phrase.Members.text, Phrase.Members.entries, List.append_assoc, List.cons_append]
    rw [scans.label place label value stops name, scans.phrase value _ stops inside, scans.unquoted behind.unquoted,
      scans.bare (by decide), scans.members others _ rest later, findSome?_cons_eq_or, List.findSome?_append,
      Option.or_assoc, Option.or_assoc]
    congr 4
    simp
    omega

end

/-- What a search finds in a writing is what it finds at the first name that it finds something at. -/
theorem writing (scans : Scans scan hit free) (ends : ∀ place, scan place [] = none) (writing : Writing)
    (clear : ∀ tail ∈ writing.tails, free tail) : scan 0 writing.text = writing.entries.findSome? hit := by
  rw [Writing.text, List.append_assoc, scans.unquoted writing.before.unquoted,
    scans.phrase _ _ writing.behind.begins clear, Nat.zero_add, Writing.entries]
  rw [← List.append_nil writing.behind.text, scans.unquoted writing.behind.unquoted, ends, Option.or_none]

end Scans

end TypedJson
