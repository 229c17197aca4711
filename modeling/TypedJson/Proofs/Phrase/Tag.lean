import TypedJson.Proofs.Phrase.Reading
import TypedJson.Proofs.Phrase.Scan
import TypedJson.Proofs.TagSpelling

/-! # The member that is the tag of a text

In a text that is JSON, the spelling of a tag is that of a member of an object at some depth. So the tag of the
text is what the first member gives that is written as a tag: `TypeTag.ofText?_eq_first_spelled`. This need not
be a member of the object that the text is.
-/

namespace TypedJson

/-! ## Members that spell a tag -/

/-- The literal of a string. -/
def Phrase.quotation? : Phrase → Option Quotation
  | string literal => some literal
  | _ => none

/-- The entry of a tag that a name spells. -/
def Label.tagKey? (label : Label) : Option TagKey :=
  if label.name.text = TypeTag.keyText .source then some .source
  else if label.name.text = TypeTag.keyText .name then some .name
  else none

/-- The entry of a tag that a member is. -/
def Label.tagEntry? (label : Label) (value : Phrase) : Option (TagKey × Quotation) := do
  let key ← label.tagKey?
  let literal ← value.quotation?
  some (key, literal)

/-- The entries of a tag that an object has, if it is written with two members and these are entries of a tag. -/
def Phrase.tagEntries? : Phrase → Option TypeTag.Entries
  | object (.more label value _ (.last other last _)) => do
    let first ← label.tagEntry? value
    let second ← other.tagEntry? last
    some ⟨first, second⟩
  | _ => none

/-- The entries of the tag that a member is. What stands in its name up to the closing quote ends in the name of
a tag, and may have more before it if the quote that begins this name is escaped. -/
def Phrase.Entry.tagEntries? (entry : Phrase.Entry) : Option TypeTag.Entries :=
  if TypeTag.memberText <:+ entry.label.name.text then entry.value.tagEntries? else none

theorem isBlank_of_isWordLetter {c : Char} (letter : isWordLetter c = true) : Text.isBlank c = false := by
  have none : ∀ n ∈ Text.blanks, isWordLetter (Char.ofNat n) = false := by decide
  rw [Bool.eq_false_iff]
  intro blank
  have white := none c.toNat (List.contains_iff_mem.mp blank)
  rw [Char.ofNat_toNat, letter] at white
  cases white

namespace Phrase

/-- A value begins with a quote only if it is a string, and with a brace only if it is an object. -/
theorem exists_head (value : Phrase) : ∃ c tail, value.text = c :: tail ∧ Text.isBlank c = false ∧
    (c = '"' → value.quotation?.isSome) ∧
    (c = '\x7b' → (∃ inside, value = .emptyObject inside) ∨ ∃ members, value = .object members) := by
  cases value with
  | word text value written =>
    obtain ⟨c, tail, rfl⟩ := List.exists_cons_of_ne_nil written.ne_nil
    have letter := List.all_eq_true.mp written.all_isWordLetter c List.mem_cons_self
    refine ⟨c, tail, rfl, isBlank_of_isWordLetter letter, ?_, ?_⟩ <;> rintro rfl <;> exact absurd letter (by decide)
  | string literal => exact ⟨'"', _, rfl, rfl, fun _ => rfl, fun same => absurd same (by decide)⟩
  | emptyArray inside =>
    exact ⟨'[', _, rfl, rfl, fun same => absurd same (by decide), fun same => absurd same (by decide)⟩
  | array items =>
    exact ⟨'[', _, rfl, rfl, fun same => absurd same (by decide), fun same => absurd same (by decide)⟩
  | emptyObject inside =>
    exact ⟨'\x7b', _, rfl, rfl, fun same => absurd same (by decide), fun _ => .inl ⟨inside, rfl⟩⟩
  | object members =>
    exact ⟨'\x7b', _, rfl, rfl, fun same => absurd same (by decide), fun _ => .inr ⟨members, rfl⟩⟩

end Phrase

namespace TypeTag

variable {input rest space : List Char} {c : Char}

theorem skipToken_colon (begins : Begins valueEnds rest) : skipToken [':'] rest = none :=
  skipText_eq_none fun starts => begins.head?_trimStart_ne (List.head?_eq_some_iff.mpr
    ⟨_, (List.prefix_iff_eq_append.mp starts).symm⟩)

/-- What stands between the quotes of the name of a value. -/
def keyBody : TagKey → List Char
  | .source => ['$', 'f', 'r', 'o', 'm']
  | .name => ['$', 'i', 'm', 'p', 'o', 'r', 't']

theorem keyText_eq_quote (key : TagKey) : keyText key = StringLiteral.quote (keyBody key) := by cases key <;> rfl

theorem closed_keyBody (key : TagKey) : StringLiteral.Closed (keyBody key) :=
  .of_all (by cases key <;> rfl)

theorem skipToken_name (blank : ∀ c ∈ space, Text.isBlank c = true) (name : Quotation) (key : TagKey) :
    skipToken (keyText key) (space ++ (name.text ++ rest)) =
      if name.text = keyText key then some rest else none := by
  rw [skipToken_append blank]
  have first : name.text ++ rest = '"' :: (name.body ++ '"' :: rest) := StringLiteral.quote_append ..
  rw [first, skipToken_cons (by decide), ← first]
  split
  case isTrue same => rw [same, skipText_append]
  case isFalse other =>
    rw [keyText_eq_quote] at other ⊢
    exact skipText_eq_none
      (mt (StringLiteral.quote_prefix_quote_iff (closed_keyBody key) name.spells.closed).mp other)

theorem skipKey_label (label : Label) :
    skipKey (label.before.text ++ (label.name.text ++ rest)) = label.tagKey?.map (·, rest) := by
  rw [skipKey, skipToken_name label.before.isBlank, skipToken_name label.before.isBlank, Label.tagKey?]
  by_cases source : label.name.text = keyText .source
  · rw [if_pos source, if_pos source]
    rfl
  · rw [if_neg source, if_neg source]
    change Option.map _ (if _ then _ else _) = _
    split <;> rfl

theorem readEntry_other (blank : ∀ c ∈ space, Text.isBlank c = true) (solid : Text.isBlank c = false)
    (other : c ≠ '"') : readEntry (space ++ c :: rest) = none := by
  have none (key : TagKey) : skipToken (keyText key) (space ++ c :: rest) = none := by
    rw [skipToken_append blank, skipToken_cons solid]
    refine skipText_eq_none ?_
    cases key <;> simp [keyText, List.cons_prefix_cons, other.symm]
  rw [readEntry, skipKey, none, none]
  rfl

theorem readQuoted_value (blank : ∀ c ∈ space, Text.isBlank c = true) (value : Phrase) :
    readQuoted (space ++ (value.text ++ rest)) = value.quotation?.map fun literal => (literal.text, rest) := by
  obtain ⟨c, tail, text, solid, quote, -⟩ := value.exists_head
  by_cases string : c = '"'
  · obtain ⟨literal, same⟩ := Option.isSome_iff_exists.mp (quote string)
    cases value <;> cases same
    exact readQuoted_quotation blank literal
  · have other : value.quotation? = none := by
      cases value
      case string literal => exact absurd (List.cons.inj text).1.symm string
      all_goals rfl
    rw [other, text, readQuoted, List.cons_append, skipToken_other blank solid (Ne.symm string)]
    rfl

theorem readEntry_member (label : Label) (value : Phrase) : readEntry (label.text ++ (value.text ++ rest)) =
    (label.tagEntry? value).map fun (key, literal) => ((key, literal.text), rest) := by
  simp only [Label.text, List.append_assoc, List.cons_append]
  rw [readEntry, skipKey_label, Label.tagEntry?]
  cases label.tagKey? with
  | none => rfl
  | some key =>
    simp only [Option.bind_eq_bind, Option.map_some, Option.bind_some]
    rw [skipToken_mark label.behind.isBlank (by decide), Option.bind_some, readQuoted_value label.start.isBlank]
    cases value.quotation? <;> rfl

/-- The entries of a tag are read from members that have them. -/
theorem readEntries_members (members : Phrase.Members) :
    ((readEntry (members.text ++ rest)).bind fun (first, rest) => (skipToken [','] rest).bind fun rest =>
      (readEntry rest).bind fun (second, rest) => (skipToken ['\x7d'] rest).bind fun _ => some (first, second)) =
      (Phrase.object members).tagEntries?.map Entries.texts := by
  match members with
  | .last label value behind =>
    simp only [Phrase.Members.text, List.append_assoc, List.singleton_append]
    rw [readEntry_member]
    cases label.tagEntry? value with
    | none => rfl
    | some entry =>
      simp only [Option.map_some, Option.bind_some]
      rw [skipToken_other behind.isBlank (by decide) (by decide)]
      rfl
  | .more label value behind (.last other last stop) =>
    simp only [Phrase.Members.text, List.append_assoc, List.cons_append, List.nil_append]
    rw [readEntry_member, Phrase.tagEntries?]
    cases label.tagEntry? value with
    | none => rfl
    | some entry =>
      simp only [Option.map_some, Option.bind_some, Option.bind_eq_bind]
      rw [skipToken_mark behind.isBlank (by decide), Option.bind_some, readEntry_member]
      cases other.tagEntry? last with
      | none => rfl
      | some second =>
        simp only [Option.map_some, Option.bind_some]
        rw [skipToken_mark stop.isBlank (by decide)]
        rfl
  | .more label value behind (.more other next stop others) =>
    simp only [Phrase.Members.text, List.append_assoc, List.cons_append]
    rw [readEntry_member]
    cases label.tagEntry? value with
    | none => rfl
    | some entry =>
      simp only [Option.map_some, Option.bind_some]
      rw [skipToken_mark behind.isBlank (by decide), Option.bind_some, readEntry_member]
      cases other.tagEntry? next with
      | none => rfl
      | some second =>
        simp only [Option.map_some, Option.bind_some]
        rw [skipToken_other stop.isBlank (by decide) (by decide)]
        rfl

/-- At the name of a tag, it is read whether the value has the entries of a tag. -/
theorem readSpelling_member (behind start : Gap) (value : Phrase) :
    readSpelling (memberText ++ (behind.text ++ ':' :: (start.text ++ (value.text ++ rest)))) =
      value.tagEntries?.map Entries.texts := by
  rw [readSpelling, skipText_append]
  simp only [Option.bind_eq_bind, Option.bind_some]
  rw [skipToken_mark behind.isBlank (by decide), Option.bind_some]
  obtain ⟨c, tail, text, solid, -, brace⟩ := value.exists_head
  by_cases object : c = '\x7b'
  · rcases brace object with ⟨inside, rfl⟩ | ⟨members, rfl⟩
    · simp only [Phrase.text, List.cons_append, List.append_assoc, List.nil_append]
      rw [skipToken_mark start.isBlank (by decide), Option.bind_some,
        readEntry_other inside.isBlank (by decide) (by decide)]
      rfl
    · rw [Phrase.text, List.cons_append, skipToken_mark start.isBlank (by decide), Option.bind_some]
      exact readEntries_members members
  · have other : value.tagEntries? = none := by
      cases value
      case object members => exact absurd (List.cons.inj text).1.symm object
      all_goals rfl
    rw [other, text, List.cons_append, skipToken_other start.isBlank solid (Ne.symm object)]
    rfl

/-! ## The first member that spells a tag -/

/-- What stands between the quotes of the name of a tag. -/
def memberBody : List Char := ['$', 't', 'y', 'p', 'e']

theorem memberText_eq_quote : memberText = StringLiteral.quote memberBody := rfl

theorem closed_memberBody : StringLiteral.Closed memberBody := .of_all rfl

theorem unmarked_memberBody : Unmarked memberBody := fun _ first =>
  Option.some.inj first ▸ (by decide : '$' ∉ literalEnds)

theorem findSpelling_cons (none : readSpelling (c :: rest) = none) :
    findSpelling (c :: rest) = findSpelling rest := by
  rw [findSpelling, none, Option.none_or]

/-- In a literal a tag begins only where the literal ends in the name of a tag. -/
theorem findSpelling_literal (literal : Quotation) (begins : Begins literalEnds rest) {front back : List Char}
    (split : literal.text = front ++ back) :
    findSpelling (back ++ rest) =
      if memberText <:+ back then (readSpelling (memberText ++ rest)).or (findSpelling rest)
      else findSpelling rest := by
  induction back generalizing front with
  | nil => rfl
  | cons c back ih =>
    have further := @ih (front ++ [c]) (by rw [split, List.append_assoc]; rfl)
    have here := StringLiteral.quote_prefix_iff closed_memberBody literal.spells.closed
      (unmarked_memberBody.apart begins) split (List.cons_ne_nil c back)
    rw [← memberText_eq_quote] at here
    by_cases whole : c :: back = memberText
    · have short : ¬ memberText <:+ back := fun ends => by
        have bound := ends.length_le
        rw [← whole, List.length_cons] at bound
        omega
      rw [if_neg short] at further
      rw [whole, if_pos List.suffix_rfl]
      rw [← whole, List.cons_append, findSpelling, further]
    · have none := readSpelling_eq_none (mt here.mp whole)
      rw [List.cons_append] at none ⊢
      rw [findSpelling_cons none, further]
      simp only [List.suffix_cons_iff, Ne.symm whole, false_or]

/-- The search for the spelling of a tag finds what the members have. -/
theorem scans_findSpelling :
    Scans (fun _ => findSpelling) (fun entry => entry.tagEntries?.map Entries.texts) (Begins literalEnds) where
  bare unquoted place rest :=
    findSpelling_cons (readSpelling_eq_none (by simp [memberText, List.cons_prefix_cons, unquoted.symm]))
  literal literal place rest stops clear := by
    have none : readSpelling (memberText ++ rest) = none := by
      rw [readSpelling, skipText_append]
      simp only [Option.bind_eq_bind, Option.bind_some]
      rw [skipToken_colon stops]
      rfl
    rw [findSpelling_literal literal clear (List.nil_append _).symm, none, Option.none_or, ite_self]
  name entry rest stops clear := by
    rw [findSpelling_literal entry.label.name clear (List.nil_append _).symm, Label.tail, readSpelling_member,
      Phrase.Entry.tagEntries?]
    split <;> rfl

/-- The tag of a text that is JSON is what the first member with the entries of a tag gives, if it is sound.
The members at every depth count, in the order of the text, each with its name as it is written. -/
theorem ofText?_eq_first_spelled {value : Json} (reads : Json.ofText input = .ok value) :
    (∃ writing : Writing, writing.text = input ∧ writing.root.value.canonical = value) ∧
      ∀ writing : Writing, writing.text = input → ∀ tag, ofText? input = some tag ↔
        ∃ entries, writing.entries.findSome? Phrase.Entry.tagEntries? = some entries ∧
          Gives entries tag ∧ tag.Sound := by
  refine ⟨Json.exists_writing_of_ofText reads, ?_⟩
  rintro writing rfl tag
  have finds := scans_findSpelling.writing (fun _ => rfl) writing fun _ => Writing.begins_of_mem_tails
  cases first : writing.entries.findSome? Phrase.Entry.tagEntries? with
  | none =>
    rw [← Function.comp_def, ← List.map_findSome?, first] at finds
    simp [ofText?, finds]
  | some entries =>
    rw [← Function.comp_def, ← List.map_findSome?, first] at finds
    rw [ofText?_eq_some_iff_gives finds]
    simp

/-- A member with a tag in the value of another member. -/
def nested : Writing :=
  ⟨.none, .object (.last (.ofString "x") (.object (.last (.ofString "$type") (.object
    (.more (.ofString "$from") (.string (.ofString "m")) .none
      (.last (.ofString "$import") (.string (.ofString "T")) .none))) .none)) .none), .none⟩

theorem text_nested : nested.text = ['\x7b', '"', 'x', '"', ':', '\x7b', '"', '$', 't', 'y', 'p', 'e', '"', ':', '\x7b',
    '"', '$', 'f', 'r', 'o', 'm', '"', ':', '"', 'm', '"', ',', '"', '$', 'i', 'm', 'p', 'o', 'r', 't', '"', ':', '"',
    'T', '"', '\x7d', '\x7d', '\x7d'] := by decide +kernel

theorem ofText_nested : Json.ofText nested.text =
    .ok (.object [("x", .object [("$type", .object [("$from", .string "m"), ("$import", .string "T")])])]) := by
  rw [text_nested]
  rfl

/-- The tag of a member of a member is that of the text. -/
theorem ofText?_eq_first_spelled_nested :
    ∃ entries, nested.entries.findSome? Phrase.Entry.tagEntries? = some entries ∧
      Gives entries ⟨"m", "T"⟩ ∧ Sound ⟨"m", "T"⟩ :=
  ((ofText?_eq_first_spelled ofText_nested).2 nested rfl ⟨"m", "T"⟩).mp (by decide +kernel)

/-- The tag that a value has itself: its member for a tag has the two entries and no other member. -/
def OwnTag (value : Json) (tag : TypeTag) : Prop :=
  ∃ members fields, value = .object members ∧ getMember? "$type" members = some (.object fields) ∧
    (fields = [("$from", .string tag.source), ("$import", .string tag.name)] ∨
      fields = [("$import", .string tag.name), ("$from", .string tag.source)]) ∧ tag.Sound

/-- The tag of a text is not always that of the object that the text is: here a member of a member has one. -/
theorem ofText?_not_ownTag : ¬ ∀ (text : List Char) (members : List (String × Json)),
    Json.ofText text = .ok (.object members) →
      ∀ tag, ofText? text = some tag ↔ OwnTag (.object members) tag := by
  intro own
  have tagged : ofText? nested.text = some ⟨"m", "T"⟩ := by decide +kernel
  obtain ⟨members, fields, same, found, -⟩ := (own _ _ ofText_nested ⟨"m", "T"⟩).mp tagged
  obtain rfl := Json.object.inj same
  cases found

end TypeTag
end TypedJson
