import TypedJson.Completion
import TypedJson.Proofs.Lines
import Mathlib.Data.List.Forall2

/-! # Suggestions at a cursor

Suggestions are shaped by the line that the cursor is on, which is looked up by its number. It holds all that
matters of the text around the cursor: the characters at a place are quotes exactly if they are on the line.
So suggestions are shaped by the real surroundings of the cursor: `CompletionItem.shapeAll_offers`.
-/

namespace TypedJson

namespace Text

variable {kept ends before rest : List Char} {number : ℕ}

/-- No quote is lost with the end of a line. -/
theorem getElem?_quote_append (ended : ends = [] ∨ ends = ['\r']) :
    (kept ++ ends)[number]? = some '"' ↔ kept[number]? = some '"' := by
  by_cases within : number < kept.length
  · rw [List.getElem?_append_left within]
  · rw [List.getElem?_append_right (by omega), List.getElem?_eq_none (by omega : kept.length ≤ number)]
    have unquoted : '"' ∉ ends := by rcases ended with rfl | rfl <;> decide
    simp only [reduceCtorEq, iff_false]
    exact fun found => unquoted (List.mem_of_getElem? found)

/-- A quote stands on the line directly behind a place exactly if it stands so in the text. -/
theorem row_next_iff (before rest : List Char) :
    (row (before ++ rest) (before.count '\n'))[(lastLine before).length]? = some '"' ↔ rest.head? = some '"' := by
  obtain ⟨ends, ended, whole⟩ := exists_row before rest
  rw [← getElem?_quote_append ended, whole, List.getElem?_append_right (Nat.le_refl _), Nat.sub_self]
  cases rest with
  | nil => rfl
  | cons c rest => by_cases feed : c = '\n' <;> simp [feed]

/-- A quote stands on the line directly before a place exactly if it stands so in the text. -/
theorem row_previous_iff (before rest : List Char) :
    0 < (lastLine before).length ∧
        (row (before ++ rest) (before.count '\n'))[(lastLine before).length - 1]? = some '"' ↔
      before.getLast? = some '"' := by
  obtain ⟨ends, ended, whole⟩ := exists_row before rest
  rw [← getLast?_lastLine (by decide), ← getElem?_quote_append ended, whole, List.getLast?_eq_getElem?]
  by_cases given : 0 < (lastLine before).length
  · rw [List.getElem?_append_left (by omega)]
    exact and_iff_right given
  · simp [List.length_eq_zero_iff.mp (by omega : (lastLine before).length = 0)]

end Text

namespace CompletionItem

/-- What a suggestion inserts: a text of its own, plain or of a snippet, or else its label. -/
inductive Inserts (item : CompletionItem) : String → Prop
  | own {insert : InsertText} {text : String} (given : item.insertText = some insert)
      (written : insert = .plain text ∨ insert = .snippet text) : Inserts item text
  | label {text : String} (none : item.insertText = none) (shown : item.label = .plain text) : Inserts item text

/-- A suggestion as it is offered between two texts. It inserts what it did; only a field gets quotes around
it, unless there are quotes on both sides already. -/
structure Offers (before rest : List Char) (item offered : CompletionItem) : Prop where
  label : offered.label = item.label
  kind : offered.kind = item.kind
  inserts : ∃ text written, item.Inserts text ∧ offered.insertText = some (.plain written) ∧
    (item.kind = .field ∧ ¬ (before.getLast? = some '"' ∧ rest.head? = some '"') → written = "\"" ++ text ++ "\"") ∧
    (¬ (item.kind = .field ∧ ¬ (before.getLast? = some '"' ∧ rest.head? = some '"')) → written = text)

variable {item : CompletionItem} {before rest text : List Char} {offset : ℕ}

/-- The line that a position is looked up on tells whether there are quotes on both sides of it. -/
theorem isSurrounded_after (short : (before ++ rest).length < UInt32.size) :
    isSurrounded (before ++ rest) (.after before) = true ↔
      before.getLast? = some '"' ∧ rest.head? = some '"' := by
  have shorter : before.length < UInt32.size := by
    rw [List.length_append] at short
    omega
  obtain ⟨line, character⟩ := Position.toNat_after shorter
  rw [← Text.row_previous_iff before rest, ← Text.row_next_iff before rest]
  simp only [isSurrounded, line, character, Bool.and_eq_true, decide_eq_true_eq]
  rfl

theorem inserts_inserted (plain : item.label = .plain item.label.text) : item.Inserts item.inserted := by
  unfold inserted
  cases given : item.insertText with
  | none => exact .label given plain
  | some insert => cases insert <;> exact .own given (by simp [InsertText.text])

theorem offers_shaped {surrounded : Bool}
    (around : surrounded = true ↔ before.getLast? = some '"' ∧ rest.head? = some '"')
    (plain : item.label = .plain item.label.text) : item.Offers before rest (item.shaped surrounded) := by
  refine ⟨rfl, rfl, item.inserted, _, inserts_inserted plain, rfl, ?_, ?_⟩
  · rintro ⟨field, open'⟩
    simp [field, Bool.eq_false_iff.mpr (mt around.mp open')]
  · intro quoted
    rw [← around] at quoted
    simp only [not_and_not_right] at quoted
    rw [if_neg]
    intro wrapped
    simp only [Bool.and_eq_true, decide_eq_true_eq, Bool.not_eq_true'] at wrapped
    simp [quoted wrapped.1] at wrapped

theorem isKept_eq (item : CompletionItem) :
    item.isKept = decide (item.kind ∈ [CompletionKind.field, .property, .constant] ∧
      item.label = .plain item.label.text) := by
  obtain ⟨label, kind, -, -, -⟩ := item
  cases kind <;> cases label <;> simp [isKept, CompletionLabel.isPlain, CompletionLabel.text]

/-- At every place of a text that is not too long, the suggestions that are offered are the fields, properties
and constants with plain labels, in their order, each as it is offered between the texts around that place. -/
theorem shapeAll_offers (cut : Text.splitAtByte? text offset = some (before, rest))
    (short : Text.byteLength text < UInt32.size) (items : List CompletionItem) :
    ∃ position, Position.atByte? text offset = some position ∧
      List.Forall₂ (Offers before rest)
        (items.filter fun item => item.kind ∈ [CompletionKind.field, .property, .constant] ∧
          item.label = .plain item.label.text)
        (shapeAll items text position) := by
  obtain ⟨rfl, bytes⟩ := Text.splitAtByte?_eq_some_iff.mp cut
  have around := isSurrounded_after (Nat.lt_of_le_of_lt (Text.length_le_byteLength _) short)
  refine ⟨.after before, bytes ▸ Position.atByte?_byteLength before rest, ?_⟩
  rw [shapeAll, List.forall₂_map_right_iff, funext isKept_eq, List.forall₂_same]
  intro item kept
  have plain := (of_decide_eq_true (List.mem_filter.mp kept).2).2
  exact offers_shaped around plain

/-- A field that inserts its label. -/
def sampleField : CompletionItem := ⟨.plain "é", .field, none, none, false⟩

/-- Between two quotes at the end of a line that a carriage return and a line feed end, a field is offered as it
is. A snippet is not offered there. -/
theorem shapeAll_offers_between_quotes :
    Text.splitAtByte? "é\r\n\"é\"\"\r\n".toList 8 = some ("é\r\n\"é\"".toList, "\"\r\n".toList) ∧
    Text.byteLength "é\r\n\"é\"\"\r\n".toList < UInt32.size ∧
    ∃ position offered, Position.atByte? "é\r\n\"é\"\"\r\n".toList 8 = some position ∧
      shapeAll [typeTag, sampleField] "é\r\n\"é\"\"\r\n".toList position = [offered] ∧
      offered.insertText = some (.plain "é") := by
  have cut : Text.splitAtByte? "é\r\n\"é\"\"\r\n".toList 8 =
      some ("é\r\n\"é\"".toList, "\"\r\n".toList) := by decide +kernel
  have short : Text.byteLength "é\r\n\"é\"\"\r\n".toList < UInt32.size := by decide +kernel
  obtain ⟨position, stands, offers⟩ := shapeAll_offers cut short [typeTag, sampleField]
  refine ⟨cut, short, position, ?_⟩
  generalize shapeAll [typeTag, sampleField] _ position = shaped at offers ⊢
  obtain ⟨offered, rest, offer, none, rfl⟩ := List.forall₂_cons_left_iff.mp offers
  obtain rfl := List.forall₂_nil_left_iff.mp none
  refine ⟨offered, stands, rfl, ?_⟩
  obtain ⟨text, written, inserts, inserted, -, bare⟩ := offer.inserts
  obtain rfl := bare fun quoted => quoted.2 ⟨by decide +kernel, by decide +kernel⟩
  cases inserts with
  | own given => cases given
  | label none shown =>
    cases shown
    exact inserted

end CompletionItem
end TypedJson
