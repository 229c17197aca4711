import TypedJson.Proofs.KeyLocation
import TypedJson.Proofs.MismatchPath
import TypedJson.Proofs.Phrase.Reading
import TypedJson.Proofs.Phrase.Trail

/-! # The names that a path is located at

A path is located in a text by the spelling of its names. In a text that is JSON a name is found where the name of
a member, at any depth, ends in it as it is quoted. So a path leads from each of its names to the next member that
is written so: `KeyLocation.locate_eq_last_token`. These are the members that the names lead through if none of
these is written in another way and none of the members before one of them ends in its name:
`Writing.Undistracted`.
-/

namespace TypedJson

variable {rest : List Char} {name : List Char} {place start : ℕ}

namespace Quoted

/-- A name begins, after spaces, with what follows a string. -/
def startsMarked (name : List Char) : Bool := (name.dropWhile (· = ' ')).head?.any (· ∈ literalEnds)

/-- A name that does not begin with what follows a string is not what can stand between two strings. -/
theorem unmarked_encode {name : List Char} (apart : startsMarked name = false) :
    Unmarked (name.flatMap encodeChar) := by
  induction name with
  | nil => exact fun _ first => nomatch first
  | cons c name ih =>
    by_cases space : c = ' '
    · subst space
      exact ih apart
    · have mark : c ∉ literalEnds := by
        rw [startsMarked, List.dropWhile_cons_of_neg (by simpa using space)] at apart
        exact of_decide_eq_false apart
      have solid {d : Char} {tail : List Char} (first : Quoted.encodeChar c = d :: tail)
          (solid : isJsonBlank d = false) (other : d ∉ literalEnds) : Unmarked ((c :: name).flatMap encodeChar) := by
        intro e found
        rw [List.flatMap_cons, first, List.cons_append, List.dropWhile_cons_of_neg (by simp [solid])] at found
        exact Option.some.inj found ▸ other
      have spells := StringLiteral.spells_encodeChar c
      generalize encoded : Quoted.encodeChar c = body at spells
      cases spells with
      | plain bare spells =>
        refine solid encoded ?_ mark
        rw [Bool.eq_false_iff]
        intro blank
        simp only [isJsonBlank, Bool.or_eq_true, decide_eq_true_eq, space, false_or] at blank
        rcases blank with (rfl | rfl) | rfl <;> exact absurd bare.2.2 (by decide)
      | escape escape spells => exact solid encoded (by decide) (by decide)

end Quoted

namespace KeyLocation

variable {quoted text back : List Char} {passing : ℕ} {c : Char}

/-! ## Endings -/

/-- The number of characters before the end of a text that is quoted, if this is not among those to pass over. -/
def ending? (quoted : List Char) (passing : ℕ) (text : List Char) : Option ℕ :=
  if quoted <:+ text ∧ passing + quoted.length ≤ text.length then some (text.length - quoted.length) else none

theorem ending?_nil (given : quoted ≠ []) : ending? quoted passing [] = none := by
  simp [ending?, given]

theorem ending?_self : ending? quoted 0 quoted = some 0 := by simp [ending?]

theorem suffix_cons_iff_of_length_le (short : quoted.length ≤ back.length) :
    quoted <:+ c :: back ↔ quoted <:+ back := by
  rw [List.suffix_cons_iff, or_iff_right]
  rintro rfl
  simp only [List.length_cons] at short
  omega

theorem ending?_cons_succ :
    ending? quoted (passing + 1) (c :: back) = (ending? quoted passing back).map (· + 1) := by
  by_cases fits : passing + quoted.length ≤ back.length
  · have short : quoted.length ≤ back.length := by omega
    have more : passing + 1 + quoted.length ≤ back.length + 1 := by omega
    by_cases ends : quoted <:+ back
    · simp [ending?, suffix_cons_iff_of_length_le short, fits, more, ends]
      omega
    · simp [ending?, suffix_cons_iff_of_length_le short, ends]
  · have more : ¬ passing + 1 + quoted.length ≤ back.length + 1 := by omega
    simp [ending?, fits, more]

theorem ending?_cons_zero (other : c :: back ≠ quoted) :
    ending? quoted 0 (c :: back) = (ending? quoted 0 back).map (· + 1) := by
  have suffix : quoted <:+ c :: back ↔ quoted <:+ back := by
    rw [List.suffix_cons_iff, or_iff_right (Ne.symm other)]
  by_cases ends : quoted <:+ back
  · have short := ends.length_le
    have more : quoted.length ≤ back.length + 1 := by omega
    simp [ending?, suffix, short, more, ends]
    omega
  · simp [ending?, suffix, ends]

/-- In a literal a name is found only where the literal ends in it, and only if a colon follows. -/
theorem search_literal (literal : Quotation) {body : List Char} (closed : StringLiteral.Closed body)
    (apart : ¬ body ++ ['"'] <+: rest) {front : List Char}
    (split : literal.text = front ++ back) (passing : ℕ) :
    search (StringLiteral.quote body) passing (back ++ rest) =
      (if (Text.trimStart rest).head? = some ':' then ending? (StringLiteral.quote body) passing back else none).or
        ((search (StringLiteral.quote body) (passing - back.length) rest).map (· + back.length)) := by
  -- on what is left of the literal: the name can begin in it only where the two are the same
  induction back generalizing front passing with
  | nil =>
    have none : ending? (StringLiteral.quote body) passing [] = none := ending?_nil (List.cons_ne_nil _ _)
    rw [none, ite_self, Option.none_or]
    simp
  | cons c back ih =>
    have further := @ih (front ++ [c]) (by rw [split, List.append_assoc]; rfl)
    cases passing with
    | succ passing =>
      rw [List.cons_append, search, further, Option.map_or, ending?_cons_succ, List.length_cons, Nat.succ_sub_succ,
        Option.map_map]
      split <;> rfl
    | zero =>
      have here := StringLiteral.quote_prefix_iff closed literal.spells.closed apart split (List.cons_ne_nil c back)
      by_cases whole : c :: back = StringLiteral.quote body
      · have given : StringLiteral.quote body ≠ [] := List.cons_ne_nil _ _
        rw [whole, search_self given, ending?_self, Nat.zero_sub]
        split <;> rfl
      · have other := mt here.mp whole
        rw [List.cons_append] at other ⊢
        rw [search_cons_of_apart other, further, Option.map_or, ending?_cons_zero whole, List.length_cons,
          Nat.zero_sub, Nat.zero_sub, Option.map_map]
        split <;> rfl

end KeyLocation

/-! ## Names in a writing -/

/-- The places around the quoted name that the name of a member ends in, if it begins there from a place on. -/
def Phrase.Entry.ending? (entry : Phrase.Entry) (start : ℕ) (name : List Char) : Option (ℕ × ℕ) :=
  let quoted := Quoted.encode name
  if quoted <:+ entry.label.name.text ∧ start + quoted.length ≤ entry.stop then
    some (entry.stop - quoted.length, entry.stop)
  else none

theorem Phrase.Entry.snd_of_ending? {entry : Phrase.Entry} {token : ℕ × ℕ}
    (found : entry.ending? start name = some token) :
    token.2 = token.1 + (Quoted.encode name).length := by
  simp only [ending?] at found
  split at found
  case isTrue fits =>
    cases found
    simp only
    omega
  case isFalse => cases found

namespace KeyLocation

theorem map_fst_ending? (entry : Phrase.Entry) (start : ℕ) (name : List Char) :
    (entry.ending? start name).map (·.1) =
      (ending? (Quoted.encode name) (start - entry.start) entry.label.name.text).map (entry.start + ·) := by
  by_cases ends : Quoted.encode name <:+ entry.label.name.text
  · have short := ends.length_le
    have stop : entry.stop = entry.start + entry.label.name.text.length := rfl
    have same : start - entry.start + (Quoted.encode name).length ≤ entry.label.name.text.length ↔
        start + (Quoted.encode name).length ≤ entry.stop := by omega
    simp only [Phrase.Entry.ending?, ending?, ends, true_and, same]
    split
    case isTrue fits => simp only [Option.map_some, Option.some.injEq]; omega
    case isFalse => rfl
  · simp [Phrase.Entry.ending?, ending?, ends]

theorem map_add_map_add (found : Option ℕ) (more place : ℕ) :
    (found.map (· + more)).map (place + ·) = found.map (place + more + ·) := by
  cases found with
  | none => rfl
  | some n =>
    simp only [Option.map_some, Option.some.injEq]
    omega

/-- The search for a name finds the endings of names. -/
theorem scans_search (name : List Char) (start : ℕ) :
    Scans (fun place text => (search (Quoted.encode name) (start - place) text).map (place + ·))
      (fun entry => (entry.ending? start name).map (·.1))
      (fun tail => ¬ name.flatMap Quoted.encodeChar ++ ['"'] <+: tail) where
  bare {c} unquoted place rest := by
    have other : ¬ Quoted.encode name <+: c :: rest := by
      simp [Quoted.encode, List.cons_prefix_cons, unquoted.symm]
    have step : search (Quoted.encode name) (start - place) (c :: rest) =
        (search (Quoted.encode name) (start - (place + 1)) rest).map (· + 1) := by
      rw [← Nat.sub_sub]
      cases start - place with
      | zero => exact search_cons_of_apart other
      | succ passing => rfl
    rw [step, map_add_map_add]
  literal literal place rest stops clear := by
    have passes := search_literal literal (StringLiteral.spells_encode name).closed clear
      (List.nil_append _).symm (start - place)
    rw [if_neg stops.head?_trimStart_ne, Option.none_or, Nat.sub_sub] at passes
    change (search (StringLiteral.quote _) _ _).map _ = _
    rw [passes, map_add_map_add]
    rfl
  name entry rest stops clear := by
    have colon : (Text.trimStart (entry.label.tail entry.value rest)).head? = some ':' := by
      rw [Label.tail, Text.trimStart, List.dropWhile_append_of_pos entry.label.behind.isBlank]
      rfl
    have found := search_literal entry.label.name (StringLiteral.spells_encode name).closed clear
      (List.nil_append _).symm (start - entry.start)
    rw [if_pos colon, Nat.sub_sub] at found
    change (search (StringLiteral.quote _) _ _).map _ = _
    rw [found, Option.map_or, map_add_map_add, map_fst_ending?]
    rfl

/-- In a writing a name is found at the first name of a member that ends in it, unless it is what stands between
two strings. -/
theorem find?_writing {writing : Writing}
    (apart : ∀ tail ∈ writing.tails, ¬ name.flatMap Quoted.encodeChar ++ ['"'] <+: tail) (start : ℕ) :
    find? writing.text start name = writing.entries.findSome? (·.ending? start name) := by
  have finds := (scans_search name start).writing (fun place => by rw [search_nil]; rfl) writing apart
  simp only [Nat.sub_zero, Nat.zero_add, Option.map_id'] at finds
  rw [search_eq_drop, ← Function.comp_def, ← List.map_findSome?] at finds
  calc find? writing.text start name
    _ = ((search (Quoted.encode name) 0 (writing.text.drop start)).map (· + start)).map
          fun first => (first, first + (Quoted.encode name).length) := by
        simp only [find?, Option.map_map, Function.comp_def, Nat.add_comm start]
    _ = ((writing.entries.findSome? (·.ending? start name)).map (·.1)).map
          fun first => (first, first + (Quoted.encode name).length) := by rw [finds]
    _ = writing.entries.findSome? (·.ending? start name) := by
        cases token : writing.entries.findSome? (·.ending? start name) with
        | none => rfl
        | some token =>
          obtain ⟨entry, -, found⟩ := List.exists_of_findSome?_eq_some token
          simp [entry.snd_of_ending? found, Prod.ext_iff]

end KeyLocation

/-- The places around the endings that names are found at one after the other. -/
def Writing.tokens (writing : Writing) : ℕ → List (List Char) → List (ℕ × ℕ)
  | _, [] => []
  | start, name :: names =>
    match writing.entries.findSome? (·.ending? start name) with
    | some token => token :: writing.tokens token.2 names
    | none => []

namespace KeyLocation

/-- None of the names is, as it is quoted, what stands between two strings with the quotes of both. -/
def Apart (writing : Writing) (names : List (List Char)) : Prop :=
  ∀ name ∈ names, ∀ tail ∈ writing.tails, ¬ name.flatMap Quoted.encodeChar ++ ['"'] <+: tail

/-- Such a name begins, after spaces, with what follows a string. -/
theorem apart_of_forall (writing : Writing) {names : List (List Char)}
    (unmarked : ∀ name ∈ names, Quoted.startsMarked name = false) : Apart writing names :=
  fun name listed _ behind =>
    (Quoted.unmarked_encode (unmarked name listed)).apart (Writing.begins_of_mem_tails behind)

theorem follow_writing {writing : Writing} {names : List (List Char)} (apart : Apart writing names)
    (found : Option (ℕ × ℕ)) :
    follow writing.text found names = (writing.tokens ((found.map (·.2)).getD 0) names).getLast?.or found := by
  induction names generalizing found with
  | nil => rfl
  | cons name names ih =>
    obtain ⟨first, others⟩ := List.forall_mem_cons.mp apart
    rw [follow, find?_writing first, Writing.tokens]
    cases writing.entries.findSome? (·.ending? ((found.map (·.2)).getD 0) name) with
    | none => rfl
    | some token =>
      simp only [ih others, Option.map_some, Option.getD_some, List.getLast?_cons]
      cases (writing.tokens token.2 names).getLast? <;> rfl

/-- A path is located at the last of the endings that its names are found at. -/
theorem locate_eq_last_token {writing : Writing} {path : List Char} (apart : Apart writing (segments path)) :
    locate writing.text path = rangeOf writing.text (writing.tokens 0 (segments path)).getLast? := by
  have follows := follow_writing apart none
  rw [Option.or_none, Option.map_none, Option.getD_none] at follows
  rw [locate, ← segments.eq_def, follows]
  rfl

/-! ## Paths and their names -/

/-- Names that a path can be split into again: the first one is not empty, and there are no points in them. -/
structure Splits (names : List String) : Prop where
  given : names.head? ≠ some ""
  whole : ∀ name ∈ names, '.' ∉ name.toList

theorem Splits.segments_eq {names : List String} (splits : Splits names) :
    segments (Ty.extendPath "" names).toList = names.map String.toList := by
  cases names with
  | nil => rfl
  | cons name names =>
    have given : name ≠ "" := fun empty => splits.given (congrArg some empty)
    have whole := List.forall_mem_cons.mp splits.whole
    have path : Ty.extendPath "" (name :: names) = Ty.extendPath name names := rfl
    rw [path, segments, if_neg (mt String.toList_eq_nil_iff.mp (Ty.extendPath_ne_empty given names)),
      Ty.splitOn_extendPath given, List.splitOn_eq_singleton whole.1, dottedParts_of_plain whole.2]
    rfl

/-! ## The names that lead to a place -/

/-- The range that a chain of names leads to: the name of the last member on the way. -/
def trailRange (writing : Writing) (names : List String) : Range :=
  rangeOf writing.text ((writing.trail names).getLast?.map fun entry => (entry.start, entry.stop))

end KeyLocation

/-- From a place on, each name of a chain is found first at the member that it leads to: this is spelled as the
name is quoted, and no member before it ends so. The name that is missing is not found at all. -/
inductive Writing.Undistracted (writing : Writing) : ℕ → List String → List Phrase.Entry → Prop
  | arrived (start : ℕ) : Undistracted writing start [] []
  | missing {start : ℕ} {name : String} {names : List String}
      (none : ∀ entry ∈ writing.entries, entry.ending? start name.toList = none) :
      Undistracted writing start (name :: names) []
  | next {start : ℕ} {name : String} {names : List String} {entry : Phrase.Entry}
      {trail before after : List Phrase.Entry}
      (split : writing.entries = before ++ entry :: after)
      (first : ∀ other ∈ before, other.ending? start name.toList = none)
      (plain : entry.label.name.text = Quoted.encode name.toList)
      (further : Undistracted writing entry.stop names trail) :
      Undistracted writing start (name :: names) (entry :: trail)

theorem Phrase.Entry.ending?_of_plain {entry : Phrase.Entry} (plain : entry.label.name.text = Quoted.encode name)
    (behind : start ≤ entry.start) : entry.ending? start name = some (entry.start, entry.stop) := by
  have stop : entry.stop = entry.start + (Quoted.encode name).length := by rw [← plain]; rfl
  simp [ending?, plain, stop, behind]

/-- Without distraction the names of a chain are found at the members that it leads through. -/
theorem Writing.Undistracted.tokens_eq {writing : Writing} {names : List String} {phrase : Phrase}
    (undistracted : writing.Undistracted start names (phrase.trail names place)) (behind : start ≤ place) :
    writing.tokens start (names.map String.toList) =
      (phrase.trail names place).map fun entry => (entry.start, entry.stop) := by
  induction names generalizing start phrase place with
  | nil => rfl
  | cons name names ih =>
    rw [Phrase.trail] at undistracted ⊢
    cases found : phrase.member? name place with
    | none =>
      rw [found] at undistracted
      cases undistracted with
      | missing none => rw [List.map_cons, tokens, List.findSome?_eq_none_iff.mpr none, List.map_nil]
    | some entry =>
      rw [found] at undistracted
      cases undistracted with
      | next split first plain further =>
        have after := behind.trans (Phrase.le_start_of_member? found)
        rw [List.map_cons, tokens, split, List.findSome?_append, List.findSome?_eq_none_iff.mpr first,
          Option.none_or, findSome?_cons_eq_or, Phrase.Entry.ending?_of_plain plain after]
        exact congrArg ((entry.start, entry.stop) :: ·) (ih further entry.stop_le_inside)

namespace KeyLocation

/-- A disagreement with a type is located at the last of the endings that the names of its path are found at. This
is the name of the last member that the names lead through if nothing distracts from these members. -/
theorem locate_of_mismatch {text : List Char} {value : Json} (reads : Json.ofText text = .ok value)
    {policy : UnsupportedPolicy} {type : Ty} {mismatch : Mismatch}
    (listed : mismatch ∈ type.mismatches policy (some value) "") :
    (∃ writing : Writing, writing.text = text ∧ writing.root.value.canonical = value) ∧
      (∃ names, type.Reported policy (some value) "" names mismatch) ∧
      ∀ writing : Writing, writing.text = text → writing.root.value.canonical = value →
        Apart writing (segments mismatch.path.toList) → locate text mismatch.path.toList =
          rangeOf text (writing.tokens 0 (segments mismatch.path.toList)).getLast? ∧
        ∀ names, type.Reported policy (some value) "" names mismatch →
          names.length = (writing.trail names).length + (if mismatch.kind = .missingProperty then 1 else 0) ∧
          (Splits names → writing.Undistracted 0 names (writing.trail names) →
            locate text mismatch.path.toList = trailRange writing names) := by
  refine ⟨Json.exists_writing_of_ofText reads, Ty.exists_reported_of_mem listed, ?_⟩
  rintro writing rfl rfl apart
  have located := locate_eq_last_token apart
  refine ⟨located, fun names reported => ⟨Phrase.length_trail_of_reported reported _, ?_⟩⟩
  intro splits undistracted
  rw [reported.path_eq, splits.segments_eq] at located
  rw [reported.path_eq, located, undistracted.tokens_eq (Nat.zero_le _), trailRange, List.getLast?_map]
  rfl

/-- Two members with one name, and the first one is in the value of another member. -/
def twice : Writing :=
  ⟨.none, .object (.more (.ofString "a") (.object (.last (.ofString "b") (.word _ _ .null) .none)) .none
    (.last (.ofString "b") (.word _ _ .null) .none)), .none⟩

theorem text_twice : twice.text = ['\x7b', '"', 'a', '"', ':', '\x7b', '"', 'b', '"', ':', 'n', 'u', 'l', 'l', '\x7d', ',',
    '"', 'b', '"', ':', 'n', 'u', 'l', 'l', '\x7d'] := by decide +kernel

theorem ofText_twice : Json.ofText twice.text = .ok (.object [("a", .object [("b", .null)]), ("b", .null)]) := by
  rw [text_twice]
  rfl

/-- The member in the value of another one is found, since no member before it has its name. -/
theorem locate_of_mismatch_nested : locate twice.text "a.b".toList = ⟨⟨0, 6⟩, ⟨0, 9⟩⟩ := by
  let type : Ty := .object [⟨"a", .object [⟨"b", .primitive .string, false⟩], false⟩]
  let value : Json := .object [("a", .object [("b", .null)]), ("b", .null)]
  have reported : type.Reported .report (some value) "" ["a", "b"] _ :=
    .refused (.property List.mem_cons_self rfl (.property List.mem_cons_self rfl (.here _ _))) rfl nofun
  have listed : ⟨"a.b", "string", "null", .typeMismatch⟩ ∈ type.mismatches .report (some value) "" :=
    List.mem_cons_self
  have splits : Splits ["a", "b"] := ⟨by decide, by decide⟩
  have apart : Apart twice (segments "a.b".toList) := apart_of_forall twice (by decide +kernel)
  have undistracted : twice.Undistracted 0 ["a", "b"] (twice.trail ["a", "b"]) := by
    refine .next (List.nil_append _).symm nofun rfl (.next List.singleton_append.symm ?_ rfl (.arrived _))
    intro other before
    obtain rfl := List.mem_singleton.mp before
    decide +kernel
  have located := ((locate_of_mismatch ofText_twice listed).2.2 twice rfl rfl apart).2 _ reported
  rw [located.2 splits undistracted]
  decide +kernel

/-- The member that a name leads to is not found if a member before it has the same name. -/
theorem locate_ne_trailRange : ¬ ∀ (writing : Writing) (members : List (String × Json)) (policy : UnsupportedPolicy)
    (type : Ty) (names : List String) (mismatch : Mismatch), Json.ofText writing.text = .ok (.object members) →
      writing.root.value.canonical = .object members → names ≠ [] →
      mismatch ∈ type.mismatches policy (some (.object members)) "" →
      type.Reported policy (some (.object members)) "" names mismatch →
        locate writing.text mismatch.path.toList = trailRange writing names := by
  intro located
  let type : Ty := .object [⟨"b", .primitive .string, false⟩]
  let value : Json := .object [("a", .object [("b", .null)]), ("b", .null)]
  have reported : type.Reported .report (some value) "" ["b"] _ :=
    .refused (.property List.mem_cons_self rfl (.here _ _)) rfl nofun
  have claimed := located twice _ .report type ["b"] _ ofText_twice rfl (by decide) List.mem_cons_self reported
  exact absurd claimed (by decide +kernel)

end KeyLocation

end TypedJson
