import TypedJson.KeyLocation
import TypedJson.Proofs.StringLiteral

/-! # Where keys are located

A place at which a name is located is that of a key: the quoted name is written there and a colon follows, so the
range of the name is on one line and has its width. A longer path is located no earlier, because each name is
looked for behind the one before it.

Places count characters. `KeyLocation.locateByBytes?` is the same search with byte offsets, where a text can be
cut in the wrong place. It never is, since all offsets that come up are those of parts of the text:
`KeyLocation.locate_sound`.
-/

namespace TypedJson

namespace Quoted

theorem encode_ne_nil (name : List Char) : encode name ≠ [] := List.cons_ne_nil _ _

theorem byteLength_encode_pos (name : List Char) : 0 < Text.byteLength (encode name) :=
  Nat.lt_of_lt_of_le (List.length_pos_iff.mpr (encode_ne_nil name)) (Text.length_le_byteLength _)

end Quoted

theorem StringLiteral.Closed.newline_not_mem {body : List Char} (closed : Closed body) : '\n' ∉ body := by
  induction closed with
  | nil => exact List.not_mem_nil
  | plain bare _ ih => simp [bare.2.2.symm, ih]
  | escape inLine _ ih => simp [inLine.symm, ih]

/-- A quoted name is written on one line. -/
theorem Quoted.newline_not_mem_encode (name : List Char) : '\n' ∉ encode name := by
  have body := (StringLiteral.spells_encode name).closed.newline_not_mem
  simp [encode, body]

namespace Text

variable {part text before after gap behind : List Char} {offset : ℕ}

theorem le_byteLength_of_splitAtByte? (cut : splitAtByte? text offset = some (before, after)) :
    offset ≤ byteLength text := by
  obtain ⟨rfl, rfl⟩ := splitAtByte?_eq_some_iff.mp cut
  rw [byteLength_append]
  omega

theorem splitAtByte?_byteLength (before after : List Char) :
    splitAtByte? (before ++ after) (byteLength before) = some (before, after) :=
  splitAtByte?_eq_some_iff.mpr ⟨rfl, rfl⟩

/-- A colon comes next, but for white space. -/
theorem head?_trimStart_eq_colon_iff : (trimStart text).head? = some ':' ↔
    ∃ gap behind, text = gap ++ ':' :: behind ∧ ∀ c ∈ gap, isBlank c = true := by
  constructor
  · intro colon
    obtain ⟨behind, rest⟩ := List.head?_eq_some_iff.mp colon
    refine ⟨text.takeWhile isBlank, behind, ?_, fun c member => List.mem_takeWhile_imp member⟩
    rw [← rest]
    exact (List.takeWhile_append_dropWhile ..).symm
  · rintro ⟨gap, behind, rfl, blank⟩
    rw [trimStart, List.dropWhile_append_of_pos blank]
    rfl

/-- The number of bytes before the first place at which a text occurs in another one. -/
def findByte? (part : List Char) : List Char → Option ℕ
  | [] => if part = [] then some 0 else none
  | c :: rest => if part.isPrefixOf (c :: rest) then some 0 else (findByte? part rest).map (c.utf8Size + ·)

end Text

namespace KeyLocation

variable {quoted text name path rest : List Char} {names : List (List Char)} {passing start : ℕ} {c : Char}
  {found : Option (ℕ × ℕ)} {token : ℕ × ℕ}

theorem search_nil : search quoted passing [] = none := by cases passing <;> rfl

theorem search_cons_of_apart (other : ¬ quoted <+: c :: rest) :
    search quoted 0 (c :: rest) = (search quoted 0 rest).map (· + 1) := by
  simp [search, isKey, other]

/-- The search passes over the first characters of a text. -/
theorem search_eq_drop (quoted : List Char) (start : ℕ) (text : List Char) :
    search quoted start text = (search quoted 0 (text.drop start)).map (· + start) := by
  induction start generalizing text with
  | zero => simp
  | succ start ih =>
    cases text with
    | nil => simp [search_nil]
    | cons c rest =>
      rw [search, ih, List.drop_succ_cons, Option.map_map]
      congr 1

/-- The quoted name is a key if a colon follows, and it is passed over if not. -/
theorem search_self (given : quoted ≠ []) : search quoted 0 (quoted ++ rest) =
    if (Text.trimStart rest).head? = some ':' then some 0 else (search quoted 0 rest).map (· + quoted.length) := by
  obtain ⟨c, tail, rfl⟩ := List.exists_cons_of_ne_nil given
  have pref : (c :: tail).isPrefixOf (c :: (tail ++ rest)) = true :=
    List.isPrefixOf_iff_prefix.mpr (List.prefix_append ..)
  have drop : (c :: (tail ++ rest)).drop (c :: tail).length = rest := List.drop_left
  have behind : (search (c :: tail) tail.length (tail ++ rest)).map (· + 1) =
      (search (c :: tail) 0 rest).map (· + (c :: tail).length) := by
    rw [search_eq_drop, List.drop_left, Option.map_map]
    rfl
  rw [List.cons_append, search, isKey, pref, drop, Bool.true_and, if_pos rfl, List.length_cons, Nat.add_sub_cancel,
    behind]
  simp only [decide_eq_true_eq]
  rfl

/-- The range around two places, or that of the whole text. -/
def rangeOf (text : List Char) : Option (ℕ × ℕ) → Range
  | some (start, stop) => .between text start stop
  | none => .whole text

/-- The names that a path is split into. -/
def segments (path : List Char) : List (List Char) := if path = [] then [] else path.splitOn '.'

theorem locate_eq_rangeOf (text path : List Char) :
    locate text path = rangeOf text (follow text none (segments path)) := rfl

/-! ## Keys -/

/-- The quoted name is written behind a part of a text, and a colon follows it after white space. -/
def KeyBehind (text name front : List Char) : Prop :=
  ∃ gap behind, text = front ++ (Quoted.encode name ++ (gap ++ ':' :: behind)) ∧ ∀ c ∈ gap, Text.isBlank c = true

theorem isKey_iff : isKey quoted text = true ↔
    ∃ gap behind, text = quoted ++ (gap ++ ':' :: behind) ∧ ∀ c ∈ gap, Text.isBlank c = true := by
  rw [isKey, Bool.and_eq_true, List.isPrefixOf_iff_prefix, decide_eq_true_eq, Text.head?_trimStart_eq_colon_iff]
  constructor
  · rintro ⟨⟨rest, rfl⟩, gap, behind, split, blank⟩
    rw [List.drop_left] at split
    exact ⟨gap, behind, by rw [split], blank⟩
  · rintro ⟨gap, behind, rfl, blank⟩
    exact ⟨List.prefix_append .., gap, behind, List.drop_left, blank⟩

/-- What the search finds is a key, and it does not lie in what is passed over. -/
theorem isKey_of_search {place : ℕ} (finds : search quoted passing text = some place) :
    passing ≤ place ∧ isKey quoted (text.drop place) = true := by
  fun_induction search quoted passing text generalizing place with
  | case1 => cases finds
  | case2 passing c rest ih =>
    obtain ⟨before, further, rfl⟩ := Option.map_eq_some_iff.mp finds
    obtain ⟨behind, key⟩ := ih further
    exact ⟨by omega, key⟩
  | case3 c rest key =>
    cases finds
    exact ⟨Nat.le_refl 0, key⟩
  | case4 c rest other pref ih =>
    obtain ⟨before, further, rfl⟩ := Option.map_eq_some_iff.mp finds
    exact ⟨Nat.zero_le _, (ih further).2⟩
  | case5 c rest other apart ih =>
    obtain ⟨before, further, rfl⟩ := Option.map_eq_some_iff.mp finds
    exact ⟨Nat.zero_le _, (ih further).2⟩

/-- A name is found at a key behind the place from which it is looked for. -/
theorem keyBehind_of_find? (finds : find? text start name = some token) :
    start ≤ token.1 ∧ ∃ front, KeyBehind text name front ∧
      token = (front.length, (front ++ Quoted.encode name).length) := by
  obtain ⟨before, first, rfl⟩ := Option.map_eq_some_iff.mp finds
  obtain ⟨-, key⟩ := isKey_of_search first
  obtain ⟨gap, behind, split, blank⟩ := isKey_iff.mp key
  rw [List.drop_drop] at split
  have within : start + before ≤ text.length := by
    have shorter := congrArg List.length split
    simp only [List.length_drop, List.length_append, List.length_cons] at shorter
    omega
  refine ⟨Nat.le_add_right .., text.take (start + before), ⟨gap, behind, ?_, blank⟩, ?_⟩
  · rw [← split, List.take_append_drop]
  · rw [List.length_append, List.length_take_of_le within]

/-- Names that are followed end where they began, or at a key of one of them that lies behind. -/
theorem follow_cases (text : List Char) (found : Option (ℕ × ℕ)) (names : List (List Char)) :
    follow text found names = found ∨ ∃ name ∈ names, ∃ front, KeyBehind text name front ∧
      follow text found names = some (front.length, (front ++ Quoted.encode name).length) ∧
      (found.map (·.2)).getD 0 ≤ front.length := by
  fun_induction follow text found names with
  | case1 => exact .inl rfl
  | case2 found name names next finds ih =>
    obtain ⟨behind, front, key, rfl⟩ := keyBehind_of_find? finds
    refine .inr ?_
    rcases ih with ends | ⟨other, listed, front', key', ends, further⟩
    · exact ⟨name, List.mem_cons_self .., front, key, ends, behind⟩
    · refine ⟨other, List.mem_cons_of_mem _ listed, front', key', ends, behind.trans ?_⟩
      simp only [Option.map_some, Option.getD_some, List.length_append] at further
      exact (Nat.le_add_right ..).trans further
  | case3 => exact .inl rfl

/-- More names are followed from where the names before them lead, or not at all. -/
theorem exists_follow_append (text : List Char) (found : Option (ℕ × ℕ)) (names more : List (List Char)) :
    ∃ rest, follow text found (names ++ more) = follow text (follow text found names) rest := by
  fun_induction follow text found names with
  | case1 found => exact ⟨more, rfl⟩
  | case2 found name names next finds ih =>
    obtain ⟨rest, further⟩ := ih
    exact ⟨rest, by rw [List.cons_append, follow, finds]; exact further⟩
  | case3 found name names fails => exact ⟨[], by simp only [List.cons_append, follow, fails]⟩

/-! ## Ranges -/

/-- The range around a key. -/
theorem rangeOf_key {front : List Char} (key : KeyBehind text name front) :
    rangeOf text (some (front.length, (front ++ Quoted.encode name).length)) =
      ⟨.after front, .after (front ++ Quoted.encode name)⟩ := by
  obtain ⟨gap, behind, rfl, -⟩ := key
  rw [rangeOf, Range.between, List.take_left, ← List.append_assoc, List.take_left]

/-- The ends of the range around a key by byte offsets. -/
theorem atByte?_key {front : List Char} (key : KeyBehind text name front) :
    Position.atByte? text (Text.byteLength front) = some (.after front) ∧
      Position.atByte? text (Text.byteLength (front ++ Quoted.encode name)) =
        some (.after (front ++ Quoted.encode name)) := by
  obtain ⟨gap, behind, rfl, -⟩ := key
  refine ⟨Position.atByte?_byteLength .., ?_⟩
  rw [← List.append_assoc]
  exact Position.atByte?_byteLength ..

theorem start_rangeOf_le {further : Option (ℕ × ℕ)} (short : text.length < UInt32.size)
    (behind : ∀ token ∈ found, ∃ token' ∈ further, token.1 ≤ token'.1) :
    (rangeOf text found).start ≤ (rangeOf text further).start := by
  cases found with
  | none => exact Position.start_le _
  | some token =>
    obtain ⟨token', rfl, later⟩ := behind token rfl
    have parts : text.take token'.1 = text.take token.1 ++ (text.take token'.1).drop token.1 := by
      conv_lhs => rw [← List.take_append_drop token.1 (text.take token'.1), List.take_take, Nat.min_eq_left later]
    have shorter : (text.take token'.1).length < UInt32.size :=
      Nat.lt_of_le_of_lt (List.length_take_le' ..) short
    simp only [rangeOf, Range.between]
    rw [parts] at shorter ⊢
    exact Position.after_le_after_append shorter

/-- A path that goes on is located no earlier. -/
theorem start_locate_le {longer : List Char} (short : text.length < UInt32.size)
    (goesOn : segments path <+: segments longer) :
    (locate text path).start ≤ (locate text longer).start := by
  obtain ⟨more, split⟩ := goesOn
  rw [locate_eq_rangeOf, locate_eq_rangeOf, ← split]
  obtain ⟨rest, further⟩ := exists_follow_append text none (segments path) more
  rw [further]
  refine start_rangeOf_le short fun token found => ?_
  rw [Option.mem_def] at found
  rw [found]
  rcases follow_cases text (some token) rest with same | ⟨name, -, front, key, ends, behind⟩
  · exact ⟨token, same, Nat.le_refl _⟩
  · rcases follow_cases text none (segments path) with none | ⟨_, -, front', -, ends', -⟩
    · rw [none] at found
      cases found
    · cases ends'.symm.trans found
      simp only [Option.map_some, Option.getD_some, List.length_append] at behind
      exact ⟨_, ends, (Nat.le_add_right ..).trans behind⟩

/-! ## Byte offsets -/

/-- The search for a key with a name by byte offsets. The text is cut where the search goes on and behind every
place at which the quoted name is written. Nothing is returned if it cannot be cut there. -/
def seek? (text name : List Char) (start : ℕ) : Option (Option (ℕ × ℕ)) :=
  match Text.splitAtByte? text start with
  | none => none
  | some (_, rest) =>
    match Text.findByte? (Quoted.encode name) rest with
    | none => some none
    | some before =>
      let stop := start + before + Text.byteLength (Quoted.encode name)
      match _cut : Text.splitAtByte? text stop with
      | none => none
      | some (_, behind) =>
        if (Text.trimStart behind).head? = some ':' then some (some (start + before, stop))
        else seek? text name stop
termination_by Text.byteLength text - start
decreasing_by
  have within := Text.le_byteLength_of_splitAtByte? _cut
  have wide := Quoted.byteLength_encode_pos name
  omega

/-- Follows names by byte offsets, each from the end of the one before it on. -/
def trace? (text : List Char) : Option (ℕ × ℕ) → List (List Char) → Option (Option (ℕ × ℕ))
  | found, [] => some found
  | found, name :: names =>
    match seek? text name ((found.map (·.2)).getD 0) with
    | none => none
    | some none => some found
    | some (some next) => trace? text (some next) names

/-- The range of the deepest name of a dotted path by byte offsets. -/
def locateByBytes? (text path : List Char) : Option Range := do
  match ← trace? text none (segments path) with
  | some (start, stop) => return ⟨← Position.atByte? text start, ← Position.atByte? text stop⟩
  | none => return ⟨.start, ← Position.atByte? text (Text.byteLength text)⟩

/-- Places in a text as byte offsets. -/
def inBytes (text : List Char) (token : ℕ × ℕ) : ℕ × ℕ :=
  (Text.byteLength (text.take token.1), Text.byteLength (text.take token.2))

theorem inBytes_append (front between rest : List Char) :
    inBytes (front ++ (between ++ rest)) (front.length, (front ++ between).length) =
      (Text.byteLength front, Text.byteLength (front ++ between)) := by
  simp only [inBytes]
  rw [List.take_left, ← List.append_assoc, List.take_left]

theorem find?_append (front rest name : List Char) : find? (front ++ rest) front.length name =
    (search (Quoted.encode name) 0 rest).map fun before =>
      (front.length + before, front.length + before + (Quoted.encode name).length) := by
  rw [find?, List.drop_left]

/-- The first place at which the quoted name is written, if there is one. The search ends there or goes on behind
it. -/
theorem findByte?_cases (name front rest : List Char) :
    Text.findByte? (Quoted.encode name) rest = none ∧ find? (front ++ rest) front.length name = none ∨
      ∃ gap behind, rest = gap ++ (Quoted.encode name ++ behind) ∧
        Text.findByte? (Quoted.encode name) rest = some (Text.byteLength gap) ∧
        find? (front ++ rest) front.length name =
          if (Text.trimStart behind).head? = some ':' then
            some ((front ++ gap).length, (front ++ gap ++ Quoted.encode name).length)
          else find? (front ++ gap ++ Quoted.encode name ++ behind)
            (front ++ gap ++ Quoted.encode name).length name := by
  induction rest generalizing front with
  | nil => exact .inl ⟨by simp [Text.findByte?, Quoted.encode_ne_nil], by rw [find?_append, search_nil]; rfl⟩
  | cons c rest ih =>
    by_cases written : Quoted.encode name <+: c :: rest
    · obtain ⟨behind, split⟩ := written
      have pref : (Quoted.encode name).isPrefixOf (c :: rest) = true :=
        List.isPrefixOf_iff_prefix.mpr ⟨behind, split⟩
      refine .inr ⟨[], behind, split.symm, by rw [Text.findByte?, if_pos pref, Text.byteLength], ?_⟩
      rw [← split, find?_append, search_self (Quoted.encode_ne_nil name), List.append_nil, find?_append]
      split
      · simp
      · rw [Option.map_map]
        congr 1
        funext before
        simp only [Function.comp_apply, List.length_append, Prod.mk.injEq]
        omega
    · have apart : ¬ (Quoted.encode name).isPrefixOf (c :: rest) = true := mt List.isPrefixOf_iff_prefix.mp written
      have step : find? (front ++ c :: rest) front.length name =
          find? (front ++ [c] ++ rest) (front ++ [c]).length name := by
        rw [find?_append, find?_append, search_cons_of_apart written, Option.map_map]
        congr 1
        funext before
        simp only [Function.comp_apply, List.length_append, List.length_singleton, Prod.mk.injEq]
        omega
      rw [step, Text.findByte?, if_neg apart]
      rcases ih (front ++ [c]) with ⟨none, none'⟩ | ⟨gap, behind, rfl, bytes, further⟩
      · exact .inl ⟨by rw [none]; rfl, none'⟩
      · refine .inr ⟨c :: gap, behind, rfl, by rw [bytes]; rfl, ?_⟩
        rw [further]
        simp only [List.append_assoc, List.singleton_append]

/-- Behind the first place at which the quoted name is written, the text can be cut. There the search ends or goes
on. -/
theorem seek?_append {front gap behind : List Char} (first : Text.findByte? (Quoted.encode name)
      (gap ++ (Quoted.encode name ++ behind)) = some (Text.byteLength gap)) :
    seek? (front ++ (gap ++ (Quoted.encode name ++ behind))) name (Text.byteLength front) =
      if (Text.trimStart behind).head? = some ':' then
        some (some (Text.byteLength (front ++ gap), Text.byteLength (front ++ gap ++ Quoted.encode name)))
      else seek? (front ++ gap ++ Quoted.encode name ++ behind) name
        (Text.byteLength (front ++ gap ++ Quoted.encode name)) := by
  have around : front ++ (gap ++ (Quoted.encode name ++ behind)) =
      (front ++ gap ++ Quoted.encode name) ++ behind := by simp
  have stop : Text.byteLength front + Text.byteLength gap + Text.byteLength (Quoted.encode name) =
      Text.byteLength (front ++ gap ++ Quoted.encode name) := by
    rw [Text.byteLength_append, Text.byteLength_append]
  have cut := Text.splitAtByte?_byteLength (front ++ gap ++ Quoted.encode name) behind
  rw [← around, ← stop] at cut
  rw [seek?, Text.splitAtByte?_byteLength]
  simp only [first]
  split
  case h_1 uncut => cases cut.symm.trans uncut
  case h_2 cut' =>
    cases cut.symm.trans cut'
    rw [stop, Text.byteLength_append front gap, around]

/-- By byte offsets the search cuts the text between characters only, and it finds the same. -/
theorem seek?_eq (name front rest : List Char) : seek? (front ++ rest) name (Text.byteLength front) =
    some ((find? (front ++ rest) front.length name).map (inBytes (front ++ rest))) := by
  -- on what is left of the text, since each quoted name that is no key is passed over
  induction size : rest.length using Nat.strong_induction_on generalizing front rest with
  | _ size ih =>
    subst size
    rcases findByte?_cases name front rest with ⟨none, none'⟩ | ⟨gap, behind, rfl, first, further⟩
    · rw [seek?, Text.splitAtByte?_byteLength]
      simp only [none, none', Option.map_none]
    have around : front ++ (gap ++ (Quoted.encode name ++ behind)) =
        (front ++ gap) ++ (Quoted.encode name ++ behind) := (List.append_assoc ..).symm
    rw [seek?_append first, further]
    split
    case isTrue => rw [Option.map_some, around, inBytes_append]
    case isFalse =>
      have shorter : behind.length < (gap ++ (Quoted.encode name ++ behind)).length := by
        have given := List.length_pos_iff.mpr (Quoted.encode_ne_nil name)
        simp only [List.length_append]
        omega
      rw [ih _ shorter _ behind rfl, around, ← List.append_assoc (front ++ gap)]

/-- A place behind which names are looked for is one at which the text can be cut. -/
theorem seek?_inBytes (within : ∀ token ∈ found, token.2 ≤ text.length) (name : List Char) :
    seek? text name (((found.map (inBytes text)).map (·.2)).getD 0) =
      some ((find? text ((found.map (·.2)).getD 0) name).map (inBytes text)) := by
  cases found with
  | none => exact seek?_eq name [] text
  | some token =>
    have seeks := seek?_eq name (text.take token.2) (text.drop token.2)
    rw [List.take_append_drop, List.length_take_of_le (within token rfl)] at seeks
    exact seeks

/-- Names are followed by byte offsets to the same places. -/
theorem trace?_eq (within : ∀ token ∈ found, token.2 ≤ text.length) :
    trace? text (found.map (inBytes text)) names = some ((follow text found names).map (inBytes text)) := by
  fun_induction follow text found names with
  | case1 => rfl
  | case2 found name names next finds ih =>
    rw [trace?, seek?_inBytes within, finds]
    refine ih fun token found => ?_
    obtain ⟨-, front, ⟨gap, behind, split, -⟩, rfl⟩ := keyBehind_of_find? finds
    cases found
    simp only [split, List.length_append]
    omega
  | case3 found name names fails => rw [trace?, seek?_inBytes within, fails, Option.map_none]

theorem inBytes_key {front : List Char} (key : KeyBehind text name front) :
    inBytes text (front.length, (front ++ Quoted.encode name).length) =
      (Text.byteLength front, Text.byteLength (front ++ Quoted.encode name)) := by
  obtain ⟨gap, behind, rfl, -⟩ := key
  exact inBytes_append ..

/-- By byte offsets a path is located at the same range. -/
theorem locateByBytes?_eq (text path : List Char) : locateByBytes? text path = some (locate text path) := by
  have nowhere : ∀ token ∈ (none : Option (ℕ × ℕ)), token.2 ≤ text.length := nofun
  have traced := @trace?_eq text (segments path) none nowhere
  rw [Option.map_none] at traced
  rw [locateByBytes?, traced, locate_eq_rangeOf]
  rcases follow_cases text none (segments path) with none | ⟨name, -, front, key, ends, -⟩
  · have stop := Position.atByte?_byteLength text []
    rw [List.append_nil] at stop
    rw [none]
    simp [stop, rangeOf, Range.whole]
  · rw [ends, Option.map_some, inBytes_key key, rangeOf_key key]
    simp [atByte?_key key]

/-- Locating a path never cuts the text inside a character or past its end. In a text that is not too long, the
range is that of the whole text, or that of one of the names of the path where it is written as a key; the empty
path has the range of the whole text. The range of a name is on one line and as wide as the name is when it is
quoted. A path that goes on with more names is located no earlier. -/
theorem locate_sound {text : List Char} (path : List Char) (short : Text.byteLength text < UInt32.size) :
    locateByBytes? text path = some (locate text path) ∧
    (path = [] → locate text path = .whole text) ∧
    (locate text path = .whole text ∨
      ∃ name ∈ path.splitOn '.', ∃ front, KeyBehind text name front ∧
        let range := locate text path
        Position.atByte? text (Text.byteLength front) = some range.start ∧
        Position.atByte? text (Text.byteLength (front ++ Quoted.encode name)) = some range.stop ∧
        range.stop.line = range.start.line ∧
        range.stop.character.toNat = range.start.character.toNat + (Quoted.encode name).length) ∧
    ∀ longer, segments path <+: segments longer → (locate text path).start ≤ (locate text longer).start := by
  have fits := Nat.lt_of_le_of_lt (Text.length_le_byteLength text) short
  refine ⟨locateByBytes?_eq text path, ?_, ?_, fun longer goesOn => start_locate_le fits goesOn⟩
  · rintro rfl
    rfl
  · rw [locate_eq_rangeOf]
    rcases follow_cases text none (segments path) with none | ⟨name, listed, front, key, ends, -⟩
    · rw [none]
      exact .inl rfl
    · have given : path ≠ [] := by
        rintro rfl
        cases listed
      rw [segments, if_neg given] at listed
      obtain ⟨start, stop⟩ := atByte?_key key
      obtain ⟨gap, behind, split, -⟩ := id key
      have shorter : (front ++ Quoted.encode name).length < UInt32.size := by
        rw [split, ← List.append_assoc, List.length_append] at fits
        omega
      rw [ends, rangeOf_key key]
      exact .inr ⟨name, listed, front, key, start, stop,
        Position.toNat_after_append_of_inLine shorter (Quoted.newline_not_mem_encode name)⟩

/-- A text with a key in the value of another one, behind characters of more than one byte. -/
def nestedText : List Char := "\x7b\"é\" : \"é\",\r\n\"a\":\x7b\"é\"\u2003:1\x7d\x7d".toList

/-- The second name of the path is located behind the first one, and not where it stands before that. -/
theorem locate_sound_nested : Text.byteLength nestedText < UInt32.size ∧
    locateByBytes? nestedText "a.é".toList = some ⟨⟨1, 5⟩, ⟨1, 8⟩⟩ ∧
    (locate nestedText "a".toList).start ≤ (locate nestedText "a.é".toList).start := by
  have short : Text.byteLength nestedText < UInt32.size := by decide +kernel
  have located : locate nestedText "a.é".toList = ⟨⟨1, 5⟩, ⟨1, 8⟩⟩ := by decide +kernel
  obtain ⟨bytes, -, -, -⟩ := locate_sound "a.é".toList short
  obtain ⟨-, -, -, later⟩ := locate_sound "a".toList short
  exact ⟨short, bytes.trans (congrArg some located), later _ (by decide +kernel)⟩

end KeyLocation
end TypedJson
