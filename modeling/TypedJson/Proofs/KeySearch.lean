import TypedJson.Proofs.KeyLocation
import Mathlib.Order.Bounds.Basic

/-! # Which key is found

A quoted name that is no key is passed over as a whole, its closing quote included. A quoted name can begin at this
quote, and nowhere else inside another one, so it is passed over as well, though it may be a key: in the text
`"p":"q",",":1` the name `,` is not found, because it is looked for behind the quoted comma that ends in the first
quote of the key. Of the keys that are not passed over in this way, the first one is found:
`KeyLocation.find?_first_kept`.
-/

namespace TypedJson

/-- Where a literal begins inside another one with the same body, only the closing quote of that one is left. -/
theorem StringLiteral.Closed.length_le_of_prefix {body front back rest : List Char} (closed : Closed body)
    (split : quote body = front ++ back) (inside : front ≠ []) (again : quote body <+: back ++ rest) :
    back.length ≤ 1 := by
  obtain ⟨tail, same⟩ := again
  obtain ⟨first, front, rfl⟩ := List.exists_cons_of_ne_nil inside
  cases back with
  | nil => exact Nat.zero_le 1
  | cons b back =>
    rcases List.eq_nil_or_concat' back with rfl | ⟨middle, last, rfl⟩
    · exact Nat.le_refl 1
    rw [quote_append] at same
    obtain rfl := (List.cons.inj same).1
    have cut : body ++ ['"'] = (front ++ '"' :: middle) ++ [last] := by
      simpa [quote] using (List.cons.inj split).2
    obtain ⟨rfl, ends⟩ := List.append_inj' cut rfl
    obtain rfl : '"' = last := List.singleton_inj.mp ends
    change _ = quote middle ++ rest at same
    rw [quote_append] at same
    -- the literal that begins inside would be as long as the one around it
    have shorter := congrArg List.length (closed.append_inj closed.of_append_quote (List.cons.inj same).2).1
    rw [List.length_append, List.length_cons] at shorter
    omega

namespace KeyLocation

variable {text name quoted : List Char} {start place earlier : ℕ}

/-- The quoted name is written at a place. -/
def WrittenAt (text name : List Char) (place : ℕ) : Prop := Quoted.encode name <+: text.drop place

/-- The quoted name is written at a place, and a colon follows it after white space. -/
def KeyAt (text name : List Char) (place : ℕ) : Prop := ∃ front, KeyBehind text name front ∧ front.length = place

/-- A place is passed over in a search if the quoted name that is written at an earlier place ends in its first
character, and that place is not passed over itself. -/
def PassedOver (text name : List Char) (start place : ℕ) : Prop :=
  ∃ earlier, ∃ _before : earlier < place, start ≤ earlier ∧ WrittenAt text name earlier ∧
    earlier + (Quoted.encode name).length = place + 1 ∧ ¬ PassedOver text name start earlier
termination_by place

theorem keyAt_iff : KeyAt text name place ↔ isKey (Quoted.encode name) (text.drop place) = true := by
  rw [isKey_iff]
  constructor
  · rintro ⟨front, ⟨gap, behind, rfl, blank⟩, rfl⟩
    exact ⟨gap, behind, List.drop_left, blank⟩
  · rintro ⟨gap, behind, split, blank⟩
    have within : place ≤ text.length := by
      have given := congrArg List.length split
      simp only [List.length_drop, List.length_append, List.length_cons] at given
      omega
    refine ⟨text.take place, ⟨gap, behind, ?_, blank⟩, List.length_take_of_le within⟩
    rw [← split, List.take_append_drop]

theorem KeyAt.writtenAt (key : KeyAt text name place) : WrittenAt text name place := by
  obtain ⟨gap, behind, split, -⟩ := isKey_iff.mp (keyAt_iff.mp key)
  rw [WrittenAt, split]
  exact List.prefix_append ..

theorem two_le_length_encode (name : List Char) : 2 ≤ (Quoted.encode name).length := by
  simp [Quoted.encode]

/-- A quoted name begins inside another one only at its closing quote. -/
theorem WrittenAt.overlap (written : WrittenAt text name earlier) (again : WrittenAt text name place)
    (behind : earlier < place) (inside : place < earlier + (Quoted.encode name).length) :
    earlier + (Quoted.encode name).length = place + 1 := by
  obtain ⟨rest, split⟩ := written
  have closed := (StringLiteral.spells_encode name).closed
  have parts : StringLiteral.quote (name.flatMap Quoted.encodeChar) =
      (Quoted.encode name).take (place - earlier) ++ (Quoted.encode name).drop (place - earlier) :=
    (List.take_append_drop ..).symm
  have given : (Quoted.encode name).take (place - earlier) ≠ [] := by
    rw [← List.length_pos_iff, List.length_take]
    omega
  have drop : text.drop place = (Quoted.encode name).drop (place - earlier) ++ rest := by
    rw [← List.drop_append_of_le_length (by omega), split, List.drop_drop]
    congr 1
    omega
  rw [WrittenAt, drop] at again
  have short := closed.length_le_of_prefix parts given again
  rw [List.length_drop] at short
  omega

/-- What the search does not pass over when it has come to a place: no quoted name in front of it reaches beyond it
without being passed over. -/
def Reached (text name : List Char) (start place : ℕ) : Prop :=
  start ≤ place ∧ ∀ earlier, start ≤ earlier → earlier < place → WrittenAt text name earlier →
    ¬ PassedOver text name start earlier → earlier + (Quoted.encode name).length ≤ place

theorem Reached.not_passedOver (reached : Reached text name start place) :
    ¬ PassedOver text name start place := by
  rw [PassedOver]
  rintro ⟨earlier, before, behind, written, ends, kept⟩
  have beyond := reached.2 earlier behind before written kept
  omega

theorem Reached.succ (reached : Reached text name start place) (apart : ¬ WrittenAt text name place) :
    Reached text name start (place + 1) := by
  refine ⟨Nat.le_succ_of_le reached.1, fun earlier behind before written kept => ?_⟩
  have other : earlier ≠ place := by
    rintro rfl
    exact apart written
  have beyond := reached.2 earlier behind (by omega) written kept
  omega

/-- Behind a quoted name that is reached, all that it overlaps has been passed over. -/
theorem Reached.passedOver (reached : Reached text name start earlier) (written : WrittenAt text name earlier)
    (again : WrittenAt text name place) (behind : earlier < place)
    (inside : place < earlier + (Quoted.encode name).length) : PassedOver text name start place := by
  rw [PassedOver]
  exact ⟨earlier, behind, reached.1, written, written.overlap again behind inside, reached.not_passedOver⟩

theorem Reached.add_length (reached : Reached text name start place) (written : WrittenAt text name place) :
    Reached text name start (place + (Quoted.encode name).length) := by
  refine ⟨Nat.le_add_right_of_le reached.1, fun earlier behind before again kept => ?_⟩
  rcases Nat.lt_trichotomy earlier place with less | rfl | greater
  · have beyond := reached.2 earlier behind less again kept
    omega
  · exact Nat.le_refl _
  · exact absurd (reached.passedOver written again greater before) kept

/-- The keys behind a place that are not passed over. -/
def keysFrom (text name : List Char) (start place : ℕ) : Set ℕ :=
  {key | place ≤ key ∧ KeyAt text name key ∧ ¬ PassedOver text name start key}

theorem keysFrom_succ (other : ¬ KeyAt text name place) :
    keysFrom text name start place = keysFrom text name start (place + 1) := by
  ext key
  simp only [keysFrom, Set.mem_ofPred_eq]
  constructor
  · rintro ⟨behind, isKey, kept⟩
    have : key ≠ place := by
      rintro rfl
      exact other isKey
    exact ⟨by omega, isKey, kept⟩
  · rintro ⟨behind, rest⟩
    exact ⟨by omega, rest⟩

theorem Reached.keysFrom_eq (reached : Reached text name start place) (written : WrittenAt text name place)
    (other : ¬ KeyAt text name place) :
    keysFrom text name start place = keysFrom text name start (place + (Quoted.encode name).length) := by
  rw [keysFrom_succ other]
  have long := two_le_length_encode name
  ext key
  simp only [keysFrom, Set.mem_ofPred_eq]
  constructor
  · rintro ⟨behind, isKey, kept⟩
    refine ⟨?_, isKey, kept⟩
    by_contra inside
    exact kept (reached.passedOver written isKey.writtenAt (by omega) (by omega))
  · rintro ⟨behind, rest⟩
    exact ⟨by omega, rest⟩

/-- What the search from a place on says about the keys there. -/
def Finds (text name : List Char) (start place : ℕ) : Option ℕ → Prop
  | some before => IsLeast (keysFrom text name start place) (place + before)
  | none => keysFrom text name start place = ∅

theorem Finds.shift {further : ℕ} {found : Option ℕ}
    (same : keysFrom text name start place = keysFrom text name start (place + further))
    (finds : Finds text name start (place + further) found) :
    Finds text name start place (found.map (· + further)) := by
  cases found with
  | none => exact same.trans finds
  | some before =>
    have there : place + (before + further) = place + further + before := by omega
    rw [Option.map_some, Finds, same, there]
    exact finds

theorem keyAt_of_split {rest : List Char} (split : Quoted.encode name ++ rest = text.drop place) :
    KeyAt text name place ↔ (Text.trimStart rest).head? = some ':' := by
  have pref : (Quoted.encode name).isPrefixOf (Quoted.encode name ++ rest) = true :=
    List.isPrefixOf_iff_prefix.mpr (List.prefix_append ..)
  rw [keyAt_iff, ← split, isKey, pref, Bool.true_and, List.drop_left, decide_eq_true_iff]

/-- The search from a place that it has come to finds the first key that is not passed over. -/
theorem Reached.finds (reached : Reached text name start place) :
    Finds text name start place (search (Quoted.encode name) 0 (text.drop place)) := by
  -- on what is left of the text; the search goes on behind one character or one quoted name
  induction size : text.length - place using Nat.strong_induction_on generalizing place with
  | _ size ih =>
    subst size
    by_cases written : WrittenAt text name place
    · have given := two_le_length_encode name
      have within := written.length_le
      rw [List.length_drop] at within
      obtain ⟨rest, split⟩ := id written
      have behind : text.drop (place + (Quoted.encode name).length) = rest := by
        rw [← List.drop_drop, ← split, List.drop_left]
      rw [← split, search_self (Quoted.encode_ne_nil name)]
      by_cases colon : (Text.trimStart rest).head? = some ':'
      · rw [if_pos colon]
        exact ⟨⟨Nat.le_refl _, (keyAt_of_split split).mpr colon, reached.not_passedOver⟩, fun key listed => listed.1⟩
      · rw [if_neg colon, ← behind]
        exact (ih _ (by omega) (reached.add_length written) rfl).shift
          (reached.keysFrom_eq written (mt (keyAt_of_split split).mp colon))
    · have other : ¬ KeyAt text name place := mt KeyAt.writtenAt written
      cases left : text.drop place with
      | nil =>
        rw [search_nil]
        refine Set.eq_empty_of_forall_notMem fun key listed => ?_
        have none : text.drop key = [] :=
          List.drop_eq_nil_of_le ((List.drop_eq_nil_iff.mp left).trans listed.1)
        have written := listed.2.1.writtenAt
        rw [WrittenAt, none] at written
        exact Quoted.encode_ne_nil name (List.prefix_nil.mp written)
      | cons c rest =>
        have within := congrArg List.length left
        rw [List.length_drop, List.length_cons] at within
        have behind : text.drop (place + 1) = rest := by rw [← List.drop_drop, left, List.drop_one, List.tail_cons]
        have apart : ¬ Quoted.encode name <+: c :: rest := left ▸ written
        rw [search_cons_of_apart apart, ← behind]
        exact (ih _ (by omega) (reached.succ written) rfl).shift (keysFrom_succ other)

theorem reached_start (text name : List Char) (start : ℕ) : Reached text name start start :=
  ⟨Nat.le_refl _, fun _ behind before => absurd before (Nat.not_lt.mpr behind)⟩

theorem find?_eq_some_iff : find? text start name = some (place, place + (Quoted.encode name).length) ↔
    IsLeast (keysFrom text name start start) place := by
  have finds := (reached_start text name start).finds
  rw [find?]
  cases found : search (Quoted.encode name) 0 (text.drop start) with
  | none =>
    rw [found] at finds
    have none : keysFrom text name start start = ∅ := finds
    simp [none, IsLeast]
  | some before =>
    rw [found] at finds
    have least : IsLeast (keysFrom text name start start) (start + before) := finds
    rw [Option.map_some, Option.some.injEq, Prod.mk.injEq]
    constructor
    · rintro ⟨rfl, -⟩
      exact least
    · intro least'
      obtain rfl := least.unique least'
      exact ⟨rfl, rfl⟩

theorem find?_eq_none_iff : find? text start name = none ↔ keysFrom text name start start = ∅ := by
  have finds := (reached_start text name start).finds
  rw [find?, Option.map_eq_none_iff]
  cases found : search (Quoted.encode name) 0 (text.drop start) with
  | none =>
    rw [found] at finds
    exact iff_of_true rfl finds
  | some before =>
    rw [found] at finds
    have least : IsLeast (keysFrom text name start start) (start + before) := finds
    exact iff_of_false (Option.some_ne_none _) (Set.nonempty_iff_ne_empty.mp ⟨_, least.1⟩)

/-- The first key behind a place that is not passed over is found, and nothing else. So the first key of all is found
exactly if it is not passed over, as when no quoted name before it ends in its opening quote. By byte offsets the
same is found, and the text is never cut inside a character. -/
theorem find?_first_kept (text name : List Char) (start : ℕ) :
    (∀ place, find? text start name = some (place, place + (Quoted.encode name).length) ↔
      IsLeast {key | start ≤ key ∧ KeyAt text name key ∧ ¬ PassedOver text name start key} place) ∧
    (find? text start name = none ↔ ∀ key, start ≤ key → KeyAt text name key → PassedOver text name start key) ∧
    (∀ place, IsLeast {key | start ≤ key ∧ KeyAt text name key} place →
      (find? text start name = some (place, place + (Quoted.encode name).length) ↔
        ¬ PassedOver text name start place) ∧
      ((∀ earlier, start ≤ earlier → WrittenAt text name earlier →
          earlier + (Quoted.encode name).length ≠ place + 1) →
        find? text start name = some (place, place + (Quoted.encode name).length))) ∧
    (start ≤ text.length → seek? text name (Text.byteLength (text.take start)) =
      some ((find? text start name).map (inBytes text))) := by
  refine ⟨fun place => find?_eq_some_iff, ?_, ?_, ?_⟩
  · rw [find?_eq_none_iff, Set.eq_empty_iff_forall_notMem]
    simp only [keysFrom, Set.mem_ofPred_eq, not_and, not_not]
  · intro place least
    have found : ¬ PassedOver text name start place →
        find? text start name = some (place, place + (Quoted.encode name).length) := fun kept =>
      find?_eq_some_iff.mpr
        ⟨⟨least.1.1, least.1.2, kept⟩, fun key listed => least.2 ⟨listed.1, listed.2.1⟩⟩
    refine ⟨⟨fun finds => (find?_eq_some_iff.mp finds).1.2.2, found⟩, fun apart => found ?_⟩
    rw [PassedOver]
    rintro ⟨earlier, -, behind, written, ends, -⟩
    exact apart earlier behind written ends
  · intro within
    have seeks := seek?_eq name (text.take start) (text.drop start)
    rwa [List.take_append_drop, List.length_take_of_le within] at seeks

/-- A document in which the quoted name of a member begins at the closing quote of a string. -/
def commaText : List Char := "\x7b\"p\":\"q\",\",\":1\x7d".toList

theorem keyAt_commaText_iff : KeyAt commaText [','] place ↔ place = 9 := by
  rw [keyAt_iff]
  by_cases within : place < 15
  · have all : ∀ place < 15, isKey (Quoted.encode [',']) (commaText.drop place) = true ↔ place = 9 := by
      decide +kernel
    exact all place within
  · have length : commaText.length = 15 := by decide
    rw [List.drop_eq_nil_of_le (by omega)]
    refine iff_of_false nofun ?_
    omega

/-- The only key with this name is not found, because the quoted name that is written before it ends in its opening
quote. It is found when it is looked for behind the beginning of that one. -/
theorem find?_first_kept_comma : IsLeast {key | 0 ≤ key ∧ KeyAt commaText [','] key} 9 ∧
    find? commaText 0 [','] = none ∧
    IsLeast {key | 8 ≤ key ∧ KeyAt commaText [','] key} 9 ∧ find? commaText 8 [','] = some (9, 9 + 3) := by
  have length : (Quoted.encode [',']).length = 3 := by decide
  have least (start : ℕ) (before : start ≤ 9) : IsLeast {key | start ≤ key ∧ KeyAt commaText [','] key} 9 :=
    ⟨⟨before, keyAt_commaText_iff.mpr rfl⟩, fun key listed => (keyAt_commaText_iff.mp listed.2).ge⟩
  have written : WrittenAt commaText [','] 7 := by
    change Quoted.encode [','] <+: commaText.drop 7
    decide +kernel
  have apart : ¬ WrittenAt commaText [','] 5 := by
    change ¬ Quoted.encode [','] <+: commaText.drop 5
    decide +kernel
  have kept : ¬ PassedOver commaText [','] 0 7 := by
    rw [PassedOver]
    rintro ⟨earlier, -, -, written', ends, -⟩
    obtain rfl : earlier = 5 := by omega
    exact apart written'
  refine ⟨least 0 (by decide), (find?_first_kept commaText [','] 0).2.1.mpr ?_, least 8 (by decide), ?_⟩
  · intro key _ isKey
    rw [keyAt_commaText_iff.mp isKey, PassedOver]
    exact ⟨7, by decide, by decide, written, by omega, kept⟩
  · have found := ((find?_first_kept commaText [','] 8).2.2.1 9 (least 8 (by decide))).2
    rw [length] at found
    refine found fun earlier behind _ => ?_
    omega

end KeyLocation
end TypedJson
