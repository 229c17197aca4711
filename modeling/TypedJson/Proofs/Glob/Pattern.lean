import TypedJson.Glob.Pattern
import TypedJson.Proofs.StringLiteral

/-! # What a pattern says about its own text

A text is also a name. Read as a pattern, it matches this name unless it has a set of characters; without wildcards
it matches no other name, and among the texts without a separator only two asterisks stand for directories.
-/

namespace TypedJson.Glob

/-- The parts of a pattern and the text that spells them after some character. -/
inductive Spelling : Option Char → List Char → Pattern → Prop
  | done {before : Option Char} : Spelling before [] []
  | anyCharacter {before : Option Char} {rest : List Char} {parts : Pattern}
      (onward : Spelling (some '?') rest parts) : Spelling before ('?' :: rest) (.anyCharacter :: parts)
  | anyText {before : Option Char} {rest : List Char} {parts : Pattern}
      (onward : Spelling (some '*') rest parts) : Spelling before ('*' :: rest) (.anyText :: parts)
  | allDirectories {before : Option Char} (starts : before = none ∨ before = some '/') :
      Spelling before ['*', '*'] [.anyDirectories]
  | directories {before : Option Char} {rest : List Char} {parts : Pattern}
      (starts : before = none ∨ before = some '/') (onward : Spelling (some '/') rest parts) :
      Spelling before ('*' :: '*' :: '/' :: rest) (.anyDirectories :: parts)
  | set {before : Option Char} {rest after : List Char} {set : List Specifier} {part : Token} {parts : Pattern}
      (member : part = .oneOf set ∨ part = .noneOf set) (ends : after <:+ rest)
      (onward : Spelling (some ']') after parts) : Spelling before ('[' :: rest) (part :: parts)
  | literal {before : Option Char} {c : Char} {rest : List Char} {parts : Pattern}
      (onward : Spelling (some c) rest parts) : Spelling before (c :: rest) (.literal c :: parts)

variable {position : ℕ} {before : Option Char} {text other set after : List Char} {pattern : Pattern}

theorem suffix_of_splitSet? (found : splitSet? text = some (set, after)) : after <:+ text := by
  cases text with
  | nil => cases found
  | cons first rest =>
    rw [splitSet?] at found
    split at found
    · cases found
    next closing tail closed =>
      cases found
      have inside : closing :: after <:+ rest := closed ▸ List.dropWhile_suffix _
      exact ((List.suffix_cons ..).trans inside).trans (List.suffix_cons ..)

/-- The reader reads spelled patterns only. -/
theorem spelling_of_readTokens (read : readTokens position before text = .ok pattern) :
    Spelling before text pattern := by
  fun_induction readTokens position before text generalizing pattern with
  | case1 =>
    cases read
    exact .done
  | case2 _ _ _ ih =>
    obtain ⟨parts, tail, rfl⟩ := map_eq_ok_iff.mp read
    exact .anyCharacter (ih tail)
  | case3 | case6 | case7 | case9 | case11 => cases read
  | case4 _ _ starts =>
    cases read
    exact .allDirectories starts
  | case5 _ _ starts _ _ ih =>
    obtain ⟨parts, tail, rfl⟩ := map_eq_ok_iff.mp read
    exact .directories starts (ih tail)
  | case8 _ _ _ _ _ ih =>
    obtain ⟨parts, tail, rfl⟩ := map_eq_ok_iff.mp read
    exact .anyText (ih tail)
  | case10 _ _ _ _ _ found _ ih =>
    obtain ⟨parts, tail, rfl⟩ := map_eq_ok_iff.mp read
    exact .set (.inr rfl) ((suffix_of_splitSet? found).trans (List.suffix_cons ..)) (ih tail)
  | case12 _ _ _ _ _ _ found _ ih =>
    obtain ⟨parts, tail, rfl⟩ := map_eq_ok_iff.mp read
    exact .set (.inl rfl) (suffix_of_splitSet? found) (ih tail)
  | case13 _ _ _ _ _ _ _ _ _ _ ih =>
    obtain ⟨parts, tail, rfl⟩ := map_eq_ok_iff.mp read
    exact .literal (ih tail)

namespace Pattern

theorem anySuffix_of_suffix {test : List Char → Bool} (ends : other <:+ text) (holds : test other = true) :
    anySuffix test text = true := by
  induction text with
  | nil => rwa [anySuffix, ← List.suffix_nil.mp ends]
  | cons c rest ih =>
    rw [anySuffix, Bool.or_eq_true]
    rcases List.suffix_cons_iff.mp ends with rfl | ends
    · exact .inl holds
    · exact .inr (ih ends)

end Pattern

namespace Spelling

/-- A text without sets matches itself. -/
theorem isMatch_self (spelled : Spelling before text pattern) (plain : '[' ∉ text) :
    pattern.isMatch text = true := by
  induction spelled with
  | done => rfl
  | anyCharacter _ ih =>
    rw [Pattern.isMatch]
    exact ih (List.not_mem_of_not_mem_cons plain)
  | anyText _ ih =>
    rw [Pattern.isMatch]
    exact Pattern.anySuffix_of_suffix (List.suffix_cons ..) (ih (List.not_mem_of_not_mem_cons plain))
  | allDirectories => decide
  | @directories _ rest _ _ _ ih =>
    rw [Pattern.isMatch]
    apply Pattern.anySuffix_of_suffix (List.suffix_append ['*', '*', '/'] rest)
    apply ih
    intro set
    apply plain
    simp [set]
  | set => exact (plain (List.mem_cons_self ..)).elim
  | literal _ ih =>
    rw [Pattern.isMatch, decide_eq_true rfl, Bool.true_and]
    exact ih (List.not_mem_of_not_mem_cons plain)

/-- A pattern without wildcards is its own text. -/
theorem eq_of_literal? (spelled : Spelling before text pattern) (plain : pattern.literal? = some other) :
    other = text := by
  induction spelled generalizing other with
  | done =>
    cases plain
    rfl
  | anyCharacter | anyText | allDirectories | directories => cases plain
  | set member => rcases member with rfl | rfl <;> cases plain
  | literal _ ih =>
    obtain ⟨rest, plain', rfl⟩ := Option.map_eq_some_iff.mp plain
    rw [ih plain']

/-- Only two asterisks stand for directories in a text without a separator. -/
theorem eq_of_isRecursive (spelled : Spelling before text pattern) (whole : '/' ∉ text)
    (apart : before ≠ some '/') (recursive : pattern.isRecursive = true) :
    before = none ∧ text = ['*', '*'] := by
  rw [Pattern.isRecursive, List.contains_iff_mem] at recursive
  induction spelled with
  | done => cases recursive
  | anyCharacter _ ih | anyText _ ih =>
    have later := (List.mem_cons.mp recursive).resolve_left nofun
    cases (ih (List.not_mem_of_not_mem_cons whole) (by decide) later).1
  | allDirectories starts => exact ⟨starts.resolve_right apart, rfl⟩
  | directories => simp at whole
  | set member ends _ ih =>
    have later := (List.mem_cons.mp recursive).resolve_left (by rcases member with rfl | rfl <;> nofun)
    have whole' := List.not_mem_of_not_mem_cons whole
    cases (ih (fun separator => whole' (ends.subset separator)) (by decide) later).1
  | literal _ ih =>
    have later := (List.mem_cons.mp recursive).resolve_left nofun
    have other := List.ne_of_not_mem_cons whole
    cases (ih (List.not_mem_of_not_mem_cons whole) (by simpa using other.symm) later).1

end Spelling

namespace Pattern

theorem spelling_of_ofText (read : ofText text = .ok pattern) : Spelling none text pattern :=
  spelling_of_readTokens read

/-- Read as a pattern, a text matches itself. -/
def IsSelfMatching (text : List Char) : Prop := ∀ pattern, ofText text = .ok pattern → pattern.isMatch text = true

theorem isSelfMatching_of_not_mem (plain : '[' ∉ text) : IsSelfMatching text := fun _ read =>
  (spelling_of_ofText read).isMatch_self plain

theorem ofText_two_asterisks : ofText ['*', '*'] = .ok [.anyDirectories] := by simp [ofText, readTokens]

theorem isRecursive_iff (read : ofText text = .ok pattern) (whole : '/' ∉ text) :
    pattern.isRecursive = true ↔ text = ['*', '*'] := by
  constructor
  · exact fun recursive => ((spelling_of_ofText read).eq_of_isRecursive whole nofun recursive).2
  · rintro rfl
    cases read.symm.trans ofText_two_asterisks
    rfl

/-- The names that no listing shows have no wildcards. -/
theorem literal?_of_ofText (read : ofText text = .ok pattern) (hidden : text = [] ∨ text = ['.'] ∨ text = ['.', '.']) :
    pattern.literal? = some text := by
  have spelled := spelling_of_ofText read
  rcases hidden with rfl | rfl | rfl
  · cases spelled
    rfl
  · obtain _ | _ | _ | _ | _ | _ | onward := spelled
    cases onward
    rfl
  · obtain _ | _ | _ | _ | _ | _ | onward := spelled
    obtain _ | _ | _ | _ | _ | _ | onward := onward
    cases onward
    rfl

end Pattern
end TypedJson.Glob
