/-! # Patterns for file names

In a pattern a question mark stands for any character, an asterisk for any text, and brackets for one
character out of a set, or not out of it if the set begins with an exclamation mark. Two asterisks stand
for any number of directories and have to be a whole segment of the pattern.
-/

namespace TypedJson.Glob

inductive Specifier where
  | single (c : Char)
  | range (low high : Char)
  deriving DecidableEq, Repr

inductive Token where
  | literal (c : Char)
  | anyCharacter
  | anyText
  | anyDirectories
  | oneOf (set : List Specifier)
  | noneOf (set : List Specifier)
  deriving DecidableEq, Repr

abbrev Pattern := List Token

/-- Why a text is not a pattern, with the number of characters before the fault. -/
inductive PatternFault where
  | tooManyAsterisks (position : Nat)
  | partOfSegment (position : Nat)
  | brokenSet (position : Nat)
  deriving DecidableEq, Repr

def PatternFault.message : PatternFault → String
  | .tooManyAsterisks position =>
    about position "wildcards are either regular \x60*\x60 or recursive \x60**\x60"
  | .partOfSegment position => about position "recursive wildcards must form a single path component"
  | .brokenSet position => about position "invalid range pattern"
where
  /-- A fault at a place. -/
  about (position : Nat) (reason : String) : String :=
    "Pattern syntax error near position " ++ toString position ++ ": " ++ reason

/-- The members of a set of characters. A hyphen between two characters makes a range. -/
def readSet : List Char → List Specifier
  | low :: '-' :: high :: rest => .range low high :: readSet rest
  | c :: rest => .single c :: readSet rest
  | [] => []

/-- Splits the text after an opening bracket at the bracket that closes the set. The first member of a set
may itself be a closing bracket. -/
def splitSet? : List Char → Option (List Char × List Char)
  | [] => none
  | first :: rest =>
    match rest.dropWhile (· ≠ ']') with
    | [] => none
    | _ :: after => some (first :: rest.takeWhile (· ≠ ']'), after)

theorem length_splitSet? {text set after : List Char} (found : splitSet? text = some (set, after)) :
    after.length < text.length := by
  cases text with
  | nil => simp [splitSet?] at found
  | cons first rest =>
    simp only [splitSet?] at found
    split at found
    · simp at found
    · next closing tail split =>
      simp only [Option.some.injEq, Prod.mk.injEq] at found
      have bound := (List.dropWhile_sublist (l := rest) (· ≠ ']')).length_le
      rw [split] at bound
      obtain ⟨_, rfl⟩ := found
      simp at bound ⊢
      omega

/-- Reads the parts of a pattern from a place on, knowing the character before it. -/
def readTokens (position : Nat) (before : Option Char) (text : List Char) :
    Except PatternFault Pattern :=
  match text with
  | [] => .ok []
  | '?' :: rest => (readTokens (position + 1) '?' rest).map (.anyCharacter :: ·)
  | '*' :: '*' :: '*' :: _ => .error (.tooManyAsterisks (position + 2))
  | '*' :: '*' :: rest =>
    if before = none ∨ before = some '/' then
      match rest with
      | [] => .ok [.anyDirectories]
      | '/' :: rest => (readTokens (position + 3) '/' rest).map (.anyDirectories :: ·)
      | _ :: _ => .error (.partOfSegment (position + 2))
    else .error (.partOfSegment (position - 1))
  | '*' :: rest => (readTokens (position + 1) '*' rest).map (.anyText :: ·)
  | '[' :: '!' :: rest =>
    match found : splitSet? rest with
    | none => .error (.brokenSet position)
    | some (set, after) =>
      have := length_splitSet? found
      (readTokens (position + set.length + 3) ']' after).map (.noneOf (readSet set) :: ·)
  | '[' :: rest =>
    match found : splitSet? rest with
    | none => .error (.brokenSet position)
    | some (set, after) =>
      have := length_splitSet? found
      (readTokens (position + set.length + 2) ']' after).map (.oneOf (readSet set) :: ·)
  | c :: rest => (readTokens (position + 1) c rest).map (.literal c :: ·)
termination_by text.length

namespace Pattern

def ofText (text : List Char) : Except PatternFault Pattern := readTokens 0 none text

/-- The only text that a pattern without wildcards matches. -/
def literal? : Pattern → Option (List Char)
  | [] => some []
  | .literal c :: rest => (literal? rest).map (c :: ·)
  | _ :: _ => none

def inSet (set : List Specifier) (c : Char) : Bool :=
  set.any fun specifier => match specifier with
    | .single member => c = member
    | .range low high => low ≤ c ∧ c ≤ high

/-- A pattern stands for any number of directories. -/
def isRecursive (pattern : Pattern) : Bool := pattern.contains .anyDirectories

/-- Some end of a text, the whole text and the empty text included, meets a condition. -/
def anySuffix (test : List Char → Bool) : List Char → Bool
  | [] => test []
  | c :: rest => test (c :: rest) || anySuffix test rest

/-- A pattern matches the whole of a name. -/
def isMatch : Pattern → List Char → Bool
  | [], name => name = []
  | .anyText :: rest, name | .anyDirectories :: rest, name => anySuffix (isMatch rest) name
  | _ :: _, [] => false
  | .literal wanted :: rest, c :: name => c = wanted && isMatch rest name
  | .anyCharacter :: rest, _ :: name => isMatch rest name
  | .oneOf set :: rest, c :: name => inSet set c && isMatch rest name
  | .noneOf set :: rest, c :: name => !inSet set c && isMatch rest name

end Pattern
end TypedJson.Glob
