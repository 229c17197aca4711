import TypedJson.Shell.Basic
import TypedJson.Text.DecimalDigit

/-! # Tokens of scripts

A script is a list of words, line ends and operators. Blanks separate words, and a number sign at the
start of a word begins a comment.
-/

namespace TypedJson.Shell

/-- A token of a script. A redirection names the descriptor that it is about. -/
inductive Token where
  | word (word : Word)
  | newline
  | operator (text : String)
  | redirection (descriptor : Nat) (text : String)
  deriving DecidableEq, Repr

namespace Token

def isBlank (c : Char) : Bool := c = ' ' || c = '\t'

/-- Characters that end a word that is not in quotes. -/
def endsWord (c : Char) : Bool := isBlank c || "\n;&|()<>".toList.contains c

def startsName (c : Char) : Bool := c.isAlpha || c = '_'

def isNamePart (c : Char) : Bool := c.isAlphanum || c = '_'

/-- Parameters with a name of one character that is not a letter. -/
def isSpecial (c : Char) : Bool := c.isDigit || "@*#?$!-".toList.contains c

/-- Splits a text at the parenthesis that closes the given number of open ones. -/
def splitClosed (quote : Option Char) (depth : Nat) : List Char → List Char × List Char
  | [] => ([], [])
  | c :: rest =>
    let (quote, depth, closes) := match quote with
      | some mark => (if c = mark then none else some mark, depth, false)
      | none =>
        if c = '"' ∨ c = '\'' then (some c, depth, false)
        else if c = '(' then (none, depth + 1, false)
        else if c = ')' then (none, depth - 1, depth ≤ 1)
        else (none, depth, false)
    if closes then ([], rest)
    else
      let (body, after) := splitClosed quote depth rest
      (c :: body, after)

/-- Reads what is done to a parameter, from the text between its name and the closing brace. -/
def readAdjustment : List Char → Adjustment
  | ':' :: '-' :: text | '-' :: text => .default text
  | '#' :: '#' :: pattern => .trimStart true pattern
  | '#' :: pattern => .trimStart false pattern
  | '%' :: '%' :: pattern => .trimEnd true pattern
  | '%' :: pattern => .trimEnd false pattern
  | _ => .keep

def readBraces (quoted : Bool) (body : List Char) : Fragment :=
  match body with
  | '#' :: c :: name => .parameter (String.ofList (c :: name)) .length quoted
  | c :: rest =>
    if isSpecial c then .parameter (String.ofList [c]) (readAdjustment rest) quoted
    else
      .parameter (String.ofList (body.takeWhile isNamePart))
        (readAdjustment (body.dropWhile isNamePart)) quoted
  | [] => .text [] quoted

def readDollar (quoted : Bool) : List Char → Fragment × List Char
  | '(' :: '(' :: text =>
    let (body, rest) := splitClosed none 2 text
    (.arithmetic body.dropLast quoted, rest)
  | '(' :: text =>
    let (body, rest) := splitClosed none 1 text
    (.output body quoted, rest)
  | '\x7b' :: text =>
    (readBraces quoted (text.takeWhile (· ≠ '\x7d')), (text.dropWhile (· ≠ '\x7d')).drop 1)
  | c :: text =>
    if isSpecial c then (.parameter (String.ofList [c]) .keep quoted, text)
    else if startsName c then
      (.parameter (String.ofList ((c :: text).takeWhile isNamePart)) .keep quoted,
        (c :: text).dropWhile isNamePart)
    else (.text ['$'] quoted, c :: text)
  | [] => (.text ['$'] quoted, [])

/-- Reads the fragments of a word, inside or outside of double quotes. The bound counts characters. -/
def readWord : Nat → Bool → List Char → Word × List Char
  | 0, _, text => ([], text)
  | _, _, [] => ([], [])
  | bound + 1, quoted, c :: rest =>
    let continueWith (fragment : Fragment) (quoted : Bool) (rest : List Char) : Word × List Char :=
      let (others, after) := readWord bound quoted rest
      (fragment :: others, after)
    if c = '"' then
      if !quoted ∧ rest.head? = some '"' then continueWith (.text [] true) false (rest.drop 1)
      else readWord bound (!quoted) rest
    else if c = '\'' ∧ !quoted then
      continueWith (.text (rest.takeWhile (· ≠ '\'')) true) false ((rest.dropWhile (· ≠ '\'')).drop 1)
    else if c = '\\' then
      match rest with
      | [] => ([.text ['\\'] quoted], [])
      | '\n' :: rest => readWord bound quoted rest
      | escaped :: rest =>
        if quoted ∧ !("$\x60\"\\".toList.contains escaped) then
          continueWith (.text ['\\', escaped] true) quoted rest
        else continueWith (.text [escaped] true) quoted rest
    else if c = '$' then
      let (fragment, rest) := readDollar quoted rest
      continueWith fragment quoted rest
    else if c = '\x60' then
      continueWith (.output (rest.takeWhile (· ≠ '\x60')) quoted) quoted
        ((rest.dropWhile (· ≠ '\x60')).drop 1)
    else if !quoted ∧ endsWord c then ([], c :: rest)
    else continueWith (.text [c] quoted) quoted rest

/-- Reads the tokens of a script. The bound counts characters. -/
def read : Nat → List Char → List Token
  | 0, _ => []
  | _, [] => []
  | bound + 1, c :: rest =>
    if isBlank c then read bound rest
    else match c, rest with
      | '\n', rest => .newline :: read bound rest
      | '#', rest => read bound (rest.dropWhile (· ≠ '\n'))
      | '\\', '\n' :: rest => read bound rest
      | '&', '&' :: rest => .operator "&&" :: read bound rest
      | '|', '|' :: rest => .operator "||" :: read bound rest
      | '>', '>' :: rest => .redirection 1 ">>" :: read bound rest
      | '>', '&' :: rest => .redirection 1 ">&" :: read bound rest
      | '>', rest => .redirection 1 ">" :: read bound rest
      | '<', rest => .redirection 0 "<" :: read bound rest
      | '2', '>' :: '>' :: rest => .redirection 2 ">>" :: read bound rest
      | '2', '>' :: '&' :: rest => .redirection 2 ">&" :: read bound rest
      | '2', '>' :: rest => .redirection 2 ">" :: read bound rest
      | '1', '>' :: '&' :: rest => .redirection 1 ">&" :: read bound rest
      | '1', '>' :: rest => .redirection 1 ">" :: read bound rest
      | c, rest =>
        if endsWord c then .operator (String.ofList [c]) :: read bound rest
        else
          let (found, after) := readWord bound false (c :: rest)
          .word found :: read bound after

def ofScript (script : List Char) : List Token := read (script.length + 1) script

end Token
end TypedJson.Shell
