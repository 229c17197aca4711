import TypedJson.Shell.Token

/-! # Integer expressions

Sums and products of integers and variables, with parentheses. A variable that holds no number counts as
zero, and so does a quotient by zero.
-/

namespace TypedJson.Shell.Arithmetic

def isSpace (c : Char) : Bool := Token.isBlank c || c = '\n'

def ofDigits (digits : List Char) : Int :=
  digits.foldl (fun n c => n * 10 + Text.digitValue c) (0 : Nat)

/-- The number at the start of a text, after blanks and a sign. -/
def ofText (text : List Char) : Int :=
  match text.dropWhile isSpace with
  | '-' :: digits => -ofDigits (digits.takeWhile Char.isDigit)
  | '+' :: digits => ofDigits (digits.takeWhile Char.isDigit)
  | digits => ofDigits (digits.takeWhile Char.isDigit)

variable (value : String → String)

mutual

/-- Reads a number, a variable, an expression in parentheses, or one of these after a sign. -/
def readFactor : Nat → List Char → Int × List Char
  | 0, text => (0, text)
  | bound + 1, text =>
    match text.dropWhile isSpace with
    | '-' :: rest =>
      let (n, rest) := readFactor bound rest
      (-n, rest)
    | '+' :: rest => readFactor bound rest
    | '(' :: rest =>
      let (n, rest) := readSum bound rest
      (n, (rest.dropWhile isSpace).drop 1)
    | '$' :: rest => readFactor bound rest
    | rest =>
      if rest.head?.any Char.isDigit then
        (ofDigits (rest.takeWhile Char.isDigit), rest.dropWhile Char.isDigit)
      else
        let name := String.ofList (rest.takeWhile Token.isNamePart)
        (ofText (value name).toList, rest.dropWhile Token.isNamePart)

def readProduct : Nat → List Char → Int × List Char
  | 0, text => (0, text)
  | bound + 1, text =>
    let (n, rest) := readFactor bound text
    moreFactors bound n rest

def moreFactors : Nat → Int → List Char → Int × List Char
  | 0, n, text => (n, text)
  | bound + 1, n, text =>
    match text.dropWhile isSpace with
    | '*' :: rest =>
      let (m, rest) := readFactor bound rest
      moreFactors bound (n * m) rest
    | '/' :: rest =>
      let (m, rest) := readFactor bound rest
      moreFactors bound (n.tdiv m) rest
    | '%' :: rest =>
      let (m, rest) := readFactor bound rest
      moreFactors bound (n.tmod m) rest
    | rest => (n, rest)

def readSum : Nat → List Char → Int × List Char
  | 0, text => (0, text)
  | bound + 1, text =>
    let (n, rest) := readProduct bound text
    moreTerms bound n rest

def moreTerms : Nat → Int → List Char → Int × List Char
  | 0, n, text => (n, text)
  | bound + 1, n, text =>
    match text.dropWhile isSpace with
    | '+' :: rest =>
      let (m, rest) := readProduct bound rest
      moreTerms bound (n + m) rest
    | '-' :: rest =>
      let (m, rest) := readProduct bound rest
      moreTerms bound (n - m) rest
    | rest => (n, rest)

end

def evaluate (text : List Char) : Int := (readSum value (4 * text.length + 4) text).1

end TypedJson.Shell.Arithmetic
