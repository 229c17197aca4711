import TypedJson.Shell.Arithmetic
import TypedJson.Text.Utf8

/-! # Escapes and formats

A backslash in a text that is to be written stands for a control character or, with octal digits, for a
byte. A format takes arguments for its directives, and is used again while arguments are left.
-/

namespace TypedJson.Shell.Format

def isOctal (c : Char) : Bool := '0' ≤ c && c ≤ '7'

def octalByte (digits : List Char) : UInt8 :=
  (digits.foldl (fun n c => n * 8 + Text.digitValue c) 0).toUInt8

/-- The control character that a letter after a backslash stands for. -/
def control? : Char → Option UInt8
  | 'a' => some 7
  | 'b' => some 8
  | 't' => some 9
  | 'n' => some 10
  | 'v' => some 11
  | 'f' => some 12
  | 'r' => some 13
  | '\\' => some 92
  | _ => none

def characterBytes (c : Char) : List UInt8 := Text.toBytes (String.ofList [c])

/-- The bytes of what follows a backslash, and the text after it; `none` where a text is to end. Octal
digits follow a zero or stand for themselves. -/
def escape (afterZero : Bool) : List Char → Option (List UInt8 × List Char)
  | [] => some ([92], [])
  | 'c' :: _ => none
  | c :: rest =>
    match control? c with
    | some byte => some ([byte], rest)
    | none =>
      let digits :=
        if c = '0' ∧ afterZero then (rest.take 3).takeWhile isOctal
        else if afterZero then []
        else ((c :: rest).take 3).takeWhile isOctal
      if c = '0' ∧ afterZero then some ([octalByte digits], rest.drop digits.length)
      else if digits.isEmpty then some (92 :: characterBytes c, rest)
      else some ([octalByte digits], (c :: rest).drop digits.length)

/-- The bytes of a text with escapes, and whether the text goes on after it. The bound counts
characters. -/
def unescape (afterZero : Bool) : Nat → List Char → List UInt8 × Bool
  | 0, _ => ([], true)
  | _, [] => ([], true)
  | bound + 1, c :: rest =>
    if c = '\\' then
      match escape afterZero rest with
      | none => ([], false)
      | some (bytes, rest) =>
        let (others, goesOn) := unescape afterZero bound rest
        (bytes ++ others, goesOn)
    else
      let (others, goesOn) := unescape afterZero bound rest
      (characterBytes c ++ others, goesOn)

def pad (left zeros : Bool) (width : Nat) (text : List Char) : List Char :=
  let missing := width - text.length
  if left then text ++ List.replicate missing ' '
  else if zeros then
    if text.head? = some '-' then '-' :: (List.replicate missing '0' ++ text.drop 1)
    else List.replicate missing '0' ++ text
  else List.replicate missing ' ' ++ text

def convert (directive : Char) (precision : Option Nat) (argument : String) : Option (List Char) :=
  let n := Arithmetic.ofText argument.toList
  match directive with
  | 's' => some (match precision with
    | some length => argument.toList.take length
    | none => argument.toList)
  | 'c' => some (argument.toList.take 1)
  | 'd' | 'i' | 'u' => some (toString n).toList
  | 'x' => some (Nat.toDigits 16 n.toNat)
  | 'o' => some (Nat.toDigits 8 n.toNat)
  | _ => none

/-- What one use of a format writes: the bytes, the arguments that are left, whether it took any, and
whether the text goes on after it. -/
structure Pass where
  bytes : List UInt8
  arguments : List String
  took : Bool
  goesOn : Bool

def Pass.after (bytes : List UInt8) (pass : Pass) : Pass := { pass with bytes := bytes ++ pass.bytes }

/-- Uses a format once. The bound counts characters. -/
def pass : Nat → List Char → List String → Pass
  | 0, _, arguments => ⟨[], arguments, false, true⟩
  | _, [], arguments => ⟨[], arguments, false, true⟩
  | bound + 1, '\\' :: rest, arguments =>
    match escape false rest with
    | none => ⟨[], arguments, false, false⟩
    | some (bytes, rest) => (pass bound rest arguments).after bytes
  | bound + 1, '%' :: '%' :: rest, arguments => (pass bound rest arguments).after [37]
  | bound + 1, '%' :: rest, arguments =>
    let flags := rest.takeWhile fun c => c = '-' || c = '0' || c = '+' || c = ' ' || c = '#'
    let rest := rest.drop flags.length
    let width := rest.takeWhile Char.isDigit
    let rest := rest.drop width.length
    let (precision, rest) := match rest with
      | '.' :: rest =>
        (some (Arithmetic.ofDigits (rest.takeWhile Char.isDigit)).toNat, rest.dropWhile Char.isDigit)
      | rest => (none, rest)
    let argument := arguments.head?.getD ""
    match rest with
    | [] => ⟨[37], arguments, false, true⟩
    | 'b' :: rest =>
      let (bytes, goesOn) := unescape true argument.length argument.toList
      if goesOn then { (pass bound rest (arguments.drop 1)).after bytes with took := true }
      else ⟨bytes, arguments.drop 1, true, false⟩
    | directive :: rest =>
      match convert directive precision argument with
      | none => ⟨[], arguments, false, false⟩
      | some text =>
        let field := pad (flags.contains '-') (flags.contains '0') (Arithmetic.ofDigits width).toNat text
        { (pass bound rest (arguments.drop 1)).after (Text.toBytes (String.ofList field)) with took := true }
  | bound + 1, c :: rest, arguments => (pass bound rest arguments).after (characterBytes c)

/-- Uses a format as long as arguments are left that it takes. The bound counts arguments. -/
def passes (format : List Char) : Nat → List String → List UInt8
  | 0, _ => []
  | bound + 1, arguments =>
    let first := pass format.length format arguments
    if first.goesOn ∧ first.took ∧ !first.arguments.isEmpty then
      first.bytes ++ passes format bound first.arguments
    else first.bytes

def apply (format : String) (arguments : List String) : List UInt8 :=
  passes format.toList (arguments.length + 1) arguments

end TypedJson.Shell.Format
