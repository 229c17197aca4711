import TypedJson.Path
import TypedJson.Text.Blank
import TypedJson.Text.DecimalDigit
import TypedJson.Text.Lines

/-! # The output of a type checker

A checker reports each finding on a line `file(line,column): error TS1234: message`, or with `warning`
in place of `error`. Lines that begin with a space continue the message before them, and other lines are
passed over. Lines and columns are counted from one in the output and from zero here.
-/

namespace TypedJson

/-- A finding of a checker, with its place in the checked file. -/
structure Finding where
  file : Option Path
  line : UInt32
  character : UInt32
  length : UInt32
  code : Option UInt32
  message : String
  deriving DecidableEq, Repr

namespace Finding

/-- Skips a text that has to stand here. -/
def skip (wanted : String) (text : List Char) : Option (List Char) :=
  if wanted.toList.isPrefixOf text then some (text.drop wanted.toList.length) else none

/-- Reads one or more decimal digits, of any script. -/
def readDigits (text : List Char) : Option (List Char × List Char) :=
  match text.takeWhile Text.isDecimalDigit with
  | [] => none
  | digits => some (digits, text.dropWhile Text.isDecimalDigit)

/-- The number that digits spell, if they are the common digits and it fits a word. -/
def wordOf? (digits : List Char) : Option UInt32 :=
  if digits.all Text.isAsciiDigit then
    let n := digits.foldl (fun n c => n * 10 + Text.digitValue c) 0
    if n < UInt32.size then some n.toUInt32 else none
  else none

/-- A number counted from one, counted from zero; a number that cannot be read counts as the first. -/
def zeroBased (digits : List Char) : UInt32 :=
  match wordOf? digits with
  | some n => if n = 0 then 0 else n - 1
  | none => 0

def readSeverity (text : List Char) : Option (List Char) :=
  (skip "error TS" text).or (skip "warning TS" text)

/-- Reads what follows the file on the line of a finding. -/
def readPlace (text : List Char) : Option (Path → Finding) := do
  let rest ← skip "(" text
  let (line, rest) ← readDigits rest
  let rest ← skip "," rest
  let (column, rest) ← readDigits rest
  let rest ← skip "): " rest
  let rest ← readSeverity rest
  let (code, rest) ← readDigits rest
  let message ← skip ": " rest
  some fun file =>
    ⟨some file, zeroBased line, zeroBased column, 1, wordOf? code, String.ofList message⟩

/-- Splits a line after the shortest file name that the rest of a finding follows. -/
def splitFile : List Char → Option (List Char × (Path → Finding))
  | [] => none
  | c :: rest =>
    match readPlace rest with
    | some finding => some ([c], finding)
    | none => (splitFile rest).map fun (file, finding) => (c :: file, finding)

/-- The finding of a line; a relative file lies in the directory in which the checker ran. -/
def ofLine? (directory : Path) (line : List Char) : Option Finding :=
  (splitFile line).map fun (file, finding) => finding (directory.join ⟨String.ofList file⟩)

/-- The finding with another line added to its message. -/
def continueWith (finding : Finding) (line : List Char) : Finding :=
  { finding with message := finding.message ++ "\n" ++ String.ofList line }

/-- The findings after one more line, the latest first. -/
def readLine (directory : Path) (findings : List Finding) (raw : List Char) : List Finding :=
  let line := Text.trimEnd raw
  match ofLine? directory line, findings with
  | some finding, _ => finding :: findings
  | none, [] => []
  | none, latest :: earlier =>
    if raw.head? = some ' ' ∧ Text.trim line ≠ [] then
      latest.continueWith (Text.trim line) :: earlier
    else findings

def ofOutput (directory : Path) (output : List Char) : List Finding :=
  ((Text.lines output).foldl (readLine directory) []).reverse

end Finding
end TypedJson
