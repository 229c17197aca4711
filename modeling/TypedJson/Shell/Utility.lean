import TypedJson.Shell.Format
import TypedJson.Shell.Machine
import TypedJson.Text.Lines

/-! # Utilities

The programs that scripts may use. A utility takes arguments and the bytes of its input.
-/

namespace TypedJson.Shell

/-- A program: it changes a machine, given arguments and an input. -/
abbrev Utility := Machine → List String → List UInt8 → Effect

namespace Utility

/-- Writes its arguments, with escapes carried out. -/
def echo (escapes : Bool) : Utility := fun machine arguments _ =>
  let (newline, arguments) := match arguments with
    | "-n" :: rest => (false, rest)
    | arguments => (true, arguments)
  let text := (" ".intercalate arguments).toList
  if escapes then
    let (bytes, goesOn) := Format.unescape true text.length text
    machine.write (if newline ∧ goesOn then bytes ++ [10] else bytes)
  else machine.write (Text.toBytes (String.ofList text) ++ if newline then [10] else [])

def printf : Utility := fun machine arguments _ =>
  match arguments with
  | "--" :: format :: rest | format :: rest => machine.write (Format.apply format rest)
  | [] => machine.complain 2 "printf: usage: printf format [arg ...]"

/-- Gives the bytes of each named file, or of the input where no file is named, to a function. -/
def onFiles (name : String) (files : List String) (input : List UInt8)
    (render : Option String → List UInt8 → List UInt8) (machine : Machine) : Effect :=
  if files.isEmpty then machine.write (render none input)
  else
    files.foldl (fun effect file =>
      if file = "-" then ⟨effect.machine, effect.written ++ [(.output, render none input)]⟩
      else match machine.tree.readBytes ⟨file⟩ with
        | .ok bytes => ⟨effect.machine, effect.written ++ [(.output, render (some file) bytes)]⟩
        | .error fault =>
          let failed := effect.machine.complain 1 (name ++ ": " ++ file ++ ": " ++ fault.reason)
          ⟨failed.machine, effect.written ++ failed.written⟩)
      (machine.finish 0)

def cat : Utility := fun machine arguments input =>
  onFiles "cat" (arguments.filter (· ≠ "-u")) input (fun _ bytes => bytes) machine

/-- The lines of a text, each with its line feed. -/
def linesOf : List UInt8 → List (List UInt8)
  | [] => []
  | byte :: rest =>
    if byte = 10 then [10] :: linesOf rest
    else match linesOf rest with
      | [] => [[byte]]
      | line :: others => (byte :: line) :: others

/-- Reads the number of lines that an option asks for, and the files after it. -/
def lineCount : List String → Nat × List String
  | "-n" :: count :: files => ((Arithmetic.ofText count.toList).toNat, files)
  | option :: files =>
    match option.toList with
    | '-' :: 'n' :: digit :: digits => ((Arithmetic.ofDigits (digit :: digits)).toNat, files)
    | '-' :: digit :: digits =>
      if digit.isDigit then ((Arithmetic.ofDigits (digit :: digits)).toNat, files) else (10, files)
    | _ => (10, option :: files)
  | [] => (10, [])

def head : Utility := fun machine arguments input =>
  let (count, files) := lineCount arguments
  onFiles "head" files input (fun _ bytes => ((linesOf bytes).take count).flatten) machine

def tail : Utility := fun machine arguments input =>
  let (count, files) := lineCount arguments
  onFiles "tail" files input
    (fun _ bytes => let lines := linesOf bytes; (lines.drop (lines.length - count)).flatten) machine

def wordCount (bytes : List UInt8) : Nat :=
  let isSpace (byte : UInt8) : Bool := byte = 32 || (9 ≤ byte && byte ≤ 13)
  (bytes.zip (32 :: bytes)).countP fun (byte, before) => !isSpace byte && isSpace before

def wc : Utility := fun machine arguments input =>
  let options := (arguments.filter (·.startsWith "-")).flatMap fun option => option.toList.drop 1
  let files := arguments.filter (!·.startsWith "-")
  let options := if options.isEmpty then ['l', 'w', 'c'] else options
  onFiles "wc" files input (fun file bytes =>
    let counts := ([('l', bytes.count 10), ('w', wordCount bytes),
      ('m', (Text.ofBytesLossy bytes).length), ('c', bytes.length)]).filterMap fun (option, n) =>
        if options.contains option then some (toString n) else none
    let width := if counts.length ≤ 1 then 1
      else if file.isSome then (toString bytes.length).length
      else 7
    let fields := counts.map fun n => String.ofList (Format.pad false false width n.toList)
    Text.toBytes (" ".intercalate (fields ++ file.toList) ++ "\n")) machine

def pwd : Utility := fun machine _ _ => machine.writeLine machine.tree.workingPath.text

def cd : Utility := fun machine arguments _ =>
  match arguments with
  | directory :: _ =>
    match machine.tree.changeDirectory ⟨directory⟩ with
    | .ok tree => { machine with tree := tree }.finish 0
    | .error _ => machine.complain 2 (machine.name ++ ": 1: cd: can't cd to " ++ directory)
  | [] => machine.finish 0

def exit : Utility := fun machine arguments _ =>
  let status := match arguments with
    | status :: _ => (Arithmetic.ofText status.toList).toNat % 256
    | [] => machine.status
  ⟨{ machine with status := status, stopped := true }, []⟩

def holds (tree : FileTree) : List String → Bool
  | [] => false
  | [text] => text ≠ ""
  | ["!", text] => text = ""
  | ["-n", text] => text ≠ ""
  | ["-z", text] => text = ""
  | ["-e", file] => tree.hasEntry ⟨file⟩
  | ["-d", file] => tree.isDirectory ⟨file⟩
  | ["-f", file] | ["-r", file] => (tree.readBytes ⟨file⟩).toOption.isSome
  | ["-s", file] => (tree.readBytes ⟨file⟩).toOption.any (!·.isEmpty)
  | "!" :: a :: b :: rest => !holds tree (a :: b :: rest)
  | [first, operator, second] =>
    let n := Arithmetic.ofText first.toList
    let m := Arithmetic.ofText second.toList
    match operator with
    | "=" | "==" => first = second
    | "!=" => first ≠ second
    | "-eq" => n = m
    | "-ne" => n ≠ m
    | "-lt" => n < m
    | "-le" => n ≤ m
    | "-gt" => m < n
    | "-ge" => m ≤ n
    | _ => false
  | _ => false

def test : Utility := fun machine arguments _ =>
  machine.finish (if holds machine.tree arguments then 0 else 1)

def bracket : Utility := fun machine arguments input => test machine arguments.dropLast input

/-- The last segment of a path, without an ending if it is longer than that. -/
def baseName (path ending : String) : String :=
  let segments := (path.toList.splitOn '/').filter (· ≠ [])
  match segments.getLast? with
  | none => if path = "" then "" else "/"
  | some name =>
    let text := String.ofList name
    if text ≠ ending ∧ text.endsWith ending then String.ofList (name.take (name.length - ending.length))
    else text

def basename : Utility := fun machine arguments _ =>
  match arguments with
  | path :: rest => machine.writeLine (baseName path (rest.head?.getD ""))
  | [] => machine.complain 1 "basename: missing operand"

/-- The text of a path before its last segment. -/
def directoryName (path : String) : String :=
  let trim (text : List Char) : List Char := (text.reverse.dropWhile (· = '/')).reverse
  let before := ((trim path.toList).reverse.dropWhile (· ≠ '/')).reverse
  if path ≠ "" ∧ trim path.toList = [] then "/"
  else if before = [] then "."
  else if trim before = [] then "/"
  else String.ofList (trim before)

def dirname : Utility := fun machine arguments _ =>
  match arguments with
  | path :: _ => machine.writeLine (directoryName path)
  | [] => machine.complain 1 "dirname: missing operand"

def rm : Utility := fun machine arguments _ =>
  let force := arguments.any fun argument => argument.startsWith "-" && argument.toList.contains 'f'
  (arguments.filter (!·.startsWith "-")).foldl (fun effect file =>
    match effect.machine.tree.remove ⟨file⟩ with
    | .ok tree => ⟨{ effect.machine with tree := tree }, effect.written⟩
    | .error fault =>
      if force ∧ fault = .notFound then effect
      else
        let failed := effect.machine.complain 1
          ("rm: cannot remove '" ++ file ++ "': " ++ fault.reason)
        ⟨failed.machine, effect.written ++ failed.written⟩)
    (machine.finish 0)

def touch : Utility := fun machine arguments _ =>
  arguments.foldl (fun effect file =>
    if effect.machine.tree.hasEntry ⟨file⟩ then effect
    else match effect.machine.tree.write ⟨file⟩ [] with
      | .ok tree => ⟨{ effect.machine with tree := tree }, effect.written⟩
      | .error fault =>
        let failed := effect.machine.complain 1
          ("touch: cannot touch '" ++ file ++ "': " ++ fault.reason)
        ⟨failed.machine, effect.written ++ failed.written⟩)
    (machine.finish 0)

def ls : Utility := fun machine arguments _ =>
  let operands := arguments.filter (!·.startsWith "-")
  (if operands.isEmpty then ["."] else operands).foldl (fun effect operand =>
    let lines (names : List String) : Effect :=
      ⟨effect.machine, effect.written ++ [(.output, Text.toBytes (String.join (names.map (· ++ "\n"))))]⟩
    match machine.tree.entryAt true ⟨operand⟩ with
    | .ok (name, .directory) => lines ((machine.tree.children name).filter (!·.startsWith "."))
    | .ok _ => lines [operand]
    | .error fault =>
      let failed := effect.machine.complain 2 ("ls: cannot access '" ++ operand ++ "': " ++ fault.reason)
      ⟨failed.machine, effect.written ++ failed.written⟩)
    (machine.finish 0)

def shift : Utility := fun machine arguments _ =>
  let count := match arguments with
    | count :: _ => (Arithmetic.ofText count.toList).toNat
    | [] => 1
  { machine with arguments := machine.arguments.drop count }.finish 0

/-- Sets variables for programs; for scripts it sets them as an assignment does. -/
def exportVariables : Utility := fun machine arguments _ =>
  (arguments.foldl (fun machine argument =>
    match argument.splitOn "=" with
    | name :: value :: rest => machine.assign name ("=".intercalate (value :: rest))
    | _ => machine) machine).finish 0

/-- Replaces the arguments by those after two hyphens. Other options make no difference. -/
def setArguments : Utility := fun machine arguments _ =>
  match arguments with
  | "--" :: rest => { machine with arguments := rest }.finish 0
  | _ => machine.finish 0

def unset : Utility := fun machine arguments _ =>
  { machine with bindings := machine.bindings.filter (!arguments.contains ·.1) }.finish 0

/-- The utilities under their names, without those that only change the shell itself. -/
def programs : List (String × Utility) :=
  [("true", fun machine _ _ => machine.finish 0), ("false", fun machine _ _ => machine.finish 1),
    ("echo", echo false), ("printf", printf), ("cat", cat), ("head", head), ("tail", tail), ("wc", wc),
    ("pwd", pwd), ("test", test), ("[", bracket), ("basename", basename), ("dirname", dirname),
    ("sleep", fun machine _ _ => machine.finish 0), ("rm", rm), ("touch", touch), ("ls", ls)]

/-- What the shell does itself. -/
def builtins : List (String × Utility) :=
  [(":", fun machine _ _ => machine.finish 0), ("echo", echo true), ("cd", cd), ("exit", exit),
    ("shift", shift), ("export", exportVariables), ("unset", unset),
    ("set", setArguments)]

def program? (name : String) : Option Utility := (programs.find? (·.1 = name)).map (·.2)

/-- What a name stands for in a script. -/
def command? (name : String) : Option Utility :=
  ((builtins.find? (·.1 = name)).map (·.2)).or (program? name)

end Utility
end TypedJson.Shell
