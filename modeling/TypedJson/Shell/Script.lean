import TypedJson.Shell.Token

/-! # The grammar of scripts

Commands follow one another on lines or after semicolons; they are joined by operators, and words at the
place of a command's name may begin a loop or a choice. A script that does not follow the grammar has no
command.
-/

namespace TypedJson.Shell.Script

/-- The word at the place of a command's name that is written without quotes. -/
def keyword? : List Token → Option String
  | .word word :: _ => word.plain?.map String.ofList
  | _ => none

def closers : List String := ["then", "else", "elif", "fi", "do", "done", "\x7d"]

def isClosed (tokens : List Token) : Bool :=
  match tokens with
  | [] => true
  | .operator ")" :: _ => true
  | _ => (keyword? tokens).any closers.contains

def isSeparator : Token → Bool
  | .newline => true
  | .operator text => text = ";"
  | _ => false

/-- Skips a keyword that has to stand here. -/
def expect (wanted : String) (tokens : List Token) : Option (List Token) :=
  if keyword? tokens = some wanted then some (tokens.drop 1) else none

/-- The redirection that an operator and the word after it stand for. -/
def redirectionOf (descriptor : Nat) (operator : String) (target : Word) : Redirection :=
  match operator with
  | "<" => .input target
  | ">>" => .output descriptor target true
  | ">&" => .duplicate descriptor target
  | _ => .output descriptor target false

def readSimple : List Token → List Word × List Redirection × List Token
  | .word word :: rest =>
    let (words, redirections, rest) := readSimple rest
    (word :: words, redirections, rest)
  | .redirection descriptor operator :: .word target :: rest =>
    let (words, redirections, rest) := readSimple rest
    (words, redirectionOf descriptor operator target :: redirections, rest)
  | rest => ([], [], rest)

/-- The variable and value of a word that assigns. -/
def assignment? (word : Word) : Option (String × Word) :=
  let text := word.takeWhile fun fragment => match fragment with
    | .text _ false => true
    | _ => false
  let characters := text.flatMap fun fragment => match fragment with
    | .text content _ => content
    | _ => []
  let name := characters.takeWhile Token.isNamePart
  if name.head?.any Token.startsName ∧ (characters.drop name.length).head? = some '=' then
    some (String.ofList name,
      .text (characters.drop (name.length + 1)) false :: word.drop text.length)
  else none

def splitAssignments : List Word → List (String × Word) × List Word
  | [] => ([], [])
  | word :: rest =>
    match assignment? word with
    | some assignment =>
      let (assignments, words) := splitAssignments rest
      (assignment :: assignments, words)
    | none => ([], word :: rest)

def redirect (command : Command) (redirections : List Redirection) : Command :=
  if redirections.isEmpty then command else .redirected command redirections

mutual

def readList : Nat → List Token → Option (Command × List Token)
  | 0, _ => none
  | bound + 1, tokens => do
    let tokens := tokens.dropWhile isSeparator
    if isClosed tokens then return (.nothing, tokens)
    let (first, tokens) ← readPipeline bound tokens
    let (first, tokens) ← readChain bound first tokens
    match tokens with
    | token :: rest =>
      if isSeparator token then
        let (others, tokens) ← readList bound rest
        return (.sequence first others, tokens)
      else if isClosed tokens then return (first, tokens)
      else none
    | [] => return (first, [])

/-- Reads what is joined to a command by operators. -/
def readChain : Nat → Command → List Token → Option (Command × List Token)
  | 0, _, _ => none
  | bound + 1, first, tokens =>
    match tokens with
    | .operator "&&" :: rest => do
      let (second, rest) ← readPipeline bound (rest.dropWhile (· = .newline))
      readChain bound (.conjunction first second) rest
    | .operator "||" :: rest => do
      let (second, rest) ← readPipeline bound (rest.dropWhile (· = .newline))
      readChain bound (.disjunction first second) rest
    | _ => some (first, tokens)

/-- Reads commands of which each reads the output of the one before it. -/
def readPipeline : Nat → List Token → Option (Command × List Token)
  | 0, _ => none
  | bound + 1, tokens =>
    if keyword? tokens = some "!" then do
      let (command, rest) ← readPipeline bound (tokens.drop 1)
      return (.negation command, rest)
    else do
      let (first, rest) ← readCommand bound tokens
      match rest with
      | .operator "|" :: rest =>
        let (second, rest) ← readPipeline bound (rest.dropWhile (· = .newline))
        return (.pipe first second, rest)
      | _ => return (first, rest)

def readCommand : Nat → List Token → Option (Command × List Token)
  | 0, _ => none
  | bound + 1, tokens => do
    let redirected (command : Command) (rest : List Token) : Option (Command × List Token) :=
      let (words, redirections, rest) := readSimple rest
      if words.isEmpty then some (redirect command redirections, rest) else none
    match keyword? tokens, tokens with
    | some "if", _ :: rest =>
      let (command, rest) ← readChoice bound rest
      redirected command rest
    | some "for", _ :: .word name :: rest =>
      let (words, rest) := match keyword? rest with
        | some "in" =>
          let (words, _, rest) := readSimple (rest.drop 1)
          (words, rest)
        | _ => ([[.parameter "@" .keep true]], rest)
      let rest ← expect "do" (rest.dropWhile isSeparator)
      let (body, rest) ← readList bound rest
      redirected (.loop (String.ofList (← name.plain?)) words body) (← expect "done" rest)
    | some "while", _ :: rest =>
      let (condition, rest) ← readList bound rest
      let (body, rest) ← readList bound (← expect "do" rest)
      redirected (.repetition condition body) (← expect "done" rest)
    | some "\x7b", _ :: rest =>
      let (command, rest) ← readList bound rest
      redirected command (← expect "\x7d" rest)
    | _, .operator "(" :: rest =>
      let (command, rest) ← readList bound rest
      match rest with
      | .operator ")" :: rest => redirected (.subshell command) rest
      | _ => none
    | _, tokens =>
      let (words, redirections, rest) := readSimple tokens
      if words.isEmpty ∧ redirections.isEmpty then none
      else
        let (assignments, words) := splitAssignments words
        return (redirect (.simple assignments words) redirections, rest)

/-- Reads a choice after its first keyword. -/
def readChoice : Nat → List Token → Option (Command × List Token)
  | 0, _ => none
  | bound + 1, tokens => do
    let (condition, rest) ← readList bound tokens
    let (yes, rest) ← readList bound (← expect "then" rest)
    match keyword? rest with
    | some "elif" =>
      let (no, rest) ← readChoice bound (rest.drop 1)
      return (.choice condition yes no, rest)
    | some "else" =>
      let (no, rest) ← readList bound (rest.drop 1)
      return (.choice condition yes no, ← expect "fi" rest)
    | _ => return (.choice condition yes .nothing, ← expect "fi" rest)

end

/-- The command of a script, if it follows the grammar. No rule takes more than four steps for a token. -/
def ofText? (text : List Char) : Option Command :=
  let tokens := Token.ofScript text
  match readList (6 * tokens.length + 6) tokens with
  | some (command, []) => some command
  | _ => none

end TypedJson.Shell.Script
