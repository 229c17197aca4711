import TypedJson.Shell.Expansion
import TypedJson.Shell.Script
import TypedJson.Shell.Utility

/-! # Running scripts

A command reads an input, changes the machine and writes to streams. Redirections send what is written
to files or to the other stream, and a subshell keeps its changes of the machine to itself, except for
the files.
-/

namespace TypedJson.Shell

inductive Sink where
  | stream (stream : Stream)
  | file (path : Path)
  | nowhere
  deriving DecidableEq

structure Connections where
  input : List UInt8
  output : Sink
  failure : Sink

namespace Connections

/-- A command that nothing is redirected for. -/
def plain (input : List UInt8) : Connections := ⟨input, .stream .output, .stream .failure⟩

def sink (connections : Connections) : Stream → Sink
  | .output => connections.output
  | .failure => connections.failure

def connect (connections : Connections) (descriptor : Nat) (sink : Sink) : Connections :=
  if descriptor = 2 then { connections with failure := sink } else { connections with output := sink }

end Connections

/-- The file that takes everything and holds nothing. -/
def nullFile : String := "/dev/null"

def applyRedirection (evaluate : Evaluate) (machine : Machine) (connections : Connections) :
    Redirection → Except Effect (Machine × Connections)
  | .input source => do
    let (machine, source) := expandWord evaluate machine source
    if source = nullFile then return (machine, { connections with input := [] })
    match machine.tree.readBytes ⟨source⟩ with
    | .ok bytes => return (machine, { connections with input := bytes })
    | .error _ =>
      throw (machine.complain 2 (machine.name ++ ": 1: cannot open " ++ source ++ ": No such file"))
  | .output descriptor target append => do
    let (machine, target) := expandWord evaluate machine target
    if target = nullFile then return (machine, connections.connect descriptor .nowhere)
    let content := if append then (machine.tree.readBytes ⟨target⟩).toOption.getD [] else []
    match machine.tree.write ⟨target⟩ content with
    | .ok tree => return ({ machine with tree := tree }, connections.connect descriptor (.file ⟨target⟩))
    | .error _ =>
      throw (machine.complain 2
        (machine.name ++ ": 1: cannot create " ++ target ++ ": Directory nonexistent"))
  | .duplicate descriptor target => do
    let (machine, target) := expandWord evaluate machine target
    let sink := if target = "1" then connections.output else if target = "2" then connections.failure
      else .nowhere
    return (machine, connections.connect descriptor sink)

/-- Sends what a command has written where its streams go. -/
def deliver (connections : Connections) (effect : Effect) : Effect :=
  effect.written.foldl (fun sent (stream, bytes) =>
    match connections.sink stream with
    | .stream stream => ⟨sent.machine, sent.written ++ [(stream, bytes)]⟩
    | .nowhere => sent
    | .file path =>
      let content := (sent.machine.tree.readBytes path).toOption.getD [] ++ bytes
      match sent.machine.tree.write path content with
      | .ok tree => ⟨{ sent.machine with tree := tree }, sent.written⟩
      | .error _ => sent) ⟨effect.machine, []⟩

/-- The machine after a subshell: only the files and the status have changed. -/
def Machine.afterSubshell (machine inner : Machine) : Machine :=
  { machine with
    tree := { inner.tree with workingDirectory := machine.tree.workingDirectory }, status := inner.status }

def dropFinalLineFeeds (text : List Char) : List Char :=
  (text.reverse.dropWhile (· = '\n')).reverse

def programDirectories : List String := ["/bin/", "/usr/bin/"]

/-- The name of the program to which a path leads. -/
def programName? (path : String) : Option String :=
  programDirectories.findSome? fun directory =>
    if directory.toList.isPrefixOf path.toList then
      some (String.ofList (path.toList.drop directory.length))
    else none

mutual

/-- Runs a command. The bound counts steps. -/
def run : Nat → Command → List UInt8 → Machine → Effect
  | 0, _, _, machine => machine.finish 1
  | bound + 1, command, input, machine =>
    /- What a command in a word writes, without its last line ends. -/
    let evaluate : Evaluate := fun script machine =>
      match Script.ofText? script with
      | none => ({ machine with status := 2 }, [])
      | some inner =>
        let effect := run bound inner [] machine
        (machine.afterSubshell effect.machine,
          dropFinalLineFeeds (Text.ofBytesLossy (effect.written.on .output)))
    /- Runs another command after an effect. -/
    let andThen (effect : Effect) (next : Command) : Effect :=
      let second := run bound next input effect.machine
      ⟨second.machine, effect.written ++ second.written⟩
    if machine.stopped then ⟨machine, []⟩
    else match command with
      | .nothing => ⟨machine, []⟩
      | .simple assignments words =>
        let (machine, texts) := expandWords evaluate machine words
        let assigned := assignments.foldl (fun machine (name, word) =>
          let (machine, value) := expandWord evaluate machine word
          machine.assign name value) machine
        match texts with
        | [] =>
          let ranScript := (words ++ assignments.map (·.2)).any (·.any Fragment.isOutput)
          assigned.finish (if ranScript then assigned.status else 0)
        | name :: arguments =>
          let effect := call bound name arguments input assigned
          if assignments.isEmpty then effect
          else ⟨{ effect.machine with bindings := machine.bindings }, effect.written⟩
      | .redirected command redirections =>
        let prepared := redirections.foldlM (fun (machine, connections) redirection =>
          applyRedirection evaluate machine connections redirection) (machine, Connections.plain input)
        match prepared with
        | .error effect => effect
        | .ok (machine, connections) => deliver connections (run bound command connections.input machine)
      | .sequence first second => andThen (run bound first input machine) second
      | .conjunction first second =>
        let effect := run bound first input machine
        if effect.machine.status = 0 then andThen effect second else effect
      | .disjunction first second =>
        let effect := run bound first input machine
        if effect.machine.status = 0 then effect else andThen effect second
      | .negation command =>
        let effect := run bound command input machine
        ⟨{ effect.machine with status := if effect.machine.status = 0 then 1 else 0 }, effect.written⟩
      | .pipe first second =>
        let effect := run bound first input machine
        let second := run bound second (effect.written.on .output) (machine.afterSubshell effect.machine)
        ⟨machine.afterSubshell second.machine,
          effect.written.filter (·.1 = .failure) ++ second.written⟩
      | .subshell command =>
        let effect := run bound command input machine
        ⟨machine.afterSubshell effect.machine, effect.written⟩
      | .choice condition yes no =>
        let effect := run bound condition input machine
        if effect.machine.stopped then effect
        else if effect.machine.status = 0 then andThen effect yes
        else andThen ⟨{ effect.machine with status := 0 }, effect.written⟩ no
      | .loop name words body =>
        let (machine, values) := expandWords evaluate machine words
        values.foldl (fun effect value =>
          andThen ⟨effect.machine.assign name value, effect.written⟩ body) (machine.finish 0)
      | .repetition condition body =>
        let effect := run bound condition input machine
        if effect.machine.stopped then effect
        else if effect.machine.status = 0 then
          andThen (andThen effect body) (.repetition condition body)
        else ⟨{ effect.machine with status := 0 }, effect.written⟩

def call : Nat → String → List String → List UInt8 → Machine → Effect
  | 0, _, _, _, machine => machine.finish 1
  | bound + 1, name, arguments, input, machine =>
    match name with
    | "sh" =>
      let effect := interpret bound arguments input machine
      ⟨machine.afterSubshell effect.machine, effect.written⟩
    | "command" =>
      match arguments with
      | name :: arguments => call bound name arguments input machine
      | [] => machine.finish 0
    | "exec" =>
      match arguments with
      | name :: arguments =>
        let effect := call bound name arguments input machine
        ⟨{ effect.machine with stopped := true }, effect.written⟩
      | [] => machine.finish 0
    | "eval" => interpretText bound (" ".intercalate arguments).toList input machine
    | _ =>
      match Utility.command? name, programName? name with
      | some utility, _ => utility machine arguments input
      | none, some program =>
        match Utility.program? program with
        | some utility => utility machine arguments input
        | none => call bound program arguments input machine
      | none, none =>
        let failed (status : Nat) (reason : String) : Effect :=
          machine.complain status (machine.name ++ ": 1: " ++ name ++ ": " ++ reason)
        if name.toList.contains '/' then
          match machine.tree.entryAt true ⟨name⟩ with
          | .ok _ => failed 126 "Permission denied"
          | .error _ => failed 127 "not found"
        else failed 127 "not found"

def interpretText : Nat → List Char → List UInt8 → Machine → Effect
  | 0, _, _, machine => machine.finish 1
  | bound + 1, text, input, machine =>
    match Script.ofText? text with
    | some command => run bound command input machine
    | none => machine.complain 2 (machine.name ++ ": 1: Syntax error")

/-- Runs a script that is given as an argument, in a file, or as the input. -/
def interpret : Nat → List String → List UInt8 → Machine → Effect
  | 0, _, _, machine => machine.finish 1
  | bound + 1, arguments, input, machine =>
    match arguments with
    | [] => interpretText bound (Text.ofBytesLossy input) [] (.start machine.tree "sh" [])
    | first :: rest =>
      if first.startsWith "-" ∧ first.toList.contains 'c' then
        match rest with
        | [] => machine.complain 2 "sh: 0: -c requires an argument"
        | script :: rest =>
          interpretText bound script.toList input
            (.start machine.tree (rest.head?.getD "sh") (rest.drop 1))
      else if first.startsWith "-" then interpret bound rest input machine
      else match machine.tree.readBytes ⟨first⟩ with
        | .ok bytes =>
          interpretText bound (Text.ofBytesLossy bytes) input (.start machine.tree first rest)
        | .error _ => machine.complain 2 ("sh: 0: cannot open " ++ first ++ ": No such file")

end

def stepLimit : Nat := 20000

/-- Runs a program that is called by its name, without a shell around it. -/
def launch (tree : FileTree) (name : String) (arguments : List String) : Option Effect :=
  let machine := Machine.start tree name arguments
  if name = "sh" then some (interpret stepLimit arguments [] machine)
  else (Utility.program? name).map fun utility => utility machine arguments []

end TypedJson.Shell
