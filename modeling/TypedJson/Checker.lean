import TypedJson.CheckerOutput
import TypedJson.Configuration
import TypedJson.Error
import TypedJson.Shell.Run

/-! # Running a checker

A checker runs in the directory of the first file that it is to check, with the files added to its
arguments. What it reports stands in its output, so its status says nothing.
-/

namespace TypedJson.CheckerCommand

variable (command : CheckerCommand) (tree : FileTree)

/-- Starts a program by its name or its path. Files in the tree are not programs. -/
def launch? (program : String) (arguments : List String) : Except String Shell.Effect :=
  if (program :: arguments).any (·.toList.contains '\x00') then
    .error "nul byte found in provided data"
  else if program.toList.contains '/' ∧ (Shell.programName? program).isNone then
    match tree.entryAt true ⟨program⟩ with
    | .ok _ => .error SystemFault.denied.message
    | .error fault => .error fault.message
  else match Shell.launch tree ((Shell.programName? program).getD program) arguments with
    | some effect => .ok effect
    | none => .error SystemFault.notFound.message

def absoluteRoots (roots : List Path) : List Path :=
  roots.map fun root => (root.absolute? tree.workingPath).getD root

def directoryFor (roots : List Path) : Path :=
  match (roots.head?.bind Path.parent?).filter (·.text ≠ "") with
  | some directory => directory
  | none => ⟨"."⟩

/-- Runs a checker, with the files as it leaves them. -/
def check (roots : List Path) : FileTree × Except Error (List Finding) :=
  let roots := absoluteRoots tree roots
  let directory := directoryFor roots
  let started := do
    let inside ← (tree.changeDirectory directory).mapError SystemFault.message
    launch? inside command.program (command.arguments ++ roots.map Path.text)
  match started with
  | .error reason =>
    (tree, .error (.checkerFailed ("failed to run " ++ ticked command.program ++ ": " ++ reason)))
  | .ok effect =>
    let output := Text.ofBytesLossy (effect.written.on .output) ++
      Text.ofBytesLossy (effect.written.on .failure)
    ({ effect.machine.tree with workingDirectory := tree.workingDirectory },
      .ok (Finding.ofOutput directory output))

end TypedJson.CheckerCommand
