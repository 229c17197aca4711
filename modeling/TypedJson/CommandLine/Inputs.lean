import TypedJson.CommandLine.Arguments
import TypedJson.Glob.Expansion
import TypedJson.Error

/-! # Inputs

An input with a wildcard is a pattern for paths, which has to match something, and any other input is a
path. The inputs of an invocation are all read before anything is done with them.
-/

namespace TypedJson.CommandLine

/-- Why an invocation ends before its task is done. -/
inductive Failure where
  | invalidPattern (pattern : String) (fault : Glob.PatternFault)
  | noMatch (pattern : String)
  | unreadableDocument (path : Path) (fault : SystemFault)
  | unreadableConfiguration (path : Path) (fault : SystemFault)
  | invalidConfiguration (path : Path) (fault : ReadError)

def Failure.messages : Failure → List String
  | .invalidPattern pattern fault => ["invalid glob pattern: " ++ pattern, fault.message]
  | .noMatch pattern => ["glob pattern matched no files: " ++ pattern]
  | .unreadableDocument path fault => ["failed to read source file " ++ path.text, fault.message]
  | .unreadableConfiguration path fault => ["loading " ++ path.text, fault.message]
  | .invalidConfiguration path fault =>
    ["loading " ++ path.text, (Error.invalidConfiguration path fault.message).message]

namespace Input

/-- An input is a pattern if it has one of these characters. -/
def isPattern (input : String) : Bool := input.toList.any ['*', '?', '[', '\x7b'].contains

/-- The paths of an input, where `expand` lists the paths that match a pattern. -/
def paths (expand : String → Except Glob.PatternFault (List Path)) (input : String) :
    Except Failure (List Path) :=
  if isPattern input then
    match expand input with
    | .error fault => .error (.invalidPattern input fault)
    | .ok [] => .error (.noMatch input)
    | .ok found => .ok found
  else .ok [⟨input⟩]

def allPaths (expand : String → Except Glob.PatternFault (List Path)) (inputs : List String) :
    Except Failure (List Path) := do
  return (← inputs.mapM (paths expand)).flatten

end Input

/-- Reads a document; its identity is its absolute path. -/
def readDocument (tree : FileTree) (path : Path) : Except Failure Document :=
  match tree.readText path with
  | .error fault => .error (.unreadableDocument path fault)
  | .ok text => .ok ⟨(path.absolute? tree.workingPath).getD path, "json", text⟩

namespace Invocation

def documents (invocation : Invocation) (tree : FileTree) : Except Failure (List Document) := do
  (← Input.allPaths (Glob.expand tree) invocation.inputs).mapM (readDocument tree)

def settings (invocation : Invocation) (tree : FileTree) : Except Failure Configuration :=
  match invocation.configuration with
  | none => .ok .default
  | some path =>
    match tree.readText path with
    | .error fault => .error (.unreadableConfiguration path fault)
    | .ok text => (Configuration.ofText text.toList).mapError (.invalidConfiguration path)

end Invocation
end TypedJson.CommandLine
