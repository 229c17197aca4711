import TypedJson.CommandLine.Execution

/-! # The program

Reads the files below the working directory, carries out the invocation on them, prints its lines, and
puts the changes of the files back.
-/

namespace TypedJson.Main

def nameOf (path : String) : FileName := path.splitOn "/" |>.filter (· ≠ "")

/-- The entries below a directory. A link counts as what it leads to, and what cannot be read is left
out. The depth limits the way through links. -/
def snapshot : Nat → String → IO (List (FileName × Entry))
  | 0, _ => return []
  | depth + 1, directory => do
    let real ← IO.FS.realPath directory
    let mut entries := []
    for child in ← real.readDir do
      let path := child.path.toString
      if ← child.path.isDir then
        entries := entries ++ [(nameOf path, Entry.directory)] ++ (← snapshot depth path)
      else
        try
          let content ← IO.FS.readBinFile child.path
          entries := entries ++ [(nameOf path, .file content.toList)]
        catch _ => pure ()
    return entries

/-- Writes the files of a tree that differ from those of an earlier one, and removes those it has no
more. -/
def putBack (before after : FileTree) : IO Unit := do
  for (name, entry) in after.entries do
    if before.lookup? name ≠ some entry then
      match entry with
      | .file content => IO.FS.writeBinFile (FileTree.pathOf name).text (ByteArray.mk content.toArray)
      | .directory => IO.FS.createDirAll (FileTree.pathOf name).text
      | .link _ => pure ()
  for (name, _) in before.entries do
    if (after.lookup? name).isNone then
      IO.FS.removeFile (FileTree.pathOf name).text

def maxDepth : Nat := 64

def carryOut (invocation : CommandLine.Invocation) : IO UInt32 := do
  let directory := (← IO.FS.realPath ".").toString
  let name := nameOf directory
  let above : FileTree := FileTree.insertParents ⟨name, []⟩ (name ++ [""])
  let tree : FileTree := { above with entries := above.entries ++ (← snapshot maxDepth directory) }
  let execution := CommandLine.execute (← (← IO.getStdout).isTty) tree invocation
  putBack tree execution.tree
  IO.print execution.output
  IO.eprint execution.complaints
  match execution.result with
  | .ok clean => return (CommandLine.Execution.statusOf clean).toUInt32
  | .error failure =>
    IO.eprintln ("Error: " ++ ": ".intercalate failure.messages)
    return 1

def usage : String :=
  "usage: typed-json tag|artifact|check [--config FILE] -i INPUT...\n" ++
  "       check also takes [--mode checker|matcher] [--report-unsupported]"

end TypedJson.Main

def main (arguments : List String) : IO UInt32 := do
  match TypedJson.CommandLine.Invocation.ofArguments arguments with
  | .ok invocation => TypedJson.Main.carryOut invocation
  | .error fault =>
    if fault = .helpRequested then IO.println TypedJson.Main.usage
    else IO.eprintln TypedJson.Main.usage
    return fault.status.toUInt32
