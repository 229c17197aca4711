import TypedJson.FileTree.Access

/-! # Machines that run scripts

A machine holds what a script can change: the files, its variables and arguments, and the status of the
last command. A command changes the machine and writes to two streams.
-/

namespace TypedJson.Shell

inductive Stream where
  | output
  | failure
  deriving DecidableEq, Repr

abbrev Written := List (Stream × List UInt8)

def Written.on (written : Written) (stream : Stream) : List UInt8 :=
  (written.filter (·.1 = stream)).flatMap (·.2)

/-- What a script can change. A machine that has stopped runs no further command. -/
structure Machine where
  tree : FileTree
  bindings : List (String × String)
  name : String
  arguments : List String
  status : Nat
  stopped : Bool

structure Effect where
  machine : Machine
  written : Written

namespace Machine

def start (tree : FileTree) (name : String) (arguments : List String) : Machine :=
  ⟨tree, [], name, arguments, 0, false⟩

/-- A command ends with a status and has written nothing. -/
def finish (machine : Machine) (status : Nat) : Effect := ⟨{ machine with status := status }, []⟩

/-- A command succeeds and has written some output. -/
def write (machine : Machine) (output : List UInt8) : Effect :=
  ⟨{ machine with status := 0 }, [(.output, output)]⟩

def writeLine (machine : Machine) (line : String) : Effect := machine.write (Text.toBytes (line ++ "\n"))

/-- A command fails with a status and has written why. -/
def complain (machine : Machine) (status : Nat) (message : String) : Effect :=
  ⟨{ machine with status := status }, [(.failure, Text.toBytes (message ++ "\n"))]⟩

def assign (machine : Machine) (name value : String) : Machine :=
  { machine with bindings := (name, value) :: machine.bindings.filter (·.1 ≠ name) }

def parameter (machine : Machine) (name : String) : String :=
  match name with
  | "0" => machine.name
  | "#" => toString machine.arguments.length
  | "?" => toString machine.status
  | "@" | "*" => " ".intercalate machine.arguments
  | _ =>
    match name.toNat? with
    | some n => (machine.arguments[n - 1]?).getD ""
    | none =>
      match machine.bindings.find? (·.1 = name) with
      | some (_, value) => value
      | none => if name = "PWD" then machine.tree.workingPath.text else ""

end Machine
end TypedJson.Shell
