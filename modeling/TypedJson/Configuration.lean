import TypedJson.Artifact
import TypedJson.Conformance
import TypedJson.Json.Expect

/-! # Configuration

Every field of a configuration has a default, and a configuration file may replace any of them. Names
that are no fields, and fields that come twice, are refused.
-/

namespace TypedJson

/-- How tagged documents are validated: by an external checker, or by comparing structure. -/
inductive Mode where
  | checker
  | matcher
  deriving DecidableEq, Repr

/-- The command that checks artifacts; the artifacts are added to its arguments. -/
structure CheckerCommand where
  program : String
  arguments : List String
  deriving DecidableEq, Repr

def CheckerCommand.default : CheckerCommand :=
  ⟨"tsc", ["--noEmit", "--pretty", "false", "--allowImportingTsExtensions", "--strict"]⟩

/-- How long to wait for an artifact to be indexed, and how often to look, in milliseconds. -/
structure IndexWait where
  timeout : Nat
  interval : Nat
  deriving DecidableEq, Repr

structure Configuration where
  artifactFileName : String
  mode : Mode
  indexTimeout : Nat
  indexInterval : Nat
  ignoredCodes : List UInt32
  unsupportedTypes : UnsupportedPolicy
  checker : CheckerCommand
  deriving DecidableEq, Repr

namespace Configuration

/-- The settings without a configuration file. -/
def default : Configuration where
  artifactFileName := Artifact.defaultFileName
  mode := .checker
  indexTimeout := 2000
  indexInterval := 500
  ignoredCodes := [5097]
  unsupportedTypes := .permit
  checker := .default

/-- The waiting time for the index; the artifact is looked at no more than once in a millisecond. -/
def indexWait (configuration : Configuration) : IndexWait :=
  ⟨configuration.indexTimeout, max configuration.indexInterval 1⟩

def modes : List (String × Mode) := [("checker", .checker), ("matcher", .matcher)]

def policies : List (String × UnsupportedPolicy) := [("permit", .permit), ("report", .report)]

def expectMilliseconds : Node → Reads Nat := Node.expectNatural UInt64.size "u64"

def expectCode (node : Node) : Reads UInt32 := (node.expectNatural UInt32.size "u32").map Nat.toUInt32

def checkerFields : List (FieldReader CheckerCommand) :=
  [⟨"program", fun command node => return { command with program := ← node.expectString }⟩,
    ⟨"args", fun command node =>
      return { command with arguments := ← node.expectList Node.expectString }⟩]

def expectChecker : Node → Reads CheckerCommand :=
  Node.expectRecord "struct CheckerConfig" checkerFields .default

def fields : List (FieldReader Configuration) :=
  [⟨"artifact_file_name", fun c node => return { c with artifactFileName := ← node.expectString }⟩,
    ⟨"mode", fun c node => return { c with mode := ← node.expectVariant modes }⟩,
    ⟨"index_timeout_ms", fun c node => return { c with indexTimeout := ← expectMilliseconds node }⟩,
    ⟨"index_poll_interval_ms", fun c node => return { c with indexInterval := ← expectMilliseconds node }⟩,
    ⟨"ignored_codes", fun c node => return { c with ignoredCodes := ← node.expectList expectCode }⟩,
    ⟨"unsupported_types", fun c node =>
      return { c with unsupportedTypes := ← node.expectVariant policies }⟩,
    ⟨"checker", fun c node => return { c with checker := ← expectChecker node }⟩]

def ofNode : Node → Reads Configuration := Node.expectRecord "struct Config" fields .default

/-- Reads a configuration from the first value of a text. -/
def ofText (text : List Char) : Reads Configuration := ofNode (Node.ofText text).1

end Configuration
end TypedJson
