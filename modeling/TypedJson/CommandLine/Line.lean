/-! # Printed lines

Lines are printed to the output or to the error stream. On a terminal with colours some of their words
stand out.
-/

namespace TypedJson.CommandLine

inductive Emphasis where
  | name
  | caution
  | success
  | error
  deriving DecidableEq, Repr

/-- The parameters of the control sequence that begins an emphasis. -/
def Emphasis.codes : Emphasis → String
  | .name => "1"
  | .caution => "33"
  | .success => "32"
  | .error => "1;31"

def Emphasis.on (emphasis : Emphasis) (colours : Bool) (text : String) : String :=
  if colours then "\x1b[" ++ emphasis.codes ++ "m" ++ text ++ "\x1b[0m" else text

/-- A line of output, or a line on the error stream. -/
inductive Line where
  | output (text : String)
  | complaint (text : String)
  deriving DecidableEq, Repr

def Line.output? : Line → Option String
  | .output text => some text
  | .complaint _ => none

def Line.complaint? : Line → Option String
  | .output _ => none
  | .complaint text => some text

def printed (texts : List String) : String := String.join (texts.map (· ++ "\n"))

end TypedJson.CommandLine
