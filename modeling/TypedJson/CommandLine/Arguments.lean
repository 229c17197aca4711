import TypedJson.Configuration

/-! # Command-line arguments

An invocation names a task and its inputs. Options may stand in any order after the task. An option that
takes values is open until an option follows or it has all its values, and only then are its values
looked at; so of two faults the one in the option that is closed first is reported, but an option that
nobody knows comes before all of them.
-/

namespace TypedJson.CommandLine

inductive Task where
  | showTags
  | showArtifacts
  | check (mode : Mode) (reportUnsupported : Bool)
  deriving DecidableEq, Repr

/-- A task with its inputs, which are paths or patterns for paths. -/
structure Invocation where
  verbose : Bool
  task : Task
  configuration : Option Path
  inputs : List String
  deriving DecidableEq, Repr

/-- Why arguments are not carried out. A request for help is not an error. -/
inductive UsageFault where
  | helpRequested
  | nothingGiven
  | missingTask
  | unknownTask
  | unknownArgument
  | invalidValue
  | surplusValue
  | repeated
  | missingInput
  deriving DecidableEq, Repr

def UsageFault.status : UsageFault → Nat
  | .helpRequested => 0
  | _ => 2

inductive Flag where
  | verbose
  | reportUnsupported
  deriving DecidableEq, Repr

inductive Setting where
  | configuration
  | input
  | mode
  deriving DecidableEq, Repr

inductive Switch where
  | help
  | flag (flag : Flag)
  | setting (setting : Setting)
  deriving DecidableEq, Repr

/-- The names of tasks, which stand before the options that belong to them. -/
inductive TaskName where
  | tag
  | artifact
  | check
  deriving DecidableEq, Repr

def TaskName.ofText? : String → Option TaskName
  | "tag" => some .tag
  | "artifact" => some .artifact
  | "check" => some .check
  | _ => none

/-- The options that may stand anywhere. -/
def commonSwitches : List (String × Option Char × Switch) :=
  [("verbose", some 'v', .flag .verbose), ("help", some 'h', .help)]

def inputSwitches : List (String × Option Char × Switch) :=
  [("config", none, .setting .configuration), ("input", some 'i', .setting .input)]

def checkSwitches : List (String × Option Char × Switch) :=
  [("mode", none, .setting .mode), ("report-unsupported", none, .flag .reportUnsupported)]

/-- The options that may stand at a place: before the name of a task, or after it. -/
def switches : Option TaskName → List (String × Option Char × Switch)
  | none => commonSwitches
  | some .check => commonSwitches ++ inputSwitches ++ checkSwitches
  | some _ => commonSwitches ++ inputSwitches

/-- What has been given at one place. The pending setting has not been looked at. -/
structure Given where
  flags : List Flag
  configuration : Option Path
  mode : Option Mode
  inputs : List String
  pending : Option (Setting × List String)

namespace Given

def nothing : Given := ⟨[], none, none, [], none⟩

/-- Gives a setting its values. Only inputs may be given several times. -/
def assign (given : Given) (setting : Setting) (values : List String) : Except UsageFault Given :=
  match setting, values with
  | _, [] => .error .invalidValue
  | .input, values => .ok { given with inputs := given.inputs ++ values }
  | .configuration, value :: _ =>
    if given.configuration.isSome then .error .repeated
    else if value = "" then .error .invalidValue
    else .ok { given with configuration := some ⟨value⟩ }
  | .mode, value :: _ =>
    if given.mode.isSome then .error .repeated
    else match getMember? value Configuration.modes with
      | some mode => .ok { given with mode := some mode }
      | none => .error .invalidValue

def settle (given : Given) : Except UsageFault Given :=
  match given.pending with
  | none => .ok given
  | some (setting, values) => { given with pending := none }.assign setting values

/-- Closes the open setting and gives another one its only value. -/
def attach (given : Given) (setting : Setting) (value : String) : Except UsageFault Given := do
  (← given.settle).assign setting [value]

def openSetting (given : Given) (setting : Setting) : Except UsageFault Given := do
  .ok { ← given.settle with pending := some (setting, []) }

/-- Closes the open setting and raises a flag. -/
def raise (given : Given) (flag : Flag) : Except UsageFault Given := do
  let given ← given.settle
  if given.flags.contains flag then .error .repeated
  else .ok { given with flags := flag :: given.flags }

def askHelp (given : Given) : Except UsageFault Given := do
  let _ ← given.settle
  .error .helpRequested

/-- Adds a value to the open setting. All settings but the inputs take one value. -/
def addValue (given : Given) (value : String) : Except UsageFault Given :=
  match given.pending with
  | some (setting, values) =>
    if setting = .input ∨ values = [] then
      .ok { given with pending := some (setting, values ++ [value]) }
    else .error .unknownArgument
  | none => .error .unknownArgument

/-- Reads an option with its full name, and the value after an equals sign. -/
def readLong (place : Option TaskName) (given : Given) (text : List Char) : Except UsageFault Given :=
  let name := String.ofList (text.takeWhile (· ≠ '='))
  let value? := match text.dropWhile (· ≠ '=') with
    | [] => none
    | _ :: value => some (String.ofList value)
  match (switches place).find? (·.1 = name), value? with
  | none, _ => .error .unknownArgument
  | some (_, _, .setting setting), some value => given.attach setting value
  | some (_, _, .setting setting), none => given.openSetting setting
  | some _, some _ => .error .surplusValue
  | some (_, _, .flag flag), none => given.raise flag
  | some (_, _, .help), none => given.askHelp

/-- Reads options with names of one letter. The text after the letter of a setting is its value. -/
def readShort (place : Option TaskName) (given : Given) : List Char → Except UsageFault Given
  | [] => .ok given
  | letter :: rest =>
    match (switches place).find? (·.2.1 = some letter) with
    | none => .error .unknownArgument
    | some (_, _, .help) => given.askHelp
    | some (_, _, .flag flag) => do (← given.raise flag).readShort place rest
    | some (_, _, .setting setting) =>
      match rest with
      | [] => given.openSetting setting
      | '=' :: value => given.attach setting (String.ofList value)
      | value => given.attach setting (String.ofList value)

end Given

inductive Shape where
  | separator
  | long (text : List Char)
  | short (letters : List Char)
  | word (text : String)

/-- The shape of an argument. A hyphen alone is a word. -/
def shapeOf (argument : String) : Shape :=
  match argument.toList with
  | ['-', '-'] => .separator
  | '-' :: '-' :: text => .long text
  | ['-'] => .word argument
  | '-' :: letters => .short letters
  | _ => .word argument

/-- Reads the arguments after the name of a task. Words that are no values belong nowhere. -/
def readOptions (task : TaskName) (given : Given) : List String → Except UsageFault Given
  | [] => given.settle
  | argument :: rest =>
    match shapeOf argument with
    | .separator => if rest.isEmpty then given.settle else .error .unknownArgument
    | .long text => do readOptions task (← given.readLong (some task) text) rest
    | .short letters => do readOptions task (← given.readShort (some task) letters) rest
    | .word text => do readOptions task (← given.addValue text) rest

/-- A name that stands before options, help included. -/
def isTaskName (name : String) : Bool := name = "help" || (TaskName.ofText? name).isSome

/-- Help can be given about a task, and about help itself with or without the name of a task. -/
def hasHelp : List String → Bool
  | [] => true
  | [name] => isTaskName name
  | ["help", name] => isTaskName name
  | _ => false

def invocation (task : TaskName) (before after : Given) : Except UsageFault Invocation :=
  if after.inputs = [] then .error .missingInput
  else
    let verbose := before.flags.contains .verbose || after.flags.contains .verbose
    let task := match task with
      | .tag => Task.showTags
      | .artifact => .showArtifacts
      | .check => .check (after.mode.getD .matcher) (after.flags.contains .reportUnsupported)
    .ok ⟨verbose, task, after.configuration, after.inputs⟩

def withoutTask (given : Given) : UsageFault :=
  if given.flags = [] then .nothingGiven else .missingTask

/-- Reads the arguments up to the name of a task, and those after it. -/
def readArguments (given : Given) : List String → Except UsageFault Invocation
  | [] => .error (withoutTask given)
  | argument :: rest =>
    match shapeOf argument with
    | .separator =>
      match rest with
      | [] => .error (withoutTask given)
      | word :: _ =>
        .error (if isTaskName word then .unknownArgument else .unknownTask)
    | .long text => do readArguments (← given.readLong none text) rest
    | .short letters => do readArguments (← given.readShort none letters) rest
    | .word "help" => .error (if hasHelp rest then .helpRequested else .unknownTask)
    | .word text =>
      match TaskName.ofText? text with
      | none => .error .unknownTask
      | some task => do invocation task given (← readOptions task .nothing rest)

def Invocation.ofArguments (arguments : List String) : Except UsageFault Invocation :=
  readArguments .nothing arguments

end TypedJson.CommandLine
