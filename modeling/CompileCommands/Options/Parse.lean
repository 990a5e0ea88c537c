/-
Options read from a command line.

The arguments are read from left to right.  An option is `--name`, `--name=value`, or
a letter behind one dash; letters of switches may be bundled, and what follows the
letter of a setting is its value.  A setting without a value of its own waits for the
next argument, whatever that is as long as it is not spelled like an option.

A setting is settled, that is, its value is checked and kept, only when the next option
is accepted or the command line ends.  So an argument that is no option at all is
complained about before the settings in front of it are.
-/
import CompileCommands.Options

namespace CompileCommands

/-- A setting that is not settled yet, with its value if it has one. -/
structure Pending where
  setting : Setting
  value : Option String := none
  deriving DecidableEq, Repr

/-- What was read of a command line. -/
structure Options.Draft where
  input : Option Path := none
  output : Option Path := none
  config : Option Path := none
  excluded : List Path := []
  logLevel : Option String := none
  switches : List Switch := []
  pending : Option Pending := none
  deriving DecidableEq, Repr

namespace Options.Draft

/-! ### Settling -/

/-- A path that is given once. -/
def assignPath (setting : Setting) (before : Option Path) (value : String) :
    Except UsageError Path :=
  if before.isSome then .error (.repeatedSetting setting)
  else if value.isEmpty then .error (.emptyValue setting)
  else .ok ⟨value⟩

/-- Keeps the value of a setting. -/
def assign (draft : Draft) (setting : Setting) (value : String) : Except UsageError Draft :=
  match setting with
  | .input => do return { draft with input := ← assignPath setting draft.input value }
  | .output => do return { draft with output := ← assignPath setting draft.output value }
  | .config => do return { draft with config := ← assignPath setting draft.config value }
  | .exclude => do
      let path ← assignPath setting none value
      return { draft with excluded := draft.excluded ++ [path] }
  | .logLevel =>
      if draft.logLevel.isSome then .error (.repeatedSetting setting)
      else .ok { draft with logLevel := some value }

/-- Settles the setting that is pending. -/
def settle (draft : Draft) : Except UsageError Draft :=
  match draft.pending with
  | none => .ok draft
  | some ⟨setting, none⟩ => .error (.missingValue setting)
  | some ⟨setting, some value⟩ => { draft with pending := none }.assign setting value

/-! ### Accepting -/

/-- Turns a switch on. -/
def turnOn (draft : Draft) (switch : Switch) : Except UsageError Draft := do
  let draft ← draft.settle
  if switch ∈ draft.switches then throw (.repeatedSwitch switch)
  return { draft with switches := draft.switches ++ [switch] }

/-- Accepts a setting with the value that is attached to it, or as the pending one. -/
def accept (draft : Draft) (setting : Setting) (attached : Option String) :
    Except UsageError Draft := do
  let draft ← draft.settle
  match attached with
  | some value => draft.assign setting value
  | none => return { draft with pending := some { setting } }

/-- Gives way to a request. -/
def yieldTo (draft : Draft) (request : Request) : Except UsageError Draft := do
  let _ ← draft.settle
  throw (.request request)

/-! ### Reading -/

/-- An option behind two dashes, with the value behind an equals sign. -/
def readNamed (draft : Draft) (argument name : String) (value : Option String) :
    Except UsageError Draft :=
  match Designation.ofName? name with
  | none => .error (.unknown argument)
  | some (.setting setting) => draft.accept setting value
  | some (.switch switch) =>
      if value.isSome then .error (.unwantedValue argument) else draft.turnOn switch
  | some (.request request) =>
      if value.isSome then .error (.unwantedValue argument) else draft.yieldTo request

/-- The value attached to the letter of a setting: what follows the letter, without one equals
sign. -/
def attachedValue : List Char → Option String
  | [] => none
  | '=' :: rest => some (String.ofList rest)
  | rest => some (String.ofList rest)

/-- The options behind one dash. -/
def readLetters (draft : Draft) (argument : String) : List Char → Except UsageError Draft
  | [] => .ok draft
  | letter :: rest =>
      match Designation.ofLetter? letter with
      | none => .error (.unknown argument)
      | some (.setting setting) => draft.accept setting (attachedValue rest)
      | some (.switch switch) => do readLetters (← draft.turnOn switch) argument rest
      | some (.request request) => draft.yieldTo request

/-- An argument that is no option is the value of the pending setting. -/
def readWord (draft : Draft) (argument : String) : Except UsageError Draft :=
  match draft.pending with
  | some ⟨setting, none⟩ => .ok { draft with pending := some ⟨setting, some argument⟩ }
  | _ => .error (.unknown argument)

/-- A text around its first equals sign. -/
def cutAtEquals (text : List Char) : String × Option String :=
  match text.dropWhile (· ≠ '=') with
  | [] => (String.ofList text, none)
  | _ :: value => (String.ofList (text.takeWhile (· ≠ '=')), some (String.ofList value))

/-- The arguments of a command line.  Two dashes end the options, and nothing else is
expected. -/
def read (draft : Draft) : List String → Except UsageError Draft
  | [] => draft.settle
  | argument :: rest =>
      match argument.toList with
      | ['-', '-'] =>
          match rest with
          | [] => draft.settle
          | surplus :: _ => .error (.unknown surplus)
      | '-' :: '-' :: text => do
          let (name, value) := cutAtEquals text
          read (← draft.readNamed argument name value) rest
      | '-' :: letter :: letters => do
          read (← draft.readLetters argument (letter :: letters)) rest
      | _ => do read (← draft.readWord argument) rest

/-! ### Completing -/

/-- The options of a draft; what was not given has its default. -/
def complete (draft : Draft) : Except UsageError Options :=
  if .verbose ∈ draft.switches ∧ .quiet ∈ draft.switches then .error .verboseAndQuiet
  else
    let defaults : Options := {}
    .ok {
      input := draft.input.getD defaults.input
      output := draft.output.getD defaults.output
      config := draft.config
      append := .append ∈ draft.switches
      onlyExisting := .onlyExisting ∈ draft.switches
      excluded := draft.excluded
      logLevel := draft.logLevel
      verbose := .verbose ∈ draft.switches
      quiet := .quiet ∈ draft.switches }

end Options.Draft

/-- The options of a command line, without the program name. -/
def Options.parse (arguments : List String) : Except UsageError Options := do
  let draft ← Options.Draft.read {} arguments
  draft.complete

end CompileCommands
