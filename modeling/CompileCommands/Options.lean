/-
What a user asks for on the command line.
-/
import CompileCommands.Path

namespace CompileCommands

structure Options where
  /-- The trace of the build. -/
  input : Path := ⟨"events.json"⟩
  /-- The database to write. -/
  output : Path := ⟨"compile_commands.json"⟩
  config : Option Path := none
  /-- Keep the entries of a database that is there already. -/
  append : Bool := false
  /-- Write only entries whose source exists. -/
  onlyExisting : Bool := false
  /-- Programs to ignore, beside those of the configuration. -/
  excluded : List Path := []
  logLevel : Option String := none
  /-- Log every process that is looked at. -/
  verbose : Bool := false
  /-- Log nothing but errors. -/
  quiet : Bool := false
  deriving DecidableEq, Repr, Inhabited

/-- An option with a value. -/
inductive Setting
  | input
  | output
  | config
  | exclude
  | logLevel
  deriving DecidableEq, Repr

/-- An option without a value. -/
inductive Switch
  | append
  | onlyExisting
  | verbose
  | quiet
  deriving DecidableEq, Repr

/-- An option that is answered in place of a run. -/
inductive Request
  | help
  | version
  deriving DecidableEq, Repr

/-- What the name of an option stands for. -/
inductive Designation
  | setting (setting : Setting)
  | switch (switch : Switch)
  | request (request : Request)
  deriving DecidableEq, Repr

namespace Designation

/-- The options by their names, which stand behind two dashes. -/
def byName : List (String × Designation) := [
  ("input", .setting .input),
  ("output", .setting .output),
  ("config", .setting .config),
  ("exclude-compiler", .setting .exclude),
  ("log-level", .setting .logLevel),
  ("append", .switch .append),
  ("include-only-existing", .switch .onlyExisting),
  ("verbose", .switch .verbose),
  ("quiet", .switch .quiet),
  ("help", .request .help),
  ("version", .request .version)]

/-- The options by their letters, which stand behind one dash. -/
def byLetter : List (Char × Designation) := [
  ('i', .setting .input),
  ('o', .setting .output),
  ('c', .setting .config),
  ('v', .switch .verbose),
  ('q', .switch .quiet),
  ('h', .request .help),
  ('V', .request .version)]

def ofName? (name : String) : Option Designation := byName.lookup name

def ofLetter? (letter : Char) : Option Designation := byLetter.lookup letter

end Designation

/-- Why a command line gives no options. -/
inductive UsageError
  /-- No option, and no value that an option waits for. -/
  | unknown (argument : String)
  /-- A switch with a value. -/
  | unwantedValue (argument : String)
  | missingValue (setting : Setting)
  /-- A path may not be empty. -/
  | emptyValue (setting : Setting)
  | repeatedSetting (setting : Setting)
  | repeatedSwitch (switch : Switch)
  /-- A run cannot be both verbose and quiet. -/
  | verboseAndQuiet
  /-- No error: something else is wanted than a run. -/
  | request (request : Request)
  deriving DecidableEq, Repr

namespace UsageError

/-- The name of an option as a user writes it. -/
def title (designation : Designation) : String :=
  match Designation.byName.find? (·.2 = designation) with
  | some (name, _) => "--" ++ name
  | none => ""

def message : UsageError → String
  | unknown argument => "unexpected argument '" ++ argument ++ "' found"
  | unwantedValue argument => "unexpected value in '" ++ argument ++ "'"
  | missingValue setting => "a value is required for '" ++ title (.setting setting) ++ "'"
  | emptyValue setting => "the value of '" ++ title (.setting setting) ++ "' is empty"
  | repeatedSetting setting =>
      "'" ++ title (.setting setting) ++ "' cannot be used multiple times"
  | repeatedSwitch switch => "'" ++ title (.switch switch) ++ "' cannot be used multiple times"
  | verboseAndQuiet => "'--quiet' cannot be used with '--verbose'"
  | request .help => "help"
  | request .version => "version"

end UsageError

end CompileCommands
