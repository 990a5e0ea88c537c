/-
The program as a user calls it.

A call reads its options, sets up the log and converts a trace.  Log lines and errors go
to the standard error; the standard output is kept for answers to requests.
-/
import CompileCommands.Conversion
import CompileCommands.Options.Parse

namespace CompileCommands.Program

def name : String := "compdb"

def version : String := "0.3.0"

/-- The variables that the program looks at. -/
structure Environment where
  config : Option String := none
  logLevel : Option String := none
  logJson : Option String := none
  deriving DecidableEq, Repr, Inhabited

/-- A line on the standard error. -/
inductive Line
  | plain (text : String)
  | event (useJson : Bool) (event : LogEvent)
  deriving DecidableEq, Repr

/-- The line as it is written. -/
def Line.render : Line → String
  | plain text => text
  | event false told => told.line
  | event true told => told.toJson.compact

/-- What comes of a call. -/
structure Outcome where
  exitCode : UInt32
  answer : String := ""
  complaints : List Line := []
  deriving DecidableEq, Repr

/-! ### Requests -/

def help : String :=
  "Generate a compilation database from a build trace\n\n"
    ++ "Usage: " ++ name ++ " [OPTIONS]\n\n"
    ++ "Options:\n"
    ++ "  -i, --input <FILE>              Trace of the build executions\n"
    ++ "  -o, --output <FILE>             Compilation database to write\n"
    ++ "  -c, --config <FILE>             Configuration file\n"
    ++ "      --append                    Merge with the entries of an existing output file\n"
    ++ "      --include-only-existing     Only write entries whose source file exists\n"
    ++ "      --exclude-compiler <PATH>   Compiler executable to ignore\n"
    ++ "      --log-level <LEVEL>         Set logging level\n"
    ++ "  -v, --verbose                   Debug logging of every recognized execution\n"
    ++ "  -q, --quiet                     Suppress non-error output\n"
    ++ "  -h, --help                      Print help\n"
    ++ "  -V, --version                   Print version\n"

/-- The outcome of a call without options to run with.  Requests are answered; anything else is
a complaint with an exit code of its own. -/
def refuse : UsageError → Outcome
  | .request .help => { exitCode := 0, answer := help }
  | .request .version => { exitCode := 0, answer := name ++ " " ++ version ++ "\n" }
  | error => { exitCode := 2, complaints := [.plain ("error: " ++ error.message)] }

/-! ### Runs -/

/-- The log options of a call, with the complaints about them.  The level of the command line
counts more than that of the environment, and a named one more than a switch. -/
def logOptions (environment : Environment) (options : Options) : LogOptions × List String :=
  let (base, complaints) := LogOptions.ofEnvironment environment.logLevel environment.logJson
  match options.logLevel with
  | some text =>
      let (level, complaint) := LogLevel.parse text
      ({ base with level }, complaints ++ complaint.toList)
  | none =>
      if options.verbose then ({ base with level := .debug }, complaints)
      else if options.quiet then ({ base with level := .error }, complaints)
      else (base, complaints)

/-- The lines of the events that are important enough. -/
def lines (options : LogOptions) (events : List LogEvent) : List Line :=
  (events.filter (·.level.isShownAt options.level)).map (.event options.useJson)

/-- The outcome of a run that told some events. -/
def report (options : LogOptions) (complaints : List String)
    (result : Except ConversionError Nat) (events : List LogEvent) : Outcome :=
  let started := LogEvent.debug (name ++ " v" ++ version ++ " starting")
  let told := complaints.map .plain ++ lines options (started :: events)
  match result with
  | .ok _ => { exitCode := 0, complaints := told }
  | .error error =>
      { exitCode := 1, complaints := told ++ [.plain ("Error: " ++ error.message)] }

/-- Answers a call. -/
def execute {m : Type → Type} [Monad m] (files : Files m) (environment : Environment)
    (arguments : List String) : m Outcome :=
  match Options.parse arguments with
  | .error error => return refuse error
  | .ok options => do
      let (log, complaints) := logOptions environment options
      let (result, events) ←
        (Conversion.run files options (environment.config.map Path.mk)).result
      return report log complaints result events

end CompileCommands.Program
