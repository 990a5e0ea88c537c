/-
The conversion of a trace into a database.

The configuration is read first, then the trace, then the database that is to be kept.
Nothing is written before all of that has succeeded, so a conversion that fails leaves
every file as it was.  Whether a source exists is looked up when the database has already
been created, for the database may be listed as a source itself.
-/
import CompileCommands.Config
import CompileCommands.Database.Merge
import CompileCommands.Database.Text
import CompileCommands.FileSystem
import CompileCommands.Options
import CompileCommands.Recognizer

namespace CompileCommands

/-- Why there is no new database. -/
inductive ConversionError
  | config (cause : ConfigError)
  /-- The trace cannot be opened. -/
  | openReport (path : Path) (cause : FileError)
  | readReport (path : Path) (cause : Json.Error)
  /-- The database that is to be kept cannot be read. -/
  | readDatabase (path : Path) (cause : DatabaseError)
  | writeDatabase (path : Path) (cause : FileError)
  deriving DecidableEq

namespace ConversionError

/-- The messages of an error and of its causes, the outermost first. -/
def messages : ConversionError → List String
  | config cause => "Failed to load configuration" :: cause.messages
  | openReport path cause =>
      ["Failed to open execution report: " ++ path.text, cause.message]
  | readReport path cause =>
      ("Failed to read execution report: " ++ path.text) :: Report.failureMessages cause
  | readDatabase path cause =>
      ("Failed to read existing compilation database " ++ path.text) :: cause.messages
  | writeDatabase path cause =>
      ("Failed to write compilation database " ++ path.text)
        :: (DatabaseError.file path cause).messages

def message (error : ConversionError) : String := ": ".intercalate error.messages

/-- The JSON error that an error goes back to. -/
def json? : ConversionError → Option Json.Error
  | config (.json _ cause) | readReport _ cause | readDatabase _ (.json cause) => some cause
  | _ => none

end ConversionError

/-- A configuration with what the command line adds to it. -/
def Config.withOptions (config : Config) (options : Options) : Config where
  selection := { config.selection with
    excluded := config.selection.excluded ++ options.excluded }
  output := { config.output with
    filter := { config.output.filter with
      onlyExisting := config.output.filter.onlyExisting || options.onlyExisting } }

/-- A conversion in progress: it may fail, and what it tells is kept either way. -/
abbrev Conversion (m : Type → Type) (α : Type) :=
  ExceptT ConversionError (StateT (List LogEvent) m) α

namespace Conversion

variable {m : Type → Type} [Monad m]

/-! ### Steps -/

/-- Adds events to the log. -/
def tell (events : List LogEvent) : Conversion m Unit := modify (· ++ events)

/-- Something from outside the conversion. -/
def ask {α : Type} (action : m α) : Conversion m α :=
  ExceptT.lift (StateT.lift action)

/-- The configuration in a file, or the default. -/
def loadConfig (files : Files m) : Option Path → Conversion m Config
  | none => return {}
  | some path => do
      let opened ← ask (files.openFile path)
      match Config.ofFile path (opened.bind id) with
      | .ok config => return config
      | .error cause => throw (.config cause)

def loadReport (files : Files m) (path : Path) : Conversion m Report := do
  match ← ask (files.openFile path) with
  | .error cause => throw (.openReport path cause)
  | .ok content =>
      match Report.ofFile content with
      | .ok report => return report
      | .error cause => throw (.readReport path cause)

/-- The entries of a database in a file. -/
def loadDatabase (files : Files m) (path : Path) : Conversion m (List Entry) := do
  match ← ask (files.openFile path) with
  | .error cause => throw (.readDatabase path (.file path cause))
  | .ok content =>
      match Database.read content with
      | .ok entries => return entries
      | .error cause => throw (.readDatabase path cause)

/-- The recognized entries, behind those of a database that is there already if these are to
be kept. -/
def keepExisting (files : Files m) (options : Options) (found : List Entry) :
    Conversion m (List Entry) := do
  if options.append then
    if ← ask (files.isPresent options.output) then
      let existing ← loadDatabase files options.output
      tell [.debug "Merging with existing entries" [("existing", existing.length)]]
      return Entry.merge existing found
  return found

/-- The entries that a filter accepts. -/
def accepted (files : Files m) (filter : SourceFilter) (entries : List Entry) :
    m (List Entry) :=
  entries.filterM fun entry => return filter.accepts (← files.isPresent entry.file) entry

/-- Writes the accepted entries, and counts them. -/
def save (files : Files m) (output : OutputOptions) (path : Path) (entries : List Entry) :
    Conversion m Nat := do
  match ← ask (files.create path) with
  | .error cause => throw (.writeDatabase path cause)
  | .ok () =>
      let written ← ask (accepted files output.filter entries)
      let text := Database.render output.format written
      match ← ask (files.write path text.toUTF8) with
      | .error cause => throw (.writeDatabase path cause)
      | .ok () => return written.length

/-! ### The whole -/

/-- Converts a trace and counts the entries of the new database.  `configured` is the
configuration file that is used when the options name none. -/
def run (files : Files m) (options : Options) (configured : Option Path) : Conversion m Nat := do
  let loaded ← loadConfig files (options.config <|> configured)
  let config := loaded.withOptions options
  let report ← loadReport files options.input
  let recognizer := Recognizer.ofSelection config.selection
  let found := recognizer.entries report
  tell (recognizer.events report)
  tell [.info "Recognized compilations" [
    ("executions", report.executions.length),
    ("entries", found.length)]]
  let entries ← keepExisting files options found
  let written ← save files config.output options.output entries
  tell [.info ("Wrote " ++ toString written ++ " entries to " ++ options.output.text)]
  return written

/-- Runs a conversion from an empty log. -/
def result {α : Type} (conversion : Conversion m α) :
    m (Except ConversionError α × List LogEvent) :=
  StateT.run (ExceptT.run conversion) []

end Conversion

end CompileCommands
