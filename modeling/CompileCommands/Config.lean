/-
Configuration.

A configuration file is a JSON record.  Every part of it may be left out and then has its
default, so an empty record is a configuration.  Declared compilers are known by their
exact path, which therefore has to be absolute.
-/
import CompileCommands.Database.Format
import CompileCommands.Recognizer
import CompileCommands.Trace.Format

namespace CompileCommands

open Json (Decoder RecordField)

/-- How the database is written. -/
structure OutputOptions where
  format : EntryFormat := {}
  filter : SourceFilter := {}
  deriving DecidableEq, Repr, Inhabited

structure Config where
  selection : Selection := {}
  output : OutputOptions := {}
  deriving DecidableEq, Repr, Inhabited

/-! ### Reading and writing -/

namespace DeclaredCompiler

structure Draft where
  executable : Option Path := none
  flagsToAdd : Option (List String) := none
  flagsToRemove : Option (List String) := none

def fields : List (RecordField Draft) := [
  .of "executable" Path.decoder (·.executable)
    fun draft value => { draft with executable := some value },
  .of "flags_to_add" (Decoder.list Decoder.text) (·.flagsToAdd)
    fun draft value => { draft with flagsToAdd := some value },
  .of "flags_to_remove" (Decoder.list Decoder.text) (·.flagsToRemove)
    fun draft value => { draft with flagsToRemove := some value }]

def decoder : Decoder DeclaredCompiler :=
  Decoder.record "CompilerWrapper" fields {} fun absent draft => do
    let executable ← Json.require (absent 0 "executable") draft.executable
    return {
      executable
      flagsToAdd := draft.flagsToAdd.getD []
      flagsToRemove := draft.flagsToRemove.getD [] }

def toJson (compiler : DeclaredCompiler) : Json.Value :=
  .record [
    ("executable", compiler.executable.toJson),
    ("flags_to_add", Json.Value.texts compiler.flagsToAdd),
    ("flags_to_remove", Json.Value.texts compiler.flagsToRemove)]

end DeclaredCompiler

namespace Selection

structure Draft where
  declared : Option (List DeclaredCompiler) := none
  excluded : Option (List Path) := none

def fields : List (RecordField Draft) := [
  .of "compilers_to_recognize" (Decoder.list DeclaredCompiler.decoder) (·.declared)
    fun draft value => { draft with declared := some value },
  .of "compilers_to_exclude" (Decoder.list Path.decoder) (·.excluded)
    fun draft value => { draft with excluded := some value }]

def decoder : Decoder Selection :=
  Decoder.record "Compilation" fields {} fun _ draft =>
    return { declared := draft.declared.getD [], excluded := draft.excluded.getD [] }

def toJson (selection : Selection) : Json.Value :=
  .record [
    ("compilers_to_recognize", .list (selection.declared.map DeclaredCompiler.toJson)),
    ("compilers_to_exclude", .list (selection.excluded.map Path.toJson))]

end Selection

namespace EntryFormat

structure Draft where
  commandAsList : Option Bool := none
  dropOutput : Option Bool := none

def fields : List (RecordField Draft) := [
  .of "command_as_array" Decoder.bool (·.commandAsList)
    fun draft value => { draft with commandAsList := some value },
  .of "drop_output_field" Decoder.bool (·.dropOutput)
    fun draft value => { draft with dropOutput := some value }]

def decoder : Decoder EntryFormat :=
  Decoder.record "Format" fields {} fun _ draft =>
    return {
      commandAsList := draft.commandAsList.getD true
      dropOutput := draft.dropOutput.getD false }

def toJson (format : EntryFormat) : Json.Value :=
  .record [
    ("command_as_array", .bool format.commandAsList),
    ("drop_output_field", .bool format.dropOutput)]

end EntryFormat

namespace SourceFilter

structure Draft where
  onlyExisting : Option Bool := none
  inside : Option (List Path) := none
  outside : Option (List Path) := none

def fields : List (RecordField Draft) := [
  .of "include_only_existing_source" Decoder.bool (·.onlyExisting)
    fun draft value => { draft with onlyExisting := some value },
  .of "paths_to_include" (Decoder.list Path.decoder) (·.inside)
    fun draft value => { draft with inside := some value },
  .of "paths_to_exclude" (Decoder.list Path.decoder) (·.outside)
    fun draft value => { draft with outside := some value }]

def decoder : Decoder SourceFilter :=
  Decoder.record "Content" fields {} fun _ draft =>
    return {
      onlyExisting := draft.onlyExisting.getD false
      inside := draft.inside.getD []
      outside := draft.outside.getD [] }

def toJson (filter : SourceFilter) : Json.Value :=
  .record [
    ("include_only_existing_source", .bool filter.onlyExisting),
    ("paths_to_include", .list (filter.inside.map Path.toJson)),
    ("paths_to_exclude", .list (filter.outside.map Path.toJson))]

end SourceFilter

namespace OutputOptions

structure Draft where
  format : Option EntryFormat := none
  filter : Option SourceFilter := none

def fields : List (RecordField Draft) := [
  .of "format" EntryFormat.decoder (·.format)
    fun draft value => { draft with format := some value },
  .of "content" SourceFilter.decoder (·.filter)
    fun draft value => { draft with filter := some value }]

def decoder : Decoder OutputOptions :=
  Decoder.record "OutputConfig" fields {} fun _ draft =>
    return { format := draft.format.getD {}, filter := draft.filter.getD {} }

def toJson (options : OutputOptions) : Json.Value :=
  .record [("format", options.format.toJson), ("content", options.filter.toJson)]

end OutputOptions

/-- What keeps a configuration from being used. -/
inductive ConfigFault
  | emptyExecutable
  | relativeExecutable (executable : Path)
  | emptyExcluded
  deriving DecidableEq, Repr

def ConfigFault.message : ConfigFault → String
  | emptyExecutable => "compilers_to_recognize contains an empty executable path"
  | relativeExecutable executable =>
      "compiler executable must be an absolute path: " ++ executable.text
  | emptyExcluded => "compilers_to_exclude contains an empty path"

/-- Why there is no configuration. -/
inductive ConfigError
  | file (path : Path) (cause : FileError)
  | json (path : Path) (cause : Json.Error)
  | invalid (fault : ConfigFault)
  deriving DecidableEq, Repr

/-- The messages of an error: its own, and that of its cause where there is one. -/
def ConfigError.messages : ConfigError → List String
  | file path cause =>
      ["Failed to read configuration file " ++ path.text ++ ": " ++ cause.message, cause.message]
  | json path cause =>
      ["Failed to parse configuration file " ++ path.text ++ ": " ++ cause.message, cause.message]
  | invalid fault => ["Configuration validation failed: " ++ fault.message]

namespace Config

structure Draft where
  selection : Option Selection := none
  output : Option OutputOptions := none

def fields : List (RecordField Draft) := [
  .of "compilation" Selection.decoder (·.selection)
    fun draft value => { draft with selection := some value },
  .of "output" OutputOptions.decoder (·.output)
    fun draft value => { draft with output := some value }]

def decoder : Decoder Config :=
  Decoder.record "Config" fields {} fun _ draft =>
    return { selection := draft.selection.getD {}, output := draft.output.getD {} }

def toJson (config : Config) : Json.Value :=
  .record [("compilation", config.selection.toJson), ("output", config.output.toJson)]

/-- The fault of a declared compiler. -/
def compilerFault? (compiler : DeclaredCompiler) : Option ConfigFault :=
  if compiler.executable.isEmpty then some .emptyExecutable
  else if compiler.executable.isAbsolute then none
  else some (.relativeExecutable compiler.executable)

/-- The first fault of a configuration; the declared compilers are looked at first. -/
def fault? (config : Config) : Option ConfigFault :=
  config.selection.declared.findSome? compilerFault?
    <|> if config.selection.excluded.any Path.isEmpty then some .emptyExcluded else none

/-- The configuration in a file.  The file has to be a text throughout before it is decoded. -/
def ofFile (path : Path) (content : Except FileError ByteArray) : Except ConfigError Config :=
  match content with
  | .error cause => .error (.file path cause)
  | .ok bytes =>
      if !bytes.validateUTF8 then .error (.file path .notUtf8)
      else match Json.decodeBytes decoder bytes with
        | .error cause => .error (.json path cause)
        | .ok config =>
            match config.fault? with
            | some fault => .error (.invalid fault)
            | none => .ok config

end Config

end CompileCommands
