/-
Databases as JSON texts.

A database is a list of records.  A record holds the command line as a list of arguments
or as one text; a list is preferred where both are given.  A text is read in two stages:
first all records are decoded, then each becomes an entry, and the first that cannot
ends the reading.
-/
import CompileCommands.Database.Format
import CompileCommands.Trace.Format
import CompileCommands.Shell

namespace CompileCommands

open Json (Decoder RecordField)

/-- An entry as a database file holds it. -/
structure StoredEntry where
  file : Path
  directory : Path
  output : Option Path
  arguments : Option (List String)
  command : Option String
  deriving DecidableEq

/-- Why a database cannot be read. -/
inductive DatabaseError
  /-- The file cannot be opened. -/
  | file (path : Path) (cause : FileError)
  | json (cause : Json.Error)
  | invalid (fault : Entry.Fault)
  | command (cause : Shell.SplitError)
  deriving DecidableEq

/-- The messages of an error: its own, and those of its cause where that is an error of a
different nature. -/
def DatabaseError.messages : DatabaseError → List String
  | file path cause =>
      ["Failed to access file: " ++ path.text ++ ", cause: " ++ cause.message, cause.message]
  | json cause => ["Invalid JSON: " ++ cause.message, cause.message]
  | invalid fault => ["Invalid entry: " ++ fault.message]
  | command cause => ["Failed to split command: " ++ cause.message]

namespace StoredEntry

/-! ### Writing -/

/-- An entry in the shape that a format asks for. -/
def ofEntry (format : EntryFormat) (entry : Entry) : StoredEntry where
  file := entry.file
  directory := entry.directory
  output := if format.dropOutput then none else entry.output
  arguments := if format.commandAsList then some entry.arguments else none
  command := if format.commandAsList then none else some (Shell.join entry.arguments)

def toJson (stored : StoredEntry) : Json.Value :=
  .record ([("file", stored.file.toJson), ("directory", stored.directory.toJson)]
    ++ Json.Value.optionalField "output" Path.toJson stored.output
    ++ Json.Value.optionalField "arguments" .texts stored.arguments
    ++ Json.Value.optionalField "command" .text stored.command)

/-! ### Reading -/

structure Draft where
  file : Option Path := none
  directory : Option Path := none
  output : Option (Option Path) := none
  arguments : Option (Option (List String)) := none
  command : Option (Option String) := none

def fields : List (RecordField Draft) := [
  .of "file" Path.decoder (·.file) fun draft value => { draft with file := some value },
  .of "directory" Path.decoder (·.directory)
    fun draft value => { draft with directory := some value },
  .of "output" (Decoder.optional Path.decoder) (·.output)
    fun draft value => { draft with output := some value },
  .of "arguments" (Decoder.optional (Decoder.list Decoder.text)) (·.arguments)
    fun draft value => { draft with arguments := some value },
  .of "command" (Decoder.optional Decoder.text) (·.command)
    fun draft value => { draft with command := some value }]

def decoder : Decoder StoredEntry :=
  Decoder.record "JsonEntry" fields {} fun absent draft => do
    let file ← Json.require (absent 0 "file") draft.file
    let directory ← Json.require (absent 1 "directory") draft.directory
    return {
      file
      directory
      output := draft.output.join
      arguments := draft.arguments.join
      command := draft.command.join }

/-- The command line of a record. -/
def commandLine (stored : StoredEntry) : Except DatabaseError (List String) :=
  match stored.arguments, stored.command with
  | some arguments, _ => .ok arguments
  | none, some command =>
      match Shell.split command with
      | .ok words => .ok words
      | .error cause => .error (.command cause)
  | none, none => .error (.invalid .noCommand)

/-- The entry of a record, unless it has a fault. -/
def toEntry (stored : StoredEntry) : Except DatabaseError Entry := do
  let arguments ← stored.commandLine
  let entry : Entry := {
    file := stored.file
    directory := stored.directory
    output := stored.output
    arguments }
  match entry.fault? with
  | none => return entry
  | some fault => throw (.invalid fault)

end StoredEntry

namespace Database

/-- The text of a database. -/
def render (format : EntryFormat) (entries : List Entry) : String :=
  (Json.Value.list (entries.map fun entry => (StoredEntry.ofEntry format entry).toJson)).render
    ++ "\n"

/-- The entries of a database file. -/
def read (content : Except FileError ByteArray) : Except DatabaseError (List Entry) :=
  match Json.decodeFile (Decoder.list StoredEntry.decoder) content with
  | .ok stored => stored.mapM StoredEntry.toEntry
  | .error cause => .error (.json cause)

end Database

end CompileCommands
