/-
Reports as JSON.

Every record of a report is read and written field by field.  What a tracer does not
know is left out: the parent of a process when it is process 0, and the status and the
signal of an event when there are none.  A report need not describe its session, a
command its environment, nor a run its events.
-/
import CompileCommands.Json.Decode
import CompileCommands.Json.Value
import CompileCommands.Trace

namespace CompileCommands

open Json (Decoder RecordField)

namespace Path

def decoder : Decoder Path := fun reading => Path.mk <$> Decoder.textAs .path reading

def toJson (path : Path) : Json.Value := .text path.text

end Path

namespace Dictionary

def toJson (dictionary : Dictionary) : Json.Value :=
  .record (dictionary.toList.map fun (name, value) => (name, .text value))

end Dictionary

namespace Pid

def decoder : Decoder Pid := fun reading => Pid.mk <$> Decoder.word reading

def toJson (pid : Pid) : Json.Value := .number (Int.ofNat pid.number.toNat)

end Pid

/-! ### Commands -/

namespace Command

structure Draft where
  program : Option Path := none
  arguments : Option (List String) := none
  workingDirectory : Option Path := none
  environment : Option Dictionary := none

def fields : List (RecordField Draft) := [
  .of "program" Path.decoder (·.program) fun draft value => { draft with program := some value },
  .of "arguments" (Decoder.list Decoder.text) (·.arguments)
    fun draft value => { draft with arguments := some value },
  .of "working_dir" Path.decoder (·.workingDirectory)
    fun draft value => { draft with workingDirectory := some value },
  .of "environment" Decoder.dictionary (·.environment)
    fun draft value => { draft with environment := some value }]

def decoder : Decoder Command :=
  Decoder.record "Command" fields {} fun absent draft => do
    let program ← Json.require (absent 0 "program") draft.program
    let arguments ← Json.require (absent 1 "arguments") draft.arguments
    let workingDirectory ← Json.require (absent 2 "working_dir") draft.workingDirectory
    return { program, arguments, workingDirectory, environment := draft.environment.getD ∅ }

def toJson (command : Command) : Json.Value :=
  .record [
    ("program", command.program.toJson),
    ("arguments", .texts command.arguments),
    ("working_dir", command.workingDirectory.toJson),
    ("environment", Dictionary.toJson command.environment)]

end Command

/-! ### Runs -/

namespace Event

structure Draft where
  time : Option String := none
  kind : Option String := none
  status : Option (Option Int32) := none
  signal : Option (Option Int32) := none

def fields : List (RecordField Draft) := [
  .of "at" Decoder.text (·.time) fun draft value => { draft with time := some value },
  .of "type" Decoder.text (·.kind) fun draft value => { draft with kind := some value },
  .of "status" (Decoder.optional Decoder.integer) (·.status)
    fun draft value => { draft with status := some value },
  .of "signal" (Decoder.optional Decoder.integer) (·.signal)
    fun draft value => { draft with signal := some value }]

def decoder : Decoder Event :=
  Decoder.record "Event" fields {} fun absent draft => do
    let time ← Json.require (absent 0 "at") draft.time
    let kind ← Json.require (absent 1 "type") draft.kind
    return { time, kind, status := draft.status.join, signal := draft.signal.join }

def toJson (event : Event) : Json.Value :=
  .record ([("at", .text event.time), ("type", .text event.kind)]
    ++ Json.Value.optionalField "status" (fun n => .number n.toInt) event.status
    ++ Json.Value.optionalField "signal" (fun n => .number n.toInt) event.signal)

end Event

namespace Run

structure Draft where
  pid : Option Pid := none
  parent : Option Pid := none
  events : Option (List Event) := none

def fields : List (RecordField Draft) := [
  .of "pid" Pid.decoder (·.pid) fun draft value => { draft with pid := some value },
  .of "ppid" Pid.decoder (·.parent) fun draft value => { draft with parent := some value },
  .of "events" (Decoder.list Event.decoder) (·.events)
    fun draft value => { draft with events := some value }]

def decoder : Decoder Run :=
  Decoder.record "Run" fields {} fun absent draft => do
    let pid ← Json.require (absent 0 "pid") draft.pid
    return { pid, parent := draft.parent.getD ⟨0⟩, events := draft.events.getD [] }

def toJson (run : Run) : Json.Value :=
  .record ([("pid", run.pid.toJson)]
    ++ (if run.parent = ⟨0⟩ then [] else [("ppid", run.parent.toJson)])
    ++ [("events", .list (run.events.map Event.toJson))])

end Run

/-! ### Executions -/

namespace Execution

structure Draft where
  command : Option Command := none
  run : Option Run := none

def fields : List (RecordField Draft) := [
  .of "command" Command.decoder (·.command) fun draft value => { draft with command := some value },
  .of "run" Run.decoder (·.run) fun draft value => { draft with run := some value }]

def decoder : Decoder Execution :=
  Decoder.record "Execution" fields {} fun absent draft => do
    let command ← Json.require (absent 0 "command") draft.command
    let run ← Json.require (absent 1 "run") draft.run
    return { command, run }

def toJson (execution : Execution) : Json.Value :=
  .record [("command", execution.command.toJson), ("run", execution.run.toJson)]

end Execution

/-! ### Reports -/

namespace Session

structure Draft where
  method : Option String := none
  host : Option Dictionary := none

def fields : List (RecordField Draft) := [
  .of "intercept" Decoder.text (·.method) fun draft value => { draft with method := some value },
  .of "host_info" Decoder.dictionary (·.host) fun draft value => { draft with host := some value }]

def decoder : Decoder Session :=
  Decoder.record "Context" fields {} fun _ draft =>
    return { method := draft.method.getD "", host := draft.host.getD ∅ }

def toJson (session : Session) : Json.Value :=
  .record [("intercept", .text session.method), ("host_info", Dictionary.toJson session.host)]

end Session

namespace Report

structure Draft where
  session : Option Session := none
  executions : Option (List Execution) := none

def fields : List (RecordField Draft) := [
  .of "context" Session.decoder (·.session) fun draft value => { draft with session := some value },
  .of "executions" (Decoder.list Execution.decoder) (·.executions)
    fun draft value => { draft with executions := some value }]

def decoder : Decoder Report :=
  Decoder.record "Report" fields {} fun absent draft => do
    let executions ← Json.require (absent 1 "executions") draft.executions
    return { session := draft.session.getD default, executions }

def toJson (report : Report) : Json.Value :=
  .record [
    ("context", report.session.toJson),
    ("executions", .list (report.executions.map Execution.toJson))]

/-- The report in a file. -/
def ofFile (content : Except FileError ByteArray) : Except Json.Error Report :=
  Json.decodeFile decoder content

/-- The messages that tell that a file holds no report. -/
def failureMessages (cause : Json.Error) : List String :=
  ["Failed to parse execution report", cause.message]

end Report

end CompileCommands
