/-
The trace of a build.

A tracer records every process that a build started: the command it ran, its process
id and that of its parent, and what happened to it.  The report holds the processes in
the order in which they were recorded.
-/
import Std.Data.ExtTreeMap
import CompileCommands.Path

namespace CompileCommands

/-- Names with their values, each name once. -/
abbrev Dictionary := Std.ExtTreeMap String String

/-- A process id. -/
structure Pid where
  number : UInt32
  deriving DecidableEq, Repr, Hashable, Inhabited

namespace Pid

instance : ToString Pid := ⟨fun pid => toString pid.number.toNat⟩

/-- Ids in numerical order. -/
def ascending (a b : Pid) : Bool := a.number ≤ b.number

end Pid

/-- What a process ran. -/
structure Command where
  program : Path
  /-- The argument vector, which starts with the program as it was called. -/
  arguments : List String
  workingDirectory : Path
  environment : Dictionary := ∅
  deriving DecidableEq

namespace Command

/-- The arguments after the program. -/
def operands (command : Command) : List String := command.arguments.drop 1

/-- A path of the command line as seen from the working directory. -/
def resolve (command : Command) (path : Path) : Path := command.workingDirectory.join path

def describe (command : Command) : String :=
  command.program.text ++ " [" ++ ", ".intercalate command.arguments ++ "] in "
    ++ command.workingDirectory.text

end Command

/-- Something that happened to a process. -/
structure Event where
  time : String
  kind : String
  status : Option Int32
  signal : Option Int32
  deriving DecidableEq

/-- The identity of a process and what happened to it.  The parent is process 0 when the tracer
did not report one. -/
structure Run where
  pid : Pid
  parent : Pid
  events : List Event
  deriving DecidableEq

structure Execution where
  command : Command
  run : Run
  deriving DecidableEq

namespace Execution

def pid (execution : Execution) : Pid := execution.run.pid

def parent (execution : Execution) : Pid := execution.run.parent

end Execution

/-- The tracing session. -/
structure Session where
  method : String
  host : Dictionary
  deriving DecidableEq

instance : Inhabited Session := ⟨⟨"", ∅⟩⟩

/-- The trace of a build. -/
structure Report where
  session : Session := default
  executions : List Execution
  deriving DecidableEq

end CompileCommands
