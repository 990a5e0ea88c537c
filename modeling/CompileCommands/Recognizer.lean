/-
From a trace to the entries of a database.

A recognizer holds the tools, the first of which that knows a program is responsible
for it, and the programs that are to be ignored.  It walks over the forest of the
traced processes; a process that is recognized as a compiler call hides the processes
it started, which are an implementation detail of the compiler.  All of this is the same
for any type of tools.
-/
import CompileCommands.Compiler.Tool
import CompileCommands.Forest.Walk
import CompileCommands.Log

namespace CompileCommands

/-- Which processes are compiler calls. -/
structure Selection where
  /-- Compilers beside those that are known without configuration. -/
  declared : List DeclaredCompiler := []
  /-- Programs that are ignored. -/
  excluded : List Path := []
  deriving DecidableEq, Repr, Inhabited

/-- A recognizer has tools of one type, which are those of this library if no type is named. -/
structure Recognizer (τ : Type := Tool) where
  /-- The tools, the one that is asked first at the head. -/
  tools : List τ
  excluded : List Path
  deriving DecidableEq, Repr

namespace Recognizer

/-- The families, followed by the declared compilers. -/
def ofSelection (selection : Selection) : Recognizer where
  tools := Family.all.map Tool.family ++ selection.declared.map Tool.declared
  excluded := selection.excluded

variable {τ : Type} [ToolLike τ]

/-! ### One process -/

/-- The tool that is responsible for a program. -/
def select (recognizer : Recognizer τ) (program : Path) : Except Rejection τ :=
  if recognizer.excluded.any (·.same program) then .error (.excluded program)
  else match recognizer.tools.find? (ToolLike.recognizes program) with
    | some tool => .ok tool
    | none => .error (.notRecognized program)

/-- What a process did. -/
def recognize (recognizer : Recognizer τ) (execution : Execution) :
    Except Rejection (List Invocation) := do
  let tool ← recognizer.select execution.command.program
  ToolLike.invocations execution.command tool

/-- What is told about the recognition of a process. -/
def account (recognizer : Recognizer τ) (execution : Execution) : List String :=
  let tell (text : String) : String := "[pid: " ++ toString execution.pid ++ "] " ++ text
  let chosen := match recognizer.select execution.command.program with
    | .ok tool => [tell ("recognized with: " ++ ToolLike.title tool)]
    | .error _ => []
  let result := match recognizer.recognize execution with
    | .ok invocations =>
        "recognized as: [" ++ ", ".intercalate (invocations.map Invocation.describe) ++ "]"
    | .error rejection => "failed: " ++ rejection.message
  tell ("command: " ++ execution.command.describe) :: chosen ++ [tell result]

/-! ### A whole trace -/

/-- The forest of the traced processes. -/
def forest (report : Report) : Forest Execution :=
  Forest.ofRecords Execution.pid Execution.parent report.executions

/-- The walk over a trace. -/
def walk (recognizer : Recognizer τ) (report : Report) : Walk Invocation :=
  (forest report).walk recognizer.recognize

/-- The entries of the compilations in a trace. -/
def entries (recognizer : Recognizer τ) (report : Report) : List Entry :=
  (recognizer.walk report).outputs.filterMap Invocation.entry

/-- The processes that the walk visits, in its order. -/
def visited (recognizer : Recognizer τ) (report : Report) : List Execution :=
  (recognizer.walk report).visited.filterMap (forest report).find?

/-- What is told in the log: the accounts of the visited processes in the order of the visits, and
how many records all of them gave. -/
def events (recognizer : Recognizer τ) (report : Report) : List LogEvent :=
  ((recognizer.visited report).flatMap recognizer.account).map (LogEvent.debug ·)
    ++ [LogEvent.debug "Recognition finished" [
      ("executions", report.executions.length),
      ("recognized", (recognizer.walk report).outputs.length)]]

end Recognizer

end CompileCommands
