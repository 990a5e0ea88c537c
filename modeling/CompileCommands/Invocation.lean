/-
What a recognized process did.

A call of a compiler either asked it about itself, or only preprocessed sources, or
compiled them; the last two give one record for each source file.  Only a compilation
has an entry in the database.
-/
import CompileCommands.Entry
import CompileCommands.Trace

namespace CompileCommands

inductive Invocation
  /-- Asked the compiler about itself. -/
  | query (command : Command)
  /-- Preprocessed a source; without an output the result went to the standard output. -/
  | preprocess (command : Command) (source : Path) (output : Option Path) (flags : List String)
  /-- Compiled a source. -/
  | compile (command : Command) (source output : Path) (flags : List String)
  deriving DecidableEq

namespace Invocation

def command : Invocation → Command
  | query command | preprocess command .. | compile command .. => command

/-- Puts other flags into a record that has flags. -/
def mapFlags (f : List String → List String) : Invocation → Invocation
  | query command => query command
  | preprocess command source output flags => preprocess command source output (f flags)
  | compile command source output flags => compile command source output (f flags)

/-- The command line of a compilation as the database shows it: it compiles one source without
linking and names the output.  `-S` stops before linking as well as `-c` does. -/
def compileArguments (command : Command) (source output : Path) (flags : List String) :
    List String :=
  command.arguments.headD command.program.text :: flags
    ++ (if "-S" ∈ flags then [] else ["-c"])
    ++ ["-o", output.text, source.text]

/-- The database entry; only a compilation has one. -/
def entry : Invocation → Option Entry
  | compile command source output flags =>
      some {
        file := source
        directory := command.workingDirectory
        output := some output
        arguments := compileArguments command source output flags }
  | query _ | preprocess .. => none

/-- A list of flags between brackets. -/
def describeFlags (flags : List String) : String := "[" ++ ", ".intercalate flags ++ "]"

def describe : Invocation → String
  | query _ => "Query"
  | preprocess _ source output flags =>
      "Preprocess \x7b source: " ++ source.text ++ ", output: "
        ++ (output.map Path.text).getD "stdout" ++ ", flags: " ++ describeFlags flags ++ " \x7d"
  | compile _ source output flags =>
      "Compile \x7b source: " ++ source.text ++ ", output: " ++ output.text
        ++ ", flags: " ++ describeFlags flags ++ " \x7d"

end Invocation

/-- Why a process gives no records.  Most processes of a build do not; the walk over the trace
then looks at what they started. -/
inductive Rejection
  | excluded (program : Path)
  | notRecognized (program : Path)
  | noArguments
  | noSources
  /-- A compiler launcher without a compiler to launch. -/
  | noWrappedCompiler
  deriving DecidableEq, Repr

def Rejection.message : Rejection → String
  | excluded program =>
      "The compiler is on the exclude list from configuration: " ++ program.text
  | notRecognized program => "No tools recognize this command: " ++ program.text
  | noArguments => "Not a compilation: no arguments found"
  | noSources => "Not a compilation: no source files found"
  | noWrappedCompiler => "Not a compilation: no wrapped compiler"

end CompileCommands
