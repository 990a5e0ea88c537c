/-
Command lines of GCC-like compiler drivers.

The flags of a call say whether it preprocesses, compiles, or asks about the compiler;
each source among the arguments gives one record.  Records keep the flags that concern
a single compilation and drop the sources, the name of the output and whatever only the
linker reads.
-/
import CompileCommands.Flag.Parse
import CompileCommands.Invocation

namespace CompileCommands.Driver

/-! ### What the flags say -/

/-- The source arguments, in order. -/
def sources (flags : List Flag) : List String :=
  (flags.filter (·.kind == .source)).map Flag.name

/-- Does the call ask the compiler about itself? -/
def isQuery (flags : List Flag) : Bool := flags.any (·.kind == .information)

def hasFlag (flags : List Flag) (name : String) : Bool := flags.any (·.name == name)

/-- The output file that the call names; the last name counts. -/
def namedOutput? (flags : List Flag) : Option String :=
  ((flags.filter (·.kind == .outputFile)).filterMap (·.value? "-o")).getLast?

/-- Does the call stop before linking? -/
def stopsBeforeLinking (flags : List Flag) : Bool := hasFlag flags "-c" || hasFlag flags "-S"

/-- Does the call only preprocess?  Dependency rules alone are preprocessing; dependency rules
beside a compilation are not. -/
def onlyPreprocesses (flags : List Flag) : Bool :=
  hasFlag flags "-E"
    || ((hasFlag flags "-M" || hasFlag flags "-MM")
      && !(hasFlag flags "-MD" || hasFlag flags "-MMD"))

/-- Flags that concern the compilation of a single source.  `-c` is left out because every
entry gets its own. -/
def isRetained (flag : Flag) : Bool :=
  match flag.kind with
  | .source | .outputFile | .linker | .linkerInput | .linkerSearchDirectory => false
  | .noLinking => flag.name != "-c"
  | _ => true

/-- The arguments of the retained flags. -/
def retained (flags : List Flag) : List String :=
  (flags.filter isRetained).flatMap Flag.arguments

/-! ### Records -/

/-- The object file that a driver writes for a source when no output is named. -/
def objectName (source : String) : String := ((Path.mk source).stem?).getD source ++ ".o"

/-- A record of preprocessing; the paths are seen from the working directory. -/
def preprocessing (command : Command) (source : String) (output : Option String)
    (flags : List String) : Invocation :=
  .preprocess command (command.resolve ⟨source⟩) (output.map fun o => command.resolve ⟨o⟩) flags

/-- A record of a compilation; the paths are seen from the working directory. -/
def compilation (command : Command) (source output : String) (flags : List String) :
    Invocation :=
  .compile command (command.resolve ⟨source⟩) (command.resolve ⟨output⟩) flags

/-- The output of preprocessing, if it is a file.  A name covers a single source only, and a
lone dash is the standard output. -/
def preprocessedOutput? (flags : List Flag) : Option String :=
  match sources flags, namedOutput? flags with
  | [_], some output => if output = "-" then none else some output
  | _, _ => none

/-- The object file of a source.  The call names it when it compiles a single source without
linking; a call that links names the linked product instead. -/
def objectFile (flags : List Flag) (source : String) : String :=
  match sources flags, namedOutput? flags with
  | [_], some output => if stopsBeforeLinking flags then output else objectName source
  | _, _ => objectName source

/-- The record of one source. -/
def record (command : Command) (flags : List Flag) (source : String) : Invocation :=
  if onlyPreprocesses flags then
    preprocessing command source (preprocessedOutput? flags) (retained flags)
  else
    compilation command source (objectFile flags source) (retained flags)

/-- What a call of a GCC-like driver did. -/
def invocations (command : Command) : Except Rejection (List Invocation) :=
  if command.operands.isEmpty then .error .noArguments
  else
    let flags := Flag.parse command.operands
    match sources flags with
    | [] => if isQuery flags then .ok [.query command] else .error .noSources
    | found => .ok (found.map (record command flags))

end CompileCommands.Driver
