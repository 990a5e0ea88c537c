/-
Entries of a compilation database.

An entry says how one source file is compiled: the file, the directory the compiler
runs in, the command line, and the product when it is known.
-/
import CompileCommands.Path

namespace CompileCommands

structure Entry where
  file : Path
  directory : Path
  output : Option Path
  /-- The command line, which starts with the compiler. -/
  arguments : List String
  deriving DecidableEq, Repr

namespace Entry

/-- Why an entry cannot stand in a database. -/
inductive Fault
  | emptyFile
  | emptyDirectory
  | emptyOutput
  | noArguments
  /-- Neither a list of arguments nor a command line is given. -/
  | noCommand
  deriving DecidableEq, Repr

def Fault.message : Fault → String
  | emptyFile => "Field 'file' is empty string."
  | emptyDirectory => "Field 'directory' is empty string."
  | emptyOutput => "Field 'output' is empty string."
  | noArguments => "Field 'arguments' is empty list."
  | noCommand => "key 'command' or 'arguments' not found"

/-- The first fault of an entry: its fields are looked at in the order in which they are
written. -/
def fault? (entry : Entry) : Option Fault :=
  if entry.file.isEmpty then some .emptyFile
  else if entry.directory.isEmpty then some .emptyDirectory
  else if entry.output.any Path.isEmpty then some .emptyOutput
  else if entry.arguments.isEmpty then some .noArguments
  else none

/-- The arguments after the compiler; a command line without a compiler has none to speak of. -/
def operands? (entry : Entry) : Option (List String) := entry.arguments.tail?

end Entry

end CompileCommands
