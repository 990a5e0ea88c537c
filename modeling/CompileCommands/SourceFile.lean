/-
Inputs told apart by their names.

An argument that is no flag is an input.  Its extension says whether it is a source
file; objects and libraries, which only the linker reads, are known by their extension
or by the version that follows it in the name of a shared object.
-/
import CompileCommands.Path

namespace CompileCommands.SourceFile

/-- Extensions of source files, headers and preprocessed files included. -/
def extensions : List String := [
  -- headers
  "h", "hh", "H", "hp", "hxx", "hpp", "HPP", "h++", "tcc",
  -- C
  "c", "C",
  -- C++
  "cc", "CC", "c++", "C++", "cxx", "cpp", "cp",
  -- CUDA
  "cu",
  -- Objective-C
  "m", "mi", "mm", "M", "mii",
  -- preprocessed
  "i", "ii",
  -- assembly
  "s", "S", "sx", "asm",
  -- Fortran
  "f", "for", "ftn", "F", "FOR", "fpp", "FPP", "FTN",
  "f90", "f95", "f03", "f08", "F90", "F95", "F03", "F08",
  -- Go
  "go",
  -- BRIG
  "brig",
  -- D
  "d", "di", "dd",
  -- Ada
  "ads", "adb"]

/-- Extensions of what only the linker reads. -/
def linkerExtensions : List String := ["o", "obj", "a", "lib", "so", "dylib", "dll", "lo", "la"]

/-- Is the argument named like a source file? -/
def isSource (argument : String) : Bool :=
  match (Path.mk argument).extension? with
  | some extension => extensions.contains extension
  | none => false

/-- Is the argument named like an object or a library?  A shared object may carry a version
after its extension, as in `libz.so.1.2`. -/
def isLinkerInput (argument : String) : Bool :=
  (match (Path.mk argument).extension? with
    | some extension => linkerExtensions.contains extension
    | none => false)
  || Text.occursIn ".so.".toList argument.toList

/-- What an argument that is no flag stands for. -/
inductive Role
  | source
  | linkerInput
  | other
  deriving DecidableEq, Repr

def role (argument : String) : Role :=
  if isSource argument then .source
  else if isLinkerInput argument then .linkerInput
  else .other

end CompileCommands.SourceFile
