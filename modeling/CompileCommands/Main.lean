/-
The command line of the program.

This is the only part that touches real files.  An error of the system becomes a
`FileError` here; everything else is decided by `Program.execute`.
-/
import CompileCommands.Program

namespace CompileCommands.CommandLine

/-- The error of a system call.  The codes are those of the POSIX errors. -/
def fileError (error : IO.Error) : FileError :=
  match error with
  | .noFileOrDirectory .. => .notFound
  | .inappropriateType _ 20 _ => .notDirectory
  | .inappropriateType _ 21 _ => .isDirectory
  | .invalidArgument _ 36 _ => .nameTooLong
  | other => .other (toString other)

/-- What comes of an action that uses the file system. -/
def attempt {α : Type} (action : IO α) : IO (Except FileError α) := do
  try
    return .ok (← action)
  catch error =>
    return .error (fileError error)

/-- The real files. -/
def files : Files IO where
  openFile path := attempt do
    let handle ← IO.FS.Handle.mk path.text .read
    attempt handle.readBinToEnd
  isPresent path := do
    match ← attempt (IO.FS.Handle.mk path.text .read) with
    | .ok _ => return true
    | .error .notFound | .error .notDirectory | .error .nameTooLong => return false
    | .error _ => return true
  create path := attempt do
    let _ ← IO.FS.Handle.mk path.text .write
  write path content := attempt do
    let handle ← IO.FS.Handle.mk path.text .write
    handle.write content
    handle.flush

/-- The variables of the process. -/
def environment : IO Program.Environment := do
  return {
    config := ← IO.getEnv "COMPDB_CONFIG"
    logLevel := ← IO.getEnv "COMPDB_LOG_LEVEL"
    logJson := ← IO.getEnv "COMPDB_LOG_JSON" }

end CompileCommands.CommandLine

open CompileCommands in
def main (arguments : List String) : IO UInt32 := do
  let outcome ← Program.execute CommandLine.files (← CommandLine.environment) arguments
  IO.print outcome.answer
  for line in outcome.complaints do
    IO.eprintln line.render
  return outcome.exitCode
