/-
What can go wrong with a file.
-/
namespace CompileCommands

inductive FileError
  | notFound
  | notDirectory
  | isDirectory
  | nameTooLong
  /-- The path holds a zero character, which no file system takes. -/
  | zeroInPath
  /-- The file was to be a text and is not UTF-8. -/
  | notUtf8
  /-- Anything else, in the words of the system. -/
  | other (message : String)
  deriving DecidableEq, Repr

def FileError.message : FileError → String
  | notFound => "No such file or directory (os error 2)"
  | notDirectory => "Not a directory (os error 20)"
  | isDirectory => "Is a directory (os error 21)"
  | nameTooLong => "File name too long (os error 36)"
  | zeroInPath => "file name contained an unexpected NUL byte"
  | notUtf8 => "stream did not contain valid UTF-8"
  | other message => message

end CompileCommands
