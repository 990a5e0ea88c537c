/-
Command lines cut into flags.

The arguments after the program name are read from left to right.  A flag takes its
value along when the value is an argument of its own; every other argument stands for
itself.  Nothing is dropped: the arguments of the flags, put together, are the command
line.
-/
import CompileCommands.Flag.Table
import CompileCommands.SourceFile

namespace CompileCommands.Flag

/-- Is the argument spelled like a flag?  A lone dash is not. -/
def isSpelledAsFlag (argument : String) : Bool :=
  match argument.toList with
  | '-' :: _ :: _ => true
  | _ => false

/-- How many of the arguments belong to the flag at the head, and its kind. -/
def classify (arguments : List String) : Nat × FlagKind :=
  match arguments with
  | [] => (0, .other)
  | word :: _ =>
      if isSpelledAsFlag word then (lookup table arguments).getD (1, .other)
      else match SourceFile.role word with
        | .source => (1, .source)
        | .linkerInput => (1, .linkerInput)
        | .other => (1, .other)

/-- The flags of a command line, without the program name. -/
def parse : List String → List Flag
  | [] => []
  | [word] => [⟨[word], (classify [word]).2⟩]
  | word :: next :: rest =>
      let (count, kind) := classify (word :: next :: rest)
      if count = 2 then ⟨[word, next], kind⟩ :: parse rest
      else ⟨[word], kind⟩ :: parse (next :: rest)

end CompileCommands.Flag
