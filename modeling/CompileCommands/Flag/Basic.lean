/-
Flags of a compiler command line.

A flag is one argument, or one argument with the value that follows it, together with
what it does.  Only what decides the kind of call, the inputs and the output is told
apart; every other argument is kept as it is.
-/
namespace CompileCommands

/-- What a flag does. -/
inductive FlagKind
  /-- Shapes the call without choosing its product. -/
  | output
  /-- Stops before linking. -/
  | noLinking
  /-- Asks the compiler about itself. -/
  | information
  /-- Names the output file. -/
  | outputFile
  | preprocessor
  /-- Writes dependency rules. -/
  | dependencyRules
  | linker
  /-- An object or a library to link. -/
  | linkerInput
  | searchDirectory
  | linkerSearchDirectory
  /-- A source file. -/
  | source
  | other
  deriving DecidableEq, Repr

/-- A flag with the arguments it is made of: itself, and its value when that is an argument
of its own. -/
structure Flag where
  arguments : List String
  kind : FlagKind
  deriving DecidableEq, Repr

namespace Flag

/-- The flag without its value. -/
def name (flag : Flag) : String := flag.arguments.headD ""

/-- The value of a flag whose name is `stem`: the argument after it, or what is glued to the
name, unless that is nothing. -/
def value? (flag : Flag) (stem : String) : Option String :=
  match flag.arguments with
  | [_, value] => some value
  | [word] =>
      if stem.toList.isPrefixOf word.toList ∧ stem.length < word.length then
        some (String.ofList (word.toList.drop stem.length))
      else none
  | _ => none

end Flag

end CompileCommands
