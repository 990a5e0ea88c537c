/-
Tools: whatever tells a compiler by its program and knows its command line.

Anything that answers three questions can be a tool.  The tools of this library are the
families and the compilers that the configuration declares by their exact paths.  All of
them read GCC-like command lines; a launcher reads the command line of the compiler it
launches, and a declared compiler adjusts the flags of its records.
-/
import CompileCommands.Compiler.Driver
import CompileCommands.Compiler.Family

namespace CompileCommands

/-- What can be asked of tools of some type.  A tool always gives the same answer. -/
class ToolLike (τ : Type) where
  title : τ → String
  /-- Does the program belong to the tool? -/
  recognizes : Path → τ → Bool
  /-- What a command of the tool did. -/
  invocations : Command → τ → Except Rejection (List Invocation)

/-- A compiler known by its path, with changes to the flags of its records. -/
structure DeclaredCompiler where
  executable : Path
  flagsToAdd : List String := []
  flagsToRemove : List String := []
  deriving DecidableEq, Repr

/-- The flags of a declared compiler: the unwanted ones are dropped, wherever they stand, and
the additional ones come last. -/
def DeclaredCompiler.adjust (compiler : DeclaredCompiler) (flags : List String) : List String :=
  flags.filter (fun flag => !compiler.flagsToRemove.contains flag) ++ compiler.flagsToAdd

/-- The command that a launcher runs: its first argument is the compiler.  A compiler with a
slash in its name is looked up from the working directory. -/
def Command.launched (command : Command) : Except Rejection Command :=
  match command.operands with
  | [] => .error .noWrappedCompiler
  | compiler :: arguments =>
      if compiler.toList.head? = some '-' then .error .noWrappedCompiler
      else .ok { command with
        program :=
          if compiler.toList.contains '/' then command.resolve ⟨compiler⟩ else ⟨compiler⟩
        arguments := compiler :: arguments }

inductive Tool
  | family (family : Family)
  | declared (compiler : DeclaredCompiler)
  deriving DecidableEq, Repr

namespace Tool

def title : Tool → String
  | family f => f.title
  | declared _ => "extending wrapper"

/-- Does the program belong to this tool? -/
def recognizes (program : Path) : Tool → Bool
  | family f => f.recognizes program
  | declared compiler => program.same compiler.executable

/-- What a command of this tool did. -/
def invocations (command : Command) : Tool → Except Rejection (List Invocation)
  | family .launcher => command.launched >>= Driver.invocations
  | family _ => Driver.invocations command
  | declared compiler =>
      (·.map (Invocation.mapFlags compiler.adjust)) <$> Driver.invocations command

instance : ToolLike Tool where
  title := title
  recognizes := recognizes
  invocations := invocations

end Tool

end CompileCommands
