/-
The flags that GCC-like drivers share.

Each definition gives the spelling of a flag, how it takes its value, and what it does.
An argument that is spelled exactly like a definition is that flag.  Any other argument
belongs to the longest definition that accepts it with a value attached.
-/
import CompileCommands.Flag.Basic

namespace CompileCommands

/-- How a flag takes its value. -/
inductive ValueForm
  /-- The flag stands alone. -/
  | none
  /-- The value is the next argument (`-Xlinker arg`). -/
  | separate
  /-- The value is glued to the flag or is the next argument (`-Idir`, `-I dir`). -/
  | glued
  /-- The value follows an equals sign (`-std=c11`). -/
  | equals
  /-- Every argument that starts with the name is the flag (`-Wl,...`, `-print-...`). -/
  | leading
  deriving DecidableEq, Repr

/-- A flag spelled alone in these forms owns the next argument. -/
def ValueForm.takesNext : ValueForm → Bool
  | separate | glued => true
  | none | equals | leading => false

structure FlagDefinition where
  name : String
  form : ValueForm
  kind : FlagKind
  deriving DecidableEq, Repr

/-- Is the argument this flag with a value attached? -/
def FlagDefinition.accepts (definition : FlagDefinition) (argument : String) : Bool :=
  let name := definition.name.toList
  let word := argument.toList
  match definition.form with
  | .glued => name.isPrefixOf word && name.length < word.length
  | .equals => (name ++ ['=']).isPrefixOf word
  | .leading => name.isPrefixOf word
  | .none | .separate => false

/-- A definition with the longest name; of several the last one. -/
def FlagDefinition.longest : List FlagDefinition → Option FlagDefinition
  | [] => none
  | first :: rest =>
      match longest rest with
      | none => some first
      | some best => if best.name.length < first.name.length then some first else some best

namespace Flag

/-- What a table says about the first of some arguments: how many of them belong to the flag
at the head, and its kind. -/
def lookup (table : List FlagDefinition) : List String → Option (Nat × FlagKind)
  | [] => none
  | word :: rest =>
      match table.find? (·.name == word) with
      | some exact =>
          some (if exact.form.takesNext then min 2 (rest.length + 1) else 1, exact.kind)
      | none =>
          (FlagDefinition.longest (table.filter (·.accepts word))).map fun best => (1, best.kind)

/-- The flags that GCC-like drivers share. -/
def table : List FlagDefinition := [
  ⟨"-x", .glued, .output⟩,
  ⟨"-c", .none, .noLinking⟩,
  ⟨"-S", .none, .noLinking⟩,
  ⟨"-E", .none, .noLinking⟩,
  ⟨"-o", .glued, .outputFile⟩,
  ⟨"-v", .none, .information⟩,
  ⟨"-###", .none, .information⟩,
  ⟨"--help", .leading, .information⟩,
  ⟨"--version", .none, .information⟩,
  ⟨"-dumpversion", .none, .information⟩,
  ⟨"-dumpfullversion", .none, .information⟩,
  ⟨"-dumpmachine", .none, .information⟩,
  ⟨"-dumpspecs", .none, .information⟩,
  ⟨"-print-", .leading, .information⟩,
  ⟨"--print-", .leading, .information⟩,
  ⟨"-pass-exit-codes", .none, .output⟩,
  ⟨"-pipe", .none, .output⟩,
  ⟨"-specs", .equals, .output⟩,
  ⟨"-wrapper", .separate, .output⟩,
  ⟨"-D", .glued, .preprocessor⟩,
  ⟨"-U", .glued, .preprocessor⟩,
  ⟨"-I", .glued, .preprocessor⟩,
  ⟨"-include", .separate, .preprocessor⟩,
  ⟨"-imacros", .separate, .preprocessor⟩,
  ⟨"-isystem", .glued, .preprocessor⟩,
  ⟨"-iquote", .glued, .preprocessor⟩,
  ⟨"-idirafter", .glued, .preprocessor⟩,
  ⟨"-iprefix", .glued, .preprocessor⟩,
  ⟨"-iwithprefix", .glued, .preprocessor⟩,
  ⟨"-iwithprefixbefore", .glued, .preprocessor⟩,
  ⟨"-isysroot", .glued, .preprocessor⟩,
  ⟨"-nostdinc", .none, .preprocessor⟩,
  ⟨"-nostdinc++", .none, .preprocessor⟩,
  ⟨"-undef", .none, .preprocessor⟩,
  ⟨"-Xpreprocessor", .separate, .preprocessor⟩,
  ⟨"-M", .none, .dependencyRules⟩,
  ⟨"-MM", .none, .dependencyRules⟩,
  ⟨"-MD", .none, .dependencyRules⟩,
  ⟨"-MMD", .none, .dependencyRules⟩,
  ⟨"-MG", .none, .dependencyRules⟩,
  ⟨"-MP", .none, .dependencyRules⟩,
  ⟨"-MF", .glued, .dependencyRules⟩,
  ⟨"-MT", .glued, .dependencyRules⟩,
  ⟨"-MQ", .glued, .dependencyRules⟩,
  ⟨"-l", .glued, .linker⟩,
  ⟨"-Wl,", .leading, .linker⟩,
  ⟨"-Xlinker", .separate, .linker⟩,
  ⟨"-u", .glued, .linker⟩,
  ⟨"-T", .glued, .linker⟩,
  ⟨"-shared", .none, .linker⟩,
  ⟨"-static", .none, .linker⟩,
  ⟨"-static-libgcc", .none, .linker⟩,
  ⟨"-static-libstdc++", .none, .linker⟩,
  ⟨"-rdynamic", .none, .linker⟩,
  ⟨"-pie", .none, .linker⟩,
  ⟨"-no-pie", .none, .linker⟩,
  ⟨"-s", .none, .linker⟩,
  ⟨"-nostdlib", .none, .linker⟩,
  ⟨"-nostartfiles", .none, .linker⟩,
  ⟨"-nodefaultlibs", .none, .linker⟩,
  ⟨"-L", .glued, .linkerSearchDirectory⟩,
  ⟨"-B", .glued, .searchDirectory⟩,
  ⟨"--sysroot", .equals, .searchDirectory⟩,
  ⟨"-Xassembler", .separate, .other⟩,
  ⟨"-Xclang", .separate, .other⟩,
  ⟨"-target", .separate, .other⟩,
  ⟨"-arch", .separate, .other⟩,
  ⟨"-aux-info", .separate, .other⟩,
  ⟨"--param", .separate, .other⟩]

end Flag

end CompileCommands
