/-
Two databases made one.

Entries that describe the same compilation are merged by keeping the first.  Where
every entry names its output, the source and the output tell compilations apart; where
one does not, the source, the directory and the arguments after the compiler do.
-/
import CompileCommands.Entry

namespace CompileCommands.Entry

/-- Equality of optional paths as paths. -/
def sameOutput : Option Path → Option Path → Bool
  | some a, some b => a.same b
  | none, none => true
  | _, _ => false

/-- The same compilation, by its source and its output. -/
def sameProduct (a b : Entry) : Bool := a.file.same b.file && sameOutput a.output b.output

/-- The same compilation, by its source, its directory and its arguments. -/
def sameCall (a b : Entry) : Bool :=
  a.file.same b.file && a.directory.same b.directory && a.operands? == b.operands?

/-- How compilations are told apart among some entries. -/
def equivalence (entries : List Entry) : Entry → Entry → Bool :=
  if entries.all (·.output.isSome) then sameProduct else sameCall

/-- Adds the entries of a list that are not equivalent to one that is already kept. -/
def keepFirst (same : Entry → Entry → Bool) (kept : List Entry) : List Entry → List Entry
  | [] => kept
  | entry :: rest =>
      if kept.any (same · entry) then keepFirst same kept rest
      else keepFirst same (kept ++ [entry]) rest

/-- The union of two databases. -/
def merge (left right : List Entry) : List Entry :=
  keepFirst (equivalence (left ++ right)) [] (left ++ right)

end CompileCommands.Entry
