/-
Paths as a tracer or a user spells them.

A path keeps its spelling: nothing is normalized, and what is printed is what was
read.  Two spellings mean the same path when they have the same components, which is
how programs, entries and directories are compared.  Repeated slashes, inner and final
`.` components and trailing slashes make no difference; a leading `.` and every `..` do.
-/
import CompileCommands.Text.Pieces

namespace CompileCommands

/-- A path in its spelling. -/
structure Path where
  text : String
  deriving DecidableEq, Repr, Inhabited

namespace Path

/-- One step of a path. -/
inductive Component
  /-- The root directory, first component of an absolute path. -/
  | root
  /-- A leading `.` of a relative path. -/
  | here
  /-- The parent directory. -/
  | up
  | name (text : String)
  deriving DecidableEq, Repr

/-! ### Components -/

/-- The component a piece between two slashes stands for; empty pieces and `.` stand for none. -/
def Component.ofPiece? (piece : List Char) : Option Component :=
  if piece = [] ∨ piece = ['.'] then none
  else if piece = ['.', '.'] then some .up
  else some (.name (String.ofList piece))

/-- An absolute path starts with a slash. -/
def isAbsolute (p : Path) : Bool := p.text.toList.head? == some '/'

def isEmpty (p : Path) : Bool := p.text.isEmpty

/-- The component that only the start of a path can have: the root, or a leading `.`. -/
def leading (p : Path) : List Component :=
  if p.isAbsolute then [.root]
  else if (Text.pieces '/' p.text.toList).head? = some ['.'] then [.here]
  else []

/-- The meaning of a path. -/
def components (p : Path) : List Component :=
  p.leading ++ (Text.pieces '/' p.text.toList).filterMap Component.ofPiece?

/-- Two spellings of one path. -/
def same (p q : Path) : Bool := p.components == q.components

@[simp] theorem same_iff {p q : Path} : p.same q = true ↔ p.components = q.components := by
  simp [same]

@[simp] theorem same_refl (p : Path) : p.same p = true := by simp [same]

/-- Does the path lie at or below `directory`, compared component by component? -/
def isUnder (p directory : Path) : Bool := directory.components.isPrefixOf p.components

/-! ### Joining -/

/-- The path `p` as seen from `directory`: an absolute `p` stays, a relative one is appended
after exactly one slash, unless there is nothing to append it to or a slash stands there
already. -/
def join (directory p : Path) : Path :=
  if p.isAbsolute || directory.isEmpty then p
  else if directory.text.toList.getLast? == some '/' then ⟨directory.text ++ p.text⟩
  else ⟨directory.text ++ "/" ++ p.text⟩

/-! ### File names -/

/-- The last component, when it names something. -/
def fileName? (p : Path) : Option String :=
  match p.components.getLast? with
  | some (.name text) => some text
  | _ => none

/-- A file name around its last dot.  A name without a dot, one whose only dot is the first
character, and `..` have no extension. -/
def cutExtension (name : String) : Option (String × String) :=
  if name = ".." then none
  else match Text.cutAtLast '.' name.toList with
    | some (before, after) =>
        if before = [] then none else some (String.ofList before, String.ofList after)
    | none => none

def extension? (p : Path) : Option String :=
  p.fileName?.bind fun name => (cutExtension name).map (·.2)

/-- The file name without its extension. -/
def stem? (p : Path) : Option String :=
  p.fileName?.map fun name => ((cutExtension name).map (·.1)).getD name

end Path

end CompileCommands
