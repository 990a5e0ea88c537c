/-
Families of compilers, known by the names of their programs.

A name belongs to a family when it is one of the family's plain names, or one of its
stems behind any target (`aarch64-linux-gnu-gcc`) and, where the family has versions, in
front of a version (`gcc-12`, `clang++17.0.1`).  Digits of all scripts count as digits.
-/
import CompileCommands.Path

namespace CompileCommands

namespace Text

/-! ### Digits

The characters of the general category Nd come in runs of ten, the digits zero to nine in order.
The table gives the zero of each run as of version 16 of the Unicode standard. -/

/-- The code points of the zeros. -/
def decimalZeros : List Nat := [
  0x30, 0x660, 0x6F0, 0x7C0, 0x966, 0x9E6, 0xA66, 0xAE6, 0xB66, 0xBE6, 0xC66, 0xCE6, 0xD66, 0xDE6,
  0xE50, 0xED0, 0xF20, 0x1040, 0x1090, 0x17E0, 0x1810, 0x1946, 0x19D0, 0x1A80, 0x1A90, 0x1B50,
  0x1BB0, 0x1C40, 0x1C50, 0xA620, 0xA8D0, 0xA900, 0xA9D0, 0xA9F0, 0xAA50, 0xABF0, 0xFF10, 0x104A0,
  0x10D30, 0x10D40, 0x11066, 0x110F0, 0x11136, 0x111D0, 0x112F0, 0x11450, 0x114D0, 0x11650,
  0x116C0, 0x116D0, 0x116DA, 0x11730, 0x118E0, 0x11950, 0x11BF0, 0x11C50, 0x11D50, 0x11DA0,
  0x11F50, 0x16130, 0x16A60, 0x16AC0, 0x16B50, 0x16D70, 0x1CCF0, 0x1D7CE, 0x1D7D8, 0x1D7E2,
  0x1D7EC, 0x1D7F6, 0x1E140, 0x1E2F0, 0x1E4F0, 0x1E5F1, 0x1E950, 0x1FBF0]

/-- Is the character a decimal digit of some script? -/
def isDecimalDigit (c : Char) : Bool :=
  decimalZeros.any fun first => first ≤ c.toNat && c.toNat ≤ first + 9

end Text

/-! ### Names -/

/-- The names of a family. -/
structure NamePattern where
  /-- Names that stand alone. -/
  plain : List String := []
  /-- Names that may stand behind a target. -/
  stems : List String := []
  /-- May a version follow a stem? -/
  versioned : Bool := false

namespace NamePattern

/-- The parts of a name that a target may stand before: the name itself, and whatever follows a
dash in it. -/
def afterTarget : List Char → List (List Char)
  | [] => [[]]
  | c :: rest => (c :: rest) :: go (c :: rest)
where
  /-- Whatever follows a dash. -/
  go : List Char → List (List Char)
    | [] => []
    | c :: rest => if c = '-' then rest :: go rest else go rest

/-- One to three numbers with dots between them. -/
def isVersion (text : List Char) : Bool :=
  let numbers := Text.pieces '.' text
  numbers.length ≤ 3 && numbers.all fun number => !number.isEmpty && number.all Text.isDecimalDigit

/-- Nothing, or a version, which a dash may set apart. -/
def isVersionTail : List Char → Bool
  | [] => true
  | '-' :: version => isVersion version
  | version => isVersion version

/-- The rest of `text` behind `stem`. -/
def behind? (stem text : List Char) : Option (List Char) :=
  if stem.isPrefixOf text then some (text.drop stem.length) else none

/-- Does the text consist of one of the stems and what may follow it? -/
def matchesStem (pattern : NamePattern) (text : List Char) : Bool :=
  pattern.stems.any fun stem =>
    match behind? stem.toList text with
    | some tail => tail.isEmpty || (pattern.versioned && isVersionTail tail)
    | none => false

/-- Does the name belong to the family? -/
def accepts (pattern : NamePattern) (name : String) : Bool :=
  pattern.plain.contains name || (afterTarget name.toList).any pattern.matchesStem

end NamePattern

/-- The families that are known without configuration. -/
inductive Family
  | gcc
  | clang
  /-- Programs that run the compiler named by their first argument. -/
  | launcher
  | cuda
  | linker
  deriving DecidableEq, Repr

namespace Family

/-- All families, the one that is asked first at the head. -/
def all : List Family := [gcc, clang, launcher, cuda, linker]

def title : Family → String
  | gcc => "GCC"
  | clang => "clang"
  | launcher => "wrapper"
  | cuda => "CUDA"
  | linker => "linker"

def names : Family → NamePattern
  | gcc => {
      plain := ["cc", "c++", "cxx", "CC"]
      stems := ["mcc", "m++", "gcc", "g++", "fortran", "gfortran"]
      versioned := true }
  | clang => { stems := ["clang", "clang++"], versioned := true }
  | launcher => { plain := ["ccache", "distcc", "sccache"] }
  | cuda => { plain := ["nvcc"] }
  | linker => {
      stems := ["ld", "ld.bfd", "ld.gold", "ld.lld", "lld", "ld64", "ld64.lld", "gold", "mold"] }

/-- Is the program of this family?  Only its file name counts. -/
def recognizes (family : Family) (program : Path) : Bool :=
  program.fileName?.any family.names.accepts

end Family

end CompileCommands
