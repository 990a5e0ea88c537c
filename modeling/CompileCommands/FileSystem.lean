/-
File systems in memory.

A file system says what is at every location, and in which directory relative paths
start.  A path is followed step by step: whatever it leads through has to be a directory,
and only what its last step names may be missing.

There are directories and regular files, each with one name.  There are no links, so two
locations never hold the same file, and no devices, so a file that was written gives back
its content.  Nothing is said of rights and of full disks either: opening fails only for the
reasons named here.  What is proved of runs over a file system holds as far as this goes.
-/
import CompileCommands.FileError
import CompileCommands.Path

namespace CompileCommands

/-- A place in a file system: the names on the way to it from the root. -/
abbrev Location := List String

/-- What is at a location. -/
inductive FileNode
  | directory
  | file (content : ByteArray)

structure FileSystem where
  /-- What is at a location below the root. -/
  below : Location → Option FileNode
  workingDirectory : Location

namespace FileSystem

/-- What is at a location; the root is a directory. -/
def node? (fs : FileSystem) : Location → Option FileNode
  | [] => some .directory
  | location => fs.below location

/-! ### Following a path -/

/-- The greatest number of bytes of a name. -/
def nameLimit : Nat := 255

/-- The number of bytes that a path has to stay below. -/
def pathLimit : Nat := 4096

/-- The steps of a path. -/
def steps (path : Path) : List String := (Text.pieces '/' path.text.toList).map String.ofList

/-- Where the steps of a path start. -/
def start (fs : FileSystem) (path : Path) : Location :=
  if path.isAbsolute then [] else fs.workingDirectory

/-- The location that some steps lead to.  Every step starts from a directory; an empty step and
`.` stay there. -/
def follow (fs : FileSystem) (here : Location) : List String → Except FileError Location
  | [] => .ok here
  | step :: rest =>
      match fs.node? here with
      | none => .error .notFound
      | some (.file _) => .error .notDirectory
      | some .directory =>
          if step = "" ∨ step = "." then follow fs here rest
          else if step = ".." then follow fs here.dropLast rest
          else if nameLimit < step.utf8ByteSize then .error .nameTooLong
          else follow fs (here ++ [step]) rest

/-- A path that can be followed at all. -/
def checkSpelling (path : Path) : Except FileError Unit :=
  if '\x00' ∈ path.text.toList then .error .zeroInPath
  else if path.isEmpty then .error .notFound
  else if pathLimit ≤ path.text.utf8ByteSize then .error .nameTooLong
  else .ok ()

/-- The location that a path leads to. -/
def resolve (fs : FileSystem) (path : Path) : Except FileError Location := do
  checkSpelling path
  fs.follow (fs.start path) (steps path)

/-! ### Reading -/

/-- Is there a file or a directory? -/
def isPresent (fs : FileSystem) (path : Path) : Bool :=
  match fs.resolve path with
  | .ok location => (fs.node? location).isSome
  | .error _ => false

/-- Opens a file, and gives what comes of reading it.  A directory can be opened but not read. -/
def openFile (fs : FileSystem) (path : Path) : Except FileError (Except FileError ByteArray) := do
  match fs.node? (← fs.resolve path) with
  | none => throw .notFound
  | some .directory => return .error .isDirectory
  | some (.file content) => return .ok content

/-! ### Writing -/

/-- Puts something at a location. -/
def put (fs : FileSystem) (location : Location) (node : FileNode) : FileSystem :=
  { fs with below := fun l => if l = location then some node else fs.below l }

/-- The steps of a path without the last one that is not empty. -/
def parentSteps (path : Path) : List String :=
  (((steps path).reverse.dropWhile (· = "")).drop 1).reverse

/-- The location of a file that is to be written.  A path with a slash at its end cannot name a
file, whatever it leads to. -/
def fileLocation (fs : FileSystem) (path : Path) : Except FileError Location := do
  checkSpelling path
  if path.text.toList.getLast? = some '/' then
    let _ ← fs.follow (fs.start path) (parentSteps path ++ ["."])
    throw .isDirectory
  let location ← fs.follow (fs.start path) (steps path)
  match fs.node? location with
  | some .directory => throw .isDirectory
  | _ => return location

/-- Writes a file, in place of one that is there. -/
def write (fs : FileSystem) (path : Path) (content : ByteArray) : Except FileError FileSystem := do
  return fs.put (← fs.fileLocation path) (.file content)

/-- Makes an empty file, in place of one that is there. -/
def create (fs : FileSystem) (path : Path) : Except FileError FileSystem := fs.write path .empty

/-- Takes a file away. -/
def remove (fs : FileSystem) (path : Path) : Except FileError FileSystem := do
  let location ← fs.fileLocation path
  if (fs.node? location).isNone then throw .notFound
  return { fs with below := fun l => if l = location then none else fs.below l }

/-! ### Setting up -/

/-- A file system with a working directory and nothing else in it. -/
def empty (workingDirectory : Location) : FileSystem where
  below location := if location.isPrefixOf workingDirectory then some .directory else none
  workingDirectory := workingDirectory

/-- Makes a directory wherever some steps lead to a free location. -/
def makeDirectoriesFrom (fs : FileSystem) (here : Location) :
    List String → Except FileError FileSystem
  | [] => .ok fs
  | step :: rest =>
      if step = "" ∨ step = "." then makeDirectoriesFrom fs here rest
      else if step = ".." then makeDirectoriesFrom fs here.dropLast rest
      else if nameLimit < step.utf8ByteSize then .error .nameTooLong
      else match fs.node? (here ++ [step]) with
        | none => makeDirectoriesFrom (fs.put (here ++ [step]) .directory) (here ++ [step]) rest
        | some .directory => makeDirectoriesFrom fs (here ++ [step]) rest
        | some (.file _) => .error .notDirectory

/-- Makes the directories that a path leads through, and the one it leads to. -/
def makeDirectories (fs : FileSystem) (path : Path) : Except FileError FileSystem :=
  fs.makeDirectoriesFrom (fs.start path) (steps path)

/-- Writes a file, and makes the directories that lead to it. -/
def place (fs : FileSystem) (path : Path) (content : ByteArray) :
    Except FileError FileSystem := do
  let prepared ← fs.makeDirectoriesFrom (fs.start path) (parentSteps path)
  prepared.write path content

end FileSystem

/-! ### Access from a program -/

/-- Files as a program sees them whose effects are those of `m`. -/
structure Files (m : Type → Type) where
  /-- Opens a file; what comes of reading it to its end is a result of its own. -/
  openFile : Path → m (Except FileError (Except FileError ByteArray))
  isPresent : Path → m Bool
  /-- Makes an empty file, in place of one that is there. -/
  create : Path → m (Except FileError Unit)
  write : Path → ByteArray → m (Except FileError Unit)

namespace FileSystem

/-- Runs a change of the file system, which stays as it is when the change fails. -/
def apply (change : FileSystem → Except FileError FileSystem) :
    StateM FileSystem (Except FileError Unit) := fun fs =>
  match change fs with
  | .ok changed => (.ok (), changed)
  | .error cause => (.error cause, fs)

/-- The files of a file system in memory. -/
def files : Files (StateM FileSystem) where
  openFile path fs := (fs.openFile path, fs)
  isPresent path fs := (fs.isPresent path, fs)
  create path := apply fun fs => fs.create path
  write path content := apply fun fs => fs.write path content

end FileSystem

end CompileCommands
