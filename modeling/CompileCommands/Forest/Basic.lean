/-
Processes ordered by parenthood.

If every process of a build were recorded they would form one tree.  Some are not, so
the tree falls apart into a forest: a process whose parent was not recorded starts a
tree of its own.  Records may repeat an id, name themselves as parent, or name each
other in a cycle; the last record of an id is its entry, and every record counts as a
child of its parent.

The records are surveyed in one pass.  A parent may be recorded behind its children, so
only the end of the pass tells which ids are still awaited: those are given up, and the
children that they had collected are roots.
-/
import Std.Data.HashMap
import Std.Data.HashSet
import Std.Data.TreeSet
import CompileCommands.Trace

namespace CompileCommands

instance : Ord Pid := ⟨fun a b => compare a.number b.number⟩

structure Forest (ε : Type) where
  /-- The entry of every recorded id. -/
  entries : Std.HashMap Pid ε
  /-- The ids of the records that name a recorded id as their parent, in the order of the
  records. -/
  offspring : Std.HashMap Pid (Array Pid)
  /-- Where the trees start, in ascending order. -/
  roots : List Pid

namespace Forest

variable {ε : Type}

/-! ### Surveying the records -/

/-- What some records tell. -/
structure Survey (ε : Type) where
  /-- The last record of every recorded id. -/
  entries : Std.HashMap Pid ε := ∅
  /-- The children of every id that was recorded or named as a parent. -/
  offspring : Std.HashMap Pid (Array Pid) := ∅
  recorded : Std.HashSet Pid := ∅
  /-- The ids that were named as a parent and not recorded so far. -/
  awaited : Std.HashSet Pid := ∅

/-- Adds a child to those of `parent`. -/
def adopt (offspring : Std.HashMap Pid (Array Pid)) (parent child : Pid) :
    Std.HashMap Pid (Array Pid) :=
  offspring.alter parent fun siblings => some ((siblings.getD #[]).push child)

/-- Adds a record to what others told. -/
def Survey.add (id parent : ε → Pid) (survey : Survey ε) (r : ε) : Survey ε :=
  let recorded := survey.recorded.insert (id r)
  let awaited := survey.awaited.erase (id r)
  { entries := survey.entries.insert (id r) r
    offspring := adopt (survey.offspring.insertIfNew (id r) #[]) (parent r) (id r)
    recorded
    awaited := if recorded.contains (parent r) then awaited else awaited.insert (parent r) }

/-- What all of the records tell. -/
def survey (id parent : ε → Pid) (records : List ε) : Survey ε :=
  records.foldl (Survey.add id parent) {}

/-! ### Planting the trees -/

/-- The children of the ids that have a place in the forest, and the roots found so far. -/
structure Planting where
  offspring : Std.HashMap Pid (Array Pid)
  roots : Std.TreeSet Pid := ∅

/-- Decides about an id that some record names as its parent.  With an entry it is a root;
without one it is given up, and its children are roots. -/
def Planting.settle (entries : Std.HashMap Pid ε) (planting : Planting) (pid : Pid) : Planting :=
  if entries.contains pid then { planting with roots := planting.roots.insert pid }
  else match planting.offspring[pid]? with
    | none => planting
    | some children =>
        { offspring := planting.offspring.erase pid
          roots := planting.roots.insertMany children.toList }

/-- The forest of a survey whose awaited ids are gone through in some order. -/
def Survey.forest (survey : Survey ε) (order : List Pid) : Forest ε :=
  let planting := order.foldl (Planting.settle survey.entries) { offspring := survey.offspring }
  { entries := survey.entries
    offspring := planting.offspring
    roots := planting.roots.toList }

/-- The forest of some records, each with an id and the id of its parent. -/
def ofRecords (id parent : ε → Pid) (records : List ε) : Forest ε :=
  let survey := survey id parent records
  survey.forest survey.awaited.toList

/-! ### Looking at a forest -/

/-- Has the id a place in the forest? -/
def contains (forest : Forest ε) (pid : Pid) : Bool := forest.offspring.contains pid

def find? (forest : Forest ε) (pid : Pid) : Option ε := forest.entries[pid]?

/-- The children of an id; one that was not recorded has no place in the forest. -/
def children? (forest : Forest ε) (pid : Pid) : Option (List Pid) :=
  forest.offspring[pid]?.map Array.toList

def children (forest : Forest ε) (pid : Pid) : List Pid := (forest.children? pid).getD []

end Forest

end CompileCommands
