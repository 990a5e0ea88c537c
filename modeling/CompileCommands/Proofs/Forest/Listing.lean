/-
A walk read off the list of the records.

Everything that a forest holds can be said of its records, so a walk can be followed without the
forest: the last record of an id stands for its entry, the records that name an id as their parent
for its children, and an id that has a record whose parent was not recorded starts a tree.  Level
after level comes out of these lists.  There are no more levels than records, hence going through
as many levels as there are records is the whole walk.

The lists are the slower program by far.  They are what a walk over given records can be computed
with by hand, or by a proof.
-/
import Mathlib.Data.List.Sort
import CompileCommands.Proofs.Forest.Levels

namespace CompileCommands

/-! ### Ids in their order -/

theorem Pid.ascending_iff {a b : Pid} : a.ascending b = true ↔ a.number ≤ b.number :=
  decide_eq_true_iff

instance : IsTrans Pid fun a b => a.ascending b = true where
  trans _ _ _ hab hbc :=
    Pid.ascending_iff.mpr (UInt32.le_trans (Pid.ascending_iff.mp hab) (Pid.ascending_iff.mp hbc))

instance : Std.Total fun a b : Pid => a.ascending b = true where
  total a b := by
    rw [Pid.ascending_iff, Pid.ascending_iff]
    exact UInt32.le_total a.number b.number

namespace Forest

variable {ε ρ ω : Type}

/-! ### Levels without a forest -/

/-- The ids of some levels from one on, given the ids that were seen above it. -/
def listed (children : Pid → List Pid) (visit : ε → Except ρ (List ω)) (find : Pid → Option ε) :
    Nat → List Pid → List Pid → List Pid
  | 0, _, _ => []
  | k + 1, seen, level =>
      level ++ listed children visit find k (seen ++ level)
        ((level.flatMap (Walk.opened children visit find)).filter (· ∉ seen ++ level)).eraseDups

/-- The levels of a forest are those that its children and its entries lead to. -/
theorem above_add_eq {forest : Forest ε} {visit : ε → Except ρ (List ω)} (k n : Nat) :
    forest.above visit (k + n) = forest.above visit k
      ++ listed forest.children visit forest.find? n (forest.above visit k)
          (forest.level visit k) := by
  induction n generalizing k with
  | zero => exact (List.append_nil _).symm
  | succ n ih =>
    have hnext := ih (k + 1)
    rw [Nat.add_assoc, Nat.add_comm 1 n] at hnext
    rw [hnext, listed, ← List.append_assoc]
    rfl

/-! ### The records in place of a forest -/

section Records

variable (id parent : ε → Pid) (records : List ε)

/-- The last record of an id. -/
def lastRecord (pid : Pid) : Option ε := (records.filter fun r => id r = pid).getLast?

/-- The ids of the records that name an id as their parent, if that one was recorded. -/
def naming (pid : Pid) : List Pid :=
  if ∃ r ∈ records, id r = pid then (records.filter fun r => parent r = pid).map id else []

/-- The ids of the records whose parent was not recorded, each once and in their order. -/
def starting : List Pid :=
  ((records.filter fun r => ∀ p ∈ records, id p ≠ parent r).map id).dedup.insertionSort
    (·.ascending ·)

variable {id parent records}

theorem find?_eq_lastRecord : (ofRecords id parent records).find? = lastRecord id records :=
  funext (find?_ofRecords records)

theorem children_eq_naming : (ofRecords id parent records).children = naming id parent records := by
  funext pid
  have hrecorded : (ofRecords id parent records).contains pid = true
      ↔ ∃ r ∈ records, id r = pid := contains_ofRecords
  rw [Forest.children, shows_ofRecords.children, naming]
  by_cases hpid : ∃ r ∈ records, id r = pid
  · rw [if_pos (hrecorded.mpr hpid), if_pos hpid, Option.getD_some]
  · rw [if_neg (hpid ∘ hrecorded.mp), if_neg hpid, Option.getD_none]

/-- Roots are unique and in ascending order, and this leaves no choice. -/
theorem roots_eq_starting : (ofRecords id parent records).roots = starting id parent records := by
  refine List.Perm.eq_of_pairwise (fun a b _ _ hab hba => ?_)
    (shows_ofRecords.ascending.imp fun h => Pid.ascending_iff.mpr (UInt32.le_of_lt h))
    (List.pairwise_insertionSort _ _) ?_
  · have hnumber : a.number = b.number :=
      UInt32.le_antisymm (Pid.ascending_iff.mp hab) (Pid.ascending_iff.mp hba)
    cases a
    cases b
    exact congrArg Pid.mk hnumber
  · refine .trans ?_ (List.perm_insertionSort _ _).symm
    refine (List.perm_ext_iff_of_nodup nodup_roots_ofRecords (List.nodup_dedup _)).mpr fun pid => ?_
    simp only [mem_roots_ofRecords, List.mem_dedup, List.mem_map, List.mem_filter,
      decide_eq_true_eq]
    exact exists_congr fun r => by rw [and_assoc, and_comm (a := id r = pid)]

end Records

variable (id parent : ε → Pid) (visit : ε → Except ρ (List ω)) (records : List ε)

/-- The ids that a walk visits, in the order of the visits. -/
def listedIds : List Pid :=
  listed (naming id parent records) visit (lastRecord id records) records.length []
    (starting id parent records)

/-- The records that they stand for. -/
def listedVisits : List ε := (listedIds id parent visit records).filterMap (lastRecord id records)

/-- **A walk can be followed in the list of the records.** -/
theorem visited_walk_eq_listedIds :
    ((ofRecords id parent records).walk visit).visited = listedIds id parent visit records := by
  have hlisted : (ofRecords id parent records).above visit (0 + records.length)
      = [] ++ listed (ofRecords id parent records).children visit
          (ofRecords id parent records).find? records.length []
          (ofRecords id parent records).roots := above_add_eq 0 records.length
  rw [Nat.zero_add, List.nil_append] at hlisted
  rw [visited_walk_ofRecords, hlisted, find?_eq_lastRecord, children_eq_naming, roots_eq_starting,
    listedIds]

theorem visits_eq_listedVisits :
    ((ofRecords id parent records).walk visit).visited.filterMap (ofRecords id parent records).find?
      = listedVisits id parent visit records := by
  rw [visited_walk_eq_listedIds, find?_eq_lastRecord, listedVisits]

end Forest

end CompileCommands
