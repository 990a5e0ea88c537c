/-
Walks over forests that differ in repeated children.

A walk visits an id where it first comes to it, so a child that a record repeats is not visited
again, and neither is it visited earlier.  What counts of a list of children is therefore what is
left when everything but the first occurrences is dropped.  Two forests with the same roots and
entries whose children agree in this way have the same levels, and the walks over them are the same.

Records that are recorded again change nothing else about a forest, as long as the last record of
every id stays what it was.
-/
import Mathlib.Data.List.Induction
import CompileCommands.Proofs.Forest.Levels

namespace CompileCommands

/-! ### First occurrences -/

section FirstOccurrences

variable {pids extra : List Pid}

theorem eraseDups_append_of_subset (h : ∀ pid ∈ extra, pid ∈ pids) :
    (pids ++ extra).eraseDups = pids.eraseDups := by
  have hnothing : extra.removeAll pids = [] := by
    rw [List.removeAll, List.filter_eq_nil_iff]
    intro pid hpid
    simpa using h pid hpid
  rw [List.eraseDups_append, hnothing]
  exact List.append_nil _

theorem eraseDups_concat_of_notMem {pid : Pid} (h : pid ∉ pids) :
    (pids ++ [pid]).eraseDups = pids.eraseDups ++ [pid] := by
  have hkept : [pid].removeAll pids = [pid] := by simp [List.removeAll, h]
  rw [List.eraseDups_append, hkept]
  rfl

/-- First occurrences stay first among the ids that pass a test. -/
theorem eraseDups_filter (p : Pid → Bool) (pids : List Pid) :
    (pids.filter p).eraseDups = pids.eraseDups.filter p := by
  induction pids using List.reverseRecOn with
  | nil => rfl
  | append_singleton pids pid ih =>
    rw [List.filter_append]
    by_cases hbefore : pid ∈ pids
    · have hwhole : (pids ++ [pid]).eraseDups = pids.eraseDups :=
        eraseDups_append_of_subset (by simpa using hbefore)
      rw [hwhole, ← ih]
      refine eraseDups_append_of_subset fun x hx => ?_
      obtain ⟨hx, hpass⟩ := List.mem_filter.mp hx
      exact List.mem_filter.mpr ⟨List.mem_singleton.mp hx ▸ hbefore, hpass⟩
    · rw [eraseDups_concat_of_notMem hbefore, List.filter_append, ← ih]
      cases hpass : p pid with
      | true =>
        rw [List.filter_cons_of_pos hpass, List.filter_nil]
        exact eraseDups_concat_of_notMem fun hmem => hbefore (List.mem_filter.mp hmem).1
      | false => simp [hpass]

/-- The first occurrences in two parts decide about those in the whole. -/
theorem eraseDups_append_congr {front back front' back' : List Pid}
    (hfront : front'.eraseDups = front.eraseDups) (hback : back'.eraseDups = back.eraseDups) :
    (front' ++ back').eraseDups = (front ++ back).eraseDups := by
  have hmem : ∀ pid, pid ∈ front' ↔ pid ∈ front := fun pid => by
    rw [← List.mem_eraseDups, hfront, List.mem_eraseDups]
  have helem : (fun pid => !List.elem pid front') = fun pid => !List.elem pid front := by
    funext pid
    simp [hmem pid]
  rw [List.eraseDups_append, List.eraseDups_append, List.removeAll, List.removeAll,
    eraseDups_filter, eraseDups_filter, hfront, hback, helem]

theorem eraseDups_flatMap_congr {f g : Pid → List Pid} (pids : List Pid)
    (h : ∀ pid, (g pid).eraseDups = (f pid).eraseDups) :
    (pids.flatMap g).eraseDups = (pids.flatMap f).eraseDups := by
  induction pids with
  | nil => rfl
  | cons pid pids ih =>
    rw [List.flatMap_cons, List.flatMap_cons]
    exact eraseDups_append_congr (h pid) ih

end FirstOccurrences

namespace Forest

variable {ε ρ ω : Type}

/-! ### Forests that a walk does not tell apart -/

/-- The forests agree but for repeated children. -/
structure Alike (forest other : Forest ε) : Prop where
  find : ∀ pid, other.find? pid = forest.find? pid
  roots : other.roots = forest.roots
  children : ∀ pid, (other.children pid).eraseDups = (forest.children pid).eraseDups

section Alike

variable {forest other : Forest ε} (h : Alike forest other) (visit : ε → Except ρ (List ω))

include h

theorem Alike.opened (level : List Pid) :
    (other.opened visit level).eraseDups = (forest.opened visit level).eraseDups := by
  refine eraseDups_flatMap_congr level fun pid => ?_
  rw [Walk.opened, Walk.opened, h.find]
  split
  · exact h.children pid
  · rfl

/-- Level after level agrees. -/
theorem Alike.level (k : Nat) :
    other.above visit k = forest.above visit k ∧ other.level visit k = forest.level visit k := by
  induction k with
  | zero => exact ⟨rfl, h.roots⟩
  | succ k ih =>
    obtain ⟨habove, hlevel⟩ := ih
    constructor
    · rw [Forest.above, Forest.above, habove, hlevel]
    · rw [Forest.level, Forest.level, eraseDups_filter, eraseDups_filter, habove, hlevel, h.opened]

end Alike

variable {id parent : ε → Pid} {records others : List ε}

/-- The walks over forests that agree but for repeated children are the same. -/
theorem Alike.walk (h : Alike (ofRecords id parent records) (ofRecords id parent others))
    (visit : ε → Except ρ (List ω)) :
    ((ofRecords id parent others).walk visit).visited
        = ((ofRecords id parent records).walk visit).visited
      ∧ ((ofRecords id parent others).walk visit).outputs
        = ((ofRecords id parent records).walk visit).outputs := by
  obtain ⟨habove, hlevel⟩ := h.level visit records.length
  have hempty : (ofRecords id parent records).level visit records.length = [] :=
    level_length_eq_nil
  have hvisited : ((ofRecords id parent others).walk visit).visited
      = ((ofRecords id parent records).walk visit).visited := by
    rw [visited_walk_of_level_eq_nil shows_ofRecords.complete nodup_roots_ofRecords hempty,
      visited_walk_of_level_eq_nil shows_ofRecords.complete nodup_roots_ofRecords
        (hlevel.trans hempty), habove]
  refine ⟨hvisited, ?_⟩
  rw [outputs_walk, outputs_walk, hvisited, funext h.find]

/-! ### Repeated records -/

/-- Some of the records, with the last record of each id that they have. -/
structure Repeats (id : ε → Pid) (records repeated : List ε) : Prop where
  mem : ∀ r ∈ repeated, r ∈ records
  last : ∀ r ∈ repeated, (repeated.filter fun other => id other = id r).getLast?
    = (records.filter fun other => id other = id r).getLast?

theorem Repeats.refl (records : List ε) : Repeats id records records where
  mem _ hr := hr
  last _ _ := rfl

section Repeats

variable {repeated : List ε} (h : Repeats id records repeated)

include h

theorem Repeats.mem_append {r : ε} : r ∈ records ++ repeated ↔ r ∈ records := by
  rw [List.mem_append]
  exact ⟨fun hr => hr.elim (fun hr => hr) (h.mem r), .inl⟩

theorem Repeats.find?_append (pid : Pid) :
    (ofRecords id parent (records ++ repeated)).find? pid
      = (ofRecords id parent records).find? pid := by
  simp only [find?_ofRecords, List.filter_append, List.getLast?_append]
  by_cases hpid : ∃ r ∈ repeated, id r = pid
  · obtain ⟨r, hr, rfl⟩ := hpid
    rw [h.last r hr, Option.or_self]
  · have hnone : repeated.filter (fun r => id r = pid) = [] := by
      rw [List.filter_eq_nil_iff]
      exact fun r hr hid => hpid ⟨r, hr, by simpa using hid⟩
    rw [hnone, List.getLast?_nil, Option.none_or]

theorem Repeats.roots_append :
    (ofRecords id parent (records ++ repeated)).roots = (ofRecords id parent records).roots := by
  have hmem : ∀ pid, pid ∈ (ofRecords id parent (records ++ repeated)).roots
      ↔ pid ∈ (ofRecords id parent records).roots := fun pid => by
    simp only [mem_roots_ofRecords, h.mem_append]
  refine List.Perm.eq_of_pairwise (fun a b _ _ hab hba => absurd hba (UInt32.lt_asymm hab))
    shows_ofRecords.ascending shows_ofRecords.ascending ?_
  exact (List.perm_ext_iff_of_nodup nodup_roots_ofRecords nodup_roots_ofRecords).mpr hmem

/-- A repeated record is a child again, behind all that its parent had. -/
theorem Repeats.eraseDups_children_append (pid : Pid) :
    ((ofRecords id parent (records ++ repeated)).children pid).eraseDups
      = ((ofRecords id parent records).children pid).eraseDups := by
  have hcontains : (ofRecords id parent (records ++ repeated)).contains pid
      = (ofRecords id parent records).contains pid := by
    rw [Bool.eq_iff_iff]
    simp only [contains_ofRecords, h.mem_append]
  rw [children, children, shows_ofRecords.children, shows_ofRecords.children, hcontains]
  split
  · rw [Option.getD_some, Option.getD_some, List.filter_append, List.map_append]
    refine eraseDups_append_of_subset fun child hchild => ?_
    obtain ⟨r, hr, rfl⟩ := List.mem_map.mp hchild
    obtain ⟨hr, hparent⟩ := List.mem_filter.mp hr
    exact List.mem_map.mpr ⟨r, List.mem_filter.mpr ⟨h.mem r hr, hparent⟩, rfl⟩
  · rfl

/-- A forest does not change in the eyes of a walk when records are repeated. -/
theorem Repeats.alike :
    Alike (ofRecords id parent records) (ofRecords id parent (records ++ repeated)) where
  find := h.find?_append
  roots := h.roots_append
  children := h.eraseDups_children_append

end Repeats

end Forest

end CompileCommands
