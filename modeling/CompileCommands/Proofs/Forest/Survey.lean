/-
What a survey tells.

A survey keeps four collections and adds one record at a time.  Here each of them is said in
terms of the records that were added, and `Survey.Tells` puts the four together: it holds of the
empty survey, one record keeps it up, and so it holds behind the last one.

Only the awaited ids need a thought.  An id leaves them when it is recorded, and it does not
come back, since it is among the recorded ids from then on.  So the awaited ids are those that
were named and never recorded, in whatever order the records came.
-/
import CompileCommands.Forest.Basic

namespace CompileCommands.Forest

variable {ε : Type} {id parent : ε → Pid}

/-! ### Children -/

@[simp]
theorem getD_insertIfNew_empty (offspring : Std.HashMap Pid (Array Pid)) (pid x : Pid) :
    (offspring.insertIfNew pid #[]).getD x #[] = offspring.getD x #[] := by
  rw [Std.HashMap.getD_insertIfNew]
  split
  · rename_i h
    obtain ⟨hpid, hnew⟩ := h
    rw [← eq_of_beq hpid, Std.HashMap.getD_eq_fallback hnew]
  · rfl

@[simp]
theorem getD_adopt (offspring : Std.HashMap Pid (Array Pid)) (parent child x : Pid) :
    (adopt offspring parent child).getD x #[]
      = if parent = x then (offspring.getD x #[]).push child else offspring.getD x #[] := by
  rw [adopt, Std.HashMap.getD_alter]
  by_cases h : parent = x
  · simp [h, Std.HashMap.getD_eq_getD_getElem?]
  · simp [h]

@[simp]
theorem mem_adopt {offspring : Std.HashMap Pid (Array Pid)} {parent child x : Pid} :
    x ∈ adopt offspring parent child ↔ x = parent ∨ x ∈ offspring := by
  rw [adopt, Std.HashMap.mem_alter]
  by_cases h : parent = x
  · simp [h]
  · simp [h, Ne.symm h]

/-! ### All four collections -/

/-- The survey is that of the records. -/
structure Survey.Tells (id parent : ε → Pid) (records : List ε) (survey : Survey ε) : Prop where
  /-- The entry of an id is the last record that has it. -/
  entries : ∀ pid, survey.entries[pid]? = (records.filter fun r => id r = pid).getLast?
  /-- The children of an id are the records that name it, in their order. -/
  children : ∀ pid,
    (survey.offspring.getD pid #[]).toList = (records.filter fun r => parent r = pid).map id
  /-- Children are kept for the ids that were recorded or named. -/
  mem_offspring : ∀ pid,
    pid ∈ survey.offspring ↔ (∃ r ∈ records, id r = pid) ∨ ∃ r ∈ records, parent r = pid
  recorded : ∀ pid, pid ∈ survey.recorded ↔ ∃ r ∈ records, id r = pid
  /-- An id is awaited when it was named and not recorded. -/
  awaited : ∀ pid,
    pid ∈ survey.awaited ↔ (∃ r ∈ records, parent r = pid) ∧ ∀ r ∈ records, id r ≠ pid

namespace Survey

variable {records : List ε} {survey : Survey ε}

theorem tells_nil : ({} : Survey ε).Tells id parent [] where
  entries pid := by simp
  children pid := by simp
  mem_offspring pid := by simp
  recorded pid := by simp
  awaited pid := by simp

theorem mem_awaited_add {r : ε} {pid : Pid} :
    pid ∈ (survey.add id parent r).awaited
      ↔ id r ≠ pid ∧ (pid ∈ survey.awaited ∨ parent r = pid ∧ pid ∉ survey.recorded) := by
  have hrecorded : (survey.recorded.insert (id r)).contains (parent r) = true
      ↔ id r = parent r ∨ parent r ∈ survey.recorded := by
    rw [Std.HashSet.contains_iff_mem, Std.HashSet.mem_insert, beq_iff_eq]
  show pid ∈ (if (survey.recorded.insert (id r)).contains (parent r)
    then survey.awaited.erase (id r)
    else (survey.awaited.erase (id r)).insert (parent r)) ↔ _
  split
  · rename_i h
    rw [hrecorded] at h
    rw [Std.HashSet.mem_erase, beq_eq_false_iff_ne]
    grind
  · rename_i h
    rw [hrecorded] at h
    rw [Std.HashSet.mem_insert, Std.HashSet.mem_erase, beq_iff_eq, beq_eq_false_iff_ne]
    grind

/-- One more record. -/
theorem Tells.add (h : survey.Tells id parent records) (r : ε) :
    (survey.add id parent r).Tells id parent (records ++ [r]) where
  entries pid := by
    rw [Survey.add, Std.HashMap.getElem?_insert, h.entries, List.filter_append]
    by_cases hr : id r = pid
    · simp [hr]
    · simp [hr]
  children pid := by
    by_cases hr : parent r = pid
    · simp [Survey.add, hr, h.children]
    · simp [Survey.add, hr, h.children]
  mem_offspring pid := by
    rw [Survey.add, mem_adopt, Std.HashMap.mem_insertIfNew, h.mem_offspring, beq_iff_eq]
    simp only [List.mem_append, List.mem_singleton]
    grind
  recorded pid := by
    rw [Survey.add, Std.HashSet.mem_insert, h.recorded, beq_iff_eq]
    simp only [List.mem_append, List.mem_singleton]
    grind
  awaited pid := by
    rw [mem_awaited_add, h.awaited, h.recorded]
    simp only [List.mem_append, List.mem_singleton]
    grind

theorem Tells.foldl (rest : List ε) : ∀ {records : List ε} {survey : Survey ε},
    survey.Tells id parent records →
      (rest.foldl (Survey.add id parent) survey).Tells id parent (records ++ rest) := by
  induction rest with
  | nil =>
    intro records survey h
    rwa [List.append_nil]
  | cons r rest ih =>
    intro records survey h
    have hrest := ih (h.add r)
    rwa [List.append_assoc, List.singleton_append] at hrest

theorem Tells.mem_entries (h : survey.Tells id parent records) {pid : Pid} :
    pid ∈ survey.entries ↔ ∃ r ∈ records, id r = pid := by
  rw [← Std.HashMap.isSome_getElem?_iff_mem, h.entries, List.getLast?_isSome]
  simp

end Survey

/-- **A survey tells what its records say**, in whatever order they come. -/
theorem tells_survey (records : List ε) :
    (survey id parent records).Tells id parent records :=
  Survey.tells_nil.foldl records

end CompileCommands.Forest
