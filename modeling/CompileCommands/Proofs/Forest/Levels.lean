/-
A walk goes level by level.

The first level holds the roots, the next one what its failing visits open, and so on; an id
stays on the first level that it comes to.  The walk has no levels, it has one queue, in which
the rest of a level stands in front of what was opened so far, and ids may stand there any
number of times.  What takes one to the other is the queue cut in two: whatever stands behind a
part of the queue, the walk first visits the unvisited ids of that part, each where it occurs
first, and only then goes on with what stands behind, followed by what the part has opened.

An empty level opens nothing, and no level repeats an id of another.  So there are no more
levels than records, even where parents form a cycle.
-/
import Mathlib.Data.List.Perm.Subperm
import CompileCommands.Proofs.Forest.Growth
import CompileCommands.Proofs.Forest.Walk

namespace CompileCommands

variable {ε ρ ω : Type}

theorem eraseDups_of_nodup {pids : List Pid} (h : pids.Nodup) : pids.eraseDups = pids := by
  induction pids with
  | nil => rfl
  | cons pid pids ih =>
    obtain ⟨hpid, hpids⟩ := List.nodup_cons.mp h
    have hothers : pids.filter (fun x => !x == pid) = pids := by
      refine List.filter_eq_self.mpr fun x hx => ?_
      have hne : x ≠ pid := fun heq => hpid (heq ▸ hx)
      simpa using hne
    rw [List.eraseDups_cons, hothers, ih hpids]

namespace Walk

variable {children : Pid → List Pid} {visit : ε → Except ρ (List ω)}
  {unvisited : Std.HashMap Pid ε} {pid : Pid} {queue : List Pid} {entry : ε}

/-! ### One step of a walk -/

theorem run_of_none (h : unvisited[pid]? = none) :
    run children visit unvisited (pid :: queue) = run children visit unvisited queue := by
  rw [run]
  split
  · rfl
  · rename_i hentry
    rw [h] at hentry
    cases hentry

theorem run_of_ok {outputs : List ω} (h : unvisited[pid]? = some entry)
    (hvisit : visit entry = .ok outputs) :
    run children visit unvisited (pid :: queue)
      = (run children visit (unvisited.erase pid) queue).after pid outputs := by
  rw [run]
  split
  · rename_i hnone
    rw [h] at hnone
    cases hnone
  · rename_i found hfound
    cases h.symm.trans hfound
    rw [hvisit]

theorem run_of_error {reason : ρ} (h : unvisited[pid]? = some entry)
    (hvisit : visit entry = .error reason) :
    run children visit unvisited (pid :: queue)
      = (run children visit (unvisited.erase pid) (queue ++ children pid)).after pid [] := by
  rw [run]
  split
  · rename_i hnone
    rw [h] at hnone
    cases hnone
  · rename_i found hfound
    cases h.symm.trans hfound
    rw [hvisit]

/-! ### A part of the queue -/

/-- The unvisited ids of a part of the queue, each where it occurs first. -/
def fresh (unvisited : Std.HashMap Pid ε) (part : List Pid) : List Pid :=
  (part.filter unvisited.contains).eraseDups

theorem fresh_cons_of_none (h : unvisited[pid]? = none) (part : List Pid) :
    fresh unvisited (pid :: part) = fresh unvisited part := by
  have hcontains : unvisited.contains pid = false := by
    rw [Std.HashMap.contains_eq_isSome_getElem?, h]
    rfl
  rw [fresh, List.filter_cons_of_neg (by simp [hcontains]), fresh]

theorem fresh_cons_of_some (h : unvisited[pid]? = some entry) (part : List Pid) :
    fresh unvisited (pid :: part) = pid :: fresh (unvisited.erase pid) part := by
  have hcontains : unvisited.contains pid = true := by
    rw [Std.HashMap.contains_eq_isSome_getElem?, h]
    rfl
  have hothers : (part.filter unvisited.contains).filter (fun x => !x == pid)
      = part.filter (unvisited.erase pid).contains := by
    rw [List.filter_filter]
    refine List.filter_congr fun x _ => ?_
    rw [Std.HashMap.contains_erase, Bool.beq_comm]
  rw [fresh, List.filter_cons_of_pos hcontains, List.eraseDups_cons, hothers, fresh]

/-- The children that the visit of an id sends the walk to. -/
def opened (children : Pid → List Pid) (visit : ε → Except ρ (List ω)) (find : Pid → Option ε)
    (pid : Pid) : List Pid :=
  match (find pid).map visit with
  | some (.error _) => children pid
  | _ => []

/-- The ids that are left when some have been visited. -/
def without (unvisited : Std.HashMap Pid ε) (visited : List Pid) : Std.HashMap Pid ε :=
  visited.foldl (·.erase ·) unvisited

@[simp]
theorem getElem?_without (visited : List Pid) (unvisited : Std.HashMap Pid ε) (pid : Pid) :
    (without unvisited visited)[pid]? = if pid ∈ visited then none else unvisited[pid]? := by
  induction visited generalizing unvisited with
  | nil => rfl
  | cons first visited ih =>
    rw [without, List.foldl_cons, ← without, ih, Std.HashMap.getElem?_erase]
    by_cases hfirst : pid = first
    · simp [hfirst]
    · simp [hfirst, Ne.symm hfirst]

/-- The walk visits the fresh ids of a part of the queue, and then goes on with the rest of
the queue and what the part has opened. -/
theorem visited_run_append (children : Pid → List Pid) (visit : ε → Except ρ (List ω))
    (find : Pid → Option ε) (part : List Pid) :
    ∀ (unvisited : Std.HashMap Pid ε) (rest : List Pid),
      (∀ pid e, unvisited[pid]? = some e → find pid = some e) →
      (run children visit unvisited (part ++ rest)).visited
        = fresh unvisited part
          ++ (run children visit (without unvisited (fresh unvisited part))
              (rest ++ (fresh unvisited part).flatMap (opened children visit find))).visited := by
  induction part with
  | nil =>
    intro unvisited rest _
    simp [fresh, without]
  | cons pid part ih =>
    intro unvisited rest hfind
    cases hentry : unvisited[pid]? with
    | none => rw [List.cons_append, run_of_none hentry, fresh_cons_of_none hentry, ih _ _ hfind]
    | some entry =>
      have hothers : ∀ x e, (unvisited.erase pid)[x]? = some e → find x = some e := by
        intro x e he
        rw [Std.HashMap.getElem?_erase] at he
        split at he
        · cases he
        · exact hfind x e he
      have hfound : (find pid).map visit = some (visit entry) := by
        rw [hfind pid entry hentry, Option.map_some]
      rw [List.cons_append, fresh_cons_of_some hentry, List.flatMap_cons, List.cons_append]
      cases hvisit : visit entry with
      | ok outputs =>
        have hopened : opened children visit find pid = [] := by rw [opened, hfound, hvisit]
        rw [run_of_ok hentry hvisit, hopened, List.nil_append]
        exact congrArg (pid :: ·) (ih _ rest hothers)
      | error reason =>
        have hopened : opened children visit find pid = children pid := by
          rw [opened, hfound, hvisit]
        rw [run_of_error hentry hvisit, hopened, List.append_assoc, ← List.append_assoc rest]
        exact congrArg (pid :: ·) (ih _ (rest ++ children pid) hothers)

end Walk

namespace Forest

/-! ### Levels -/

/-- The ids that a level sends a walk to: the children of its members whose visits fail, one
member after the other. -/
def opened (forest : Forest ε) (visit : ε → Except ρ (List ω)) (level : List Pid) : List Pid :=
  level.flatMap (Walk.opened forest.children visit forest.find?)

mutual

/-- The ids of all levels above one. -/
def above (forest : Forest ε) (visit : ε → Except ρ (List ω)) : Nat → List Pid
  | 0 => []
  | k + 1 => forest.above visit k ++ forest.level visit k

/-- The levels of a walk: the roots, and from then on the ids that a level opens, each where it
occurs first and as far as it is not on this level or one above. -/
def level (forest : Forest ε) (visit : ε → Except ρ (List ω)) : Nat → List Pid
  | 0 => forest.roots
  | k + 1 =>
      ((forest.opened visit (forest.level visit k)).filter
        (· ∉ forest.above visit k ++ forest.level visit k)).eraseDups

end

variable {forest : Forest ε} {visit : ε → Except ρ (List ω)}

theorem above_eq (n : Nat) :
    forest.above visit n = (List.range n).flatMap (forest.level visit) := by
  induction n with
  | zero => rfl
  | succ n ih => rw [above, ih, List.range_succ, List.flatMap_append, List.flatMap_singleton]

@[simp] theorem opened_nil : forest.opened visit [] = [] := rfl

/-- Below an empty level all levels are empty. -/
theorem level_eq_nil {k : Nat} (h : forest.level visit k = []) (n : Nat) :
    forest.level visit (k + n) = [] := by
  induction n with
  | zero => exact h
  | succ n ih =>
    rw [← Nat.add_assoc, level, ih]
    simp

/-- Levels that are not empty hold at least one id each. -/
theorem le_length_above {n : Nat} (h : ∀ k < n, forest.level visit k ≠ []) :
    n ≤ (forest.above visit n).length := by
  induction n with
  | zero => exact Nat.zero_le _
  | succ n ih =>
    have hbefore := ih fun k hk => h k (by omega)
    have hlast := List.length_pos_of_ne_nil (h n (by omega))
    rw [above, List.length_append]
    omega

/-! ### The walk over a forest whose ids all have entries -/

theorem Complete.exists_of_mem_children (h : Complete forest) {member pid : Pid}
    (hpid : pid ∈ forest.children member) : ∃ e, forest.find? pid = some e := by
  unfold Forest.children at hpid
  cases hchildren : forest.children? member with
  | none =>
    rw [hchildren] at hpid
    cases hpid
  | some found =>
    rw [hchildren] at hpid
    exact h.children member found hchildren pid hpid

theorem Complete.exists_of_mem_opened (h : Complete forest) {level : List Pid} {pid : Pid}
    (hpid : pid ∈ forest.opened visit level) : ∃ e, forest.find? pid = some e := by
  obtain ⟨member, -, hopened⟩ := List.mem_flatMap.mp hpid
  rw [Walk.opened] at hopened
  split at hopened
  · exact h.exists_of_mem_children hopened
  · cases hopened

/-- Of ids that all have entries, those are left that have not been seen. -/
theorem fresh_without {seen part : List Pid}
    (hpart : ∀ pid ∈ part, ∃ e, forest.find? pid = some e) :
    Walk.fresh (Walk.without forest.entries seen) part = (part.filter (· ∉ seen)).eraseDups := by
  rw [Walk.fresh]
  refine congrArg List.eraseDups (List.filter_congr fun pid hpid => ?_)
  obtain ⟨e, he⟩ := hpart pid hpid
  rw [Std.HashMap.contains_eq_isSome_getElem?, Walk.getElem?_without]
  by_cases hseen : pid ∈ seen
  · simp [hseen]
  · simp [hseen, show forest.entries[pid]? = some e from he]

/-- A walk from what some ids have opened, once these have been seen. -/
theorem visited_run_without (visit : ε → Except ρ (List ω)) (seen : List Pid) {part : List Pid}
    (hpart : ∀ pid ∈ part, ∃ e, forest.find? pid = some e) :
    (Walk.run forest.children visit (Walk.without forest.entries seen) part).visited
      = (part.filter (· ∉ seen)).eraseDups
        ++ (Walk.run forest.children visit
            (Walk.without forest.entries (seen ++ (part.filter (· ∉ seen)).eraseDups))
            (forest.opened visit (part.filter (· ∉ seen)).eraseDups)).visited := by
  have hfind : ∀ pid e, (Walk.without forest.entries seen)[pid]? = some e →
      forest.find? pid = some e := by
    intro pid e he
    rw [Walk.getElem?_without] at he
    split at he
    · cases he
    · exact he
  have hrun := Walk.visited_run_append forest.children visit forest.find? part _ [] hfind
  rw [List.append_nil, List.nil_append, fresh_without hpart] at hrun
  rw [hrun, opened, Walk.without, Walk.without, Walk.without, List.foldl_append]

/-- Behind every level, the walk goes on with what the level has opened. -/
theorem visited_walk_eq_above (h : Complete forest) (hroots : forest.roots.Nodup) (n : Nat) :
    (forest.walk visit).visited
      = forest.above visit (n + 1)
        ++ (Walk.run forest.children visit
            (Walk.without forest.entries (forest.above visit (n + 1)))
            (forest.opened visit (forest.level visit n))).visited := by
  induction n with
  | zero =>
    have hfirst := visited_run_without visit [] h.roots
    have hfilter : (forest.roots.filter (· ∉ ([] : List Pid))).eraseDups = forest.roots := by
      simp [eraseDups_of_nodup hroots]
    rw [hfilter, List.nil_append] at hfirst
    simpa [walk, above, level, Walk.without] using hfirst
  | succ n ih =>
    have hopened : ∀ pid ∈ forest.opened visit (forest.level visit n),
        ∃ e, forest.find? pid = some e := fun pid hpid => h.exists_of_mem_opened hpid
    have hnext := visited_run_without visit (forest.above visit (n + 1)) hopened
    rw [ih, hnext, ← List.append_assoc]
    rfl

/-- A walk visits the levels above an empty one, and nothing else. -/
theorem visited_walk_of_level_eq_nil (h : Complete forest) (hroots : forest.roots.Nodup) {n : Nat}
    (hempty : forest.level visit n = []) :
    (forest.walk visit).visited = forest.above visit n := by
  simp [visited_walk_eq_above h hroots n, above, hempty, Walk.run, Walk.empty]

/-! ### Records -/

variable {id parent : ε → Pid} {records : List ε}

/-- No walk makes more visits than there are records. -/
theorem length_visited_le :
    ((ofRecords id parent records).walk visit).visited.length ≤ records.length := by
  have hids : (records.map id).length = records.length := List.length_map id
  rw [← hids]
  refine (List.subperm_of_subset nodup_visited_walk fun pid hpid => ?_).length_le
  obtain ⟨-, e, hfind⟩ := mem_visited_walk.mp hpid
  obtain ⟨hmem, hid⟩ := mem_of_find?_ofRecords hfind
  exact List.mem_map.mpr ⟨e, hmem, hid⟩

/-- There are no more levels than records. -/
theorem level_length_eq_nil :
    (ofRecords id parent records).level visit records.length = [] := by
  have hcomplete : Complete (ofRecords id parent records) := shows_ofRecords.complete
  have hsome : ∃ k < records.length + 1, (ofRecords id parent records).level visit k = [] := by
    by_contra hnone
    have hlong : records.length + 1
        ≤ ((ofRecords id parent records).above visit (records.length + 1)).length :=
      le_length_above fun k hk hempty => hnone ⟨k, hk, hempty⟩
    have hshort : ((ofRecords id parent records).walk visit).visited.length ≤ records.length :=
      length_visited_le
    rw [visited_walk_eq_above hcomplete nodup_roots_ofRecords records.length, List.length_append]
      at hshort
    omega
  obtain ⟨k, hk, hempty⟩ := hsome
  have hbelow := level_eq_nil hempty (records.length - k)
  rwa [Nat.add_sub_cancel' (by omega)] at hbelow

/-- The walk over some records visits as many levels as there are records. -/
theorem visited_walk_ofRecords :
    ((ofRecords id parent records).walk visit).visited
      = (ofRecords id parent records).above visit records.length :=
  visited_walk_of_level_eq_nil shows_ofRecords.complete nodup_roots_ofRecords level_length_eq_nil

/-- **A walk goes level by level**, visits no id twice, and yields what its successful visits
yield. -/
theorem walk_by_levels (id parent : ε → Pid) (records : List ε)
    (visit : ε → Except ρ (List ω)) :
    ((ofRecords id parent records).walk visit).visited
        = (List.range records.length).flatMap ((ofRecords id parent records).level visit)
    ∧ (∀ n, (ofRecords id parent records).level visit (records.length + n) = [])
    ∧ ((ofRecords id parent records).walk visit).visited.Nodup
    ∧ ((ofRecords id parent records).walk visit).outputs
        = (((ofRecords id parent records).walk visit).visited.filterMap
            (ofRecords id parent records).find?).flatMap fun e => gain (visit e) := by
  refine ⟨?_, level_eq_nil level_length_eq_nil, nodup_visited_walk, outputs_walk⟩
  rw [visited_walk_ofRecords, above_eq]

end Forest

end CompileCommands
