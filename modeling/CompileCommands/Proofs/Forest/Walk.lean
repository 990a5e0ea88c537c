/-
What a pruning walk visits.

The walk is described from both sides.  It stays inside every set of ids that holds the queue
and the children of its failing members, and what it visits is closed in the same sense: a
queued id is visited unless it was before, and so is a child of an id whose visit failed.
Together the two say that the walk visits exactly what it can reach, and neither mentions the
order of the visits.

All of this is by induction over the run.  What makes the induction go through is that every
fact is stated for an arbitrary set of unvisited ids, since each visit takes one of them away.
-/
import Mathlib.Data.List.Nodup
import Mathlib.Logic.Relation
import CompileCommands.Forest.Walk

namespace CompileCommands

variable {ε ρ ω : Type}

/-- The outputs of a visit. -/
def gain : Except ρ (List ω) → List ω
  | .ok outputs => outputs
  | .error _ => []

@[simp] theorem gain_ok (outputs : List ω) : gain (.ok outputs : Except ρ (List ω)) = outputs := rfl

@[simp] theorem gain_error (reason : ρ) : gain (.error reason : Except ρ (List ω)) = [] := rfl

namespace Walk

variable {children : Pid → List Pid} {visit : ε → Except ρ (List ω)}

private theorem getElem?_erase {unvisited : Std.HashMap Pid ε} {pid x : Pid} {e : ε} :
    (unvisited.erase pid)[x]? = some e ↔ x ≠ pid ∧ unvisited[x]? = some e := by
  rw [Std.HashMap.getElem?_erase]
  by_cases h : pid = x
  · simp [h]
  · simp [h, Ne.symm h]

/-! ### Nothing but unvisited ids, each of them once -/

private theorem found_cons {unvisited : Std.HashMap Pid ε} {pid : Pid} {entry : ε}
    {visited : List Pid} (hentry : unvisited[pid]? = some entry)
    (hvisited : ∀ x ∈ visited, ∃ e, (unvisited.erase pid)[x]? = some e) :
    ∀ x ∈ pid :: visited, ∃ e, unvisited[x]? = some e := by
  intro x hx
  rcases List.mem_cons.mp hx with rfl | hx
  · exact ⟨entry, hentry⟩
  · obtain ⟨e, he⟩ := hvisited x hx
    exact ⟨e, (getElem?_erase.mp he).2⟩

theorem mem_of_visited (unvisited : Std.HashMap Pid ε) (queue : List Pid) :
    ∀ pid ∈ (run children visit unvisited queue).visited, ∃ e, unvisited[pid]? = some e := by
  fun_induction run children visit unvisited queue with
  | case1 unvisited => intro pid hpid; cases hpid
  | case2 unvisited pid queue hpid ih => exact ih
  | case3 unvisited pid queue entry hentry _ outputs _ ih => exact found_cons hentry ih
  | case4 unvisited pid queue entry hentry _ reason _ ih => exact found_cons hentry ih

private theorem notMem_of_erase {unvisited : Std.HashMap Pid ε} {queue : List Pid} {pid : Pid} :
    pid ∉ (run children visit (unvisited.erase pid) queue).visited := by
  intro hpid
  obtain ⟨e, he⟩ := mem_of_visited (unvisited.erase pid) queue pid hpid
  exact (getElem?_erase.mp he).1 rfl

theorem nodup_visited (unvisited : Std.HashMap Pid ε) (queue : List Pid) :
    (run children visit unvisited queue).visited.Nodup := by
  fun_induction run children visit unvisited queue with
  | case1 unvisited => exact List.nodup_nil
  | case2 unvisited pid queue _ ih => exact ih
  | case3 unvisited pid queue entry _ _ outputs _ ih =>
    exact List.nodup_cons.mpr ⟨notMem_of_erase, ih⟩
  | case4 unvisited pid queue entry _ _ reason _ ih =>
    exact List.nodup_cons.mpr ⟨notMem_of_erase, ih⟩

/-! ### The outputs are those of the visits -/

private theorem find_of_erase {find : Pid → Option ε} {unvisited : Std.HashMap Pid ε}
    (hfind : ∀ pid e, unvisited[pid]? = some e → find pid = some e) {pid : Pid} :
    ∀ x e, (unvisited.erase pid)[x]? = some e → find x = some e :=
  fun x e he => hfind x e (getElem?_erase.mp he).2

theorem outputs_eq (find : Pid → Option ε) (unvisited : Std.HashMap Pid ε) (queue : List Pid)
    (hfind : ∀ pid e, unvisited[pid]? = some e → find pid = some e) :
    (run children visit unvisited queue).outputs
      = ((run children visit unvisited queue).visited.filterMap find).flatMap
          fun e => gain (visit e) := by
  fun_induction run children visit unvisited queue with
  | case1 unvisited => rfl
  | case2 unvisited pid queue _ ih => exact ih hfind
  | case3 unvisited pid queue entry hentry _ outputs hvisit ih =>
    simp only [after, ih (find_of_erase hfind), List.filterMap_cons_some (hfind pid entry hentry),
      List.flatMap_cons, hvisit, gain]
  | case4 unvisited pid queue entry hentry _ reason hvisit ih =>
    simp only [after, ih (find_of_erase hfind), List.filterMap_cons_some (hfind pid entry hentry),
      List.flatMap_cons, hvisit, gain]

/-! ### The walk visits nothing outside a closed set that holds the queue -/

theorem visited_least (Q : Pid → Prop) (unvisited : Std.HashMap Pid ε) (queue : List Pid)
    (hqueue : ∀ pid ∈ queue, Q pid)
    (hclosed : ∀ pid e reason, Q pid → unvisited[pid]? = some e → visit e = .error reason →
      ∀ child ∈ children pid, Q child) :
    ∀ pid ∈ (run children visit unvisited queue).visited, Q pid := by
  fun_induction run children visit unvisited queue with
  | case1 unvisited => intro pid hpid; cases hpid
  | case2 unvisited pid queue _ ih =>
    exact ih (fun x hx => hqueue x (List.mem_cons_of_mem pid hx)) hclosed
  | case3 unvisited pid queue entry _ _ outputs _ ih =>
    intro x hx
    rcases List.mem_cons.mp hx with rfl | hx
    · exact hqueue x List.mem_cons_self
    · refine ih (fun y hy => hqueue y (List.mem_cons_of_mem pid hy)) ?_ x hx
      intro y e reason hy he
      exact hclosed y e reason hy (getElem?_erase.mp he).2
  | case4 unvisited pid queue entry hentry _ reason hvisit ih =>
    intro x hx
    have hpid : Q pid := hqueue pid List.mem_cons_self
    rcases List.mem_cons.mp hx with rfl | hx
    · exact hpid
    · refine ih ?_ ?_ x hx
      · intro y hy
        rcases List.mem_append.mp hy with hy | hy
        · exact hqueue y (List.mem_cons_of_mem pid hy)
        · exact hclosed pid entry reason hpid hentry hvisit y hy
      · intro y e reason hy he
        exact hclosed y e reason hy (getElem?_erase.mp he).2

/-! ### The walk is closed -/

theorem visited_queue (unvisited : Std.HashMap Pid ε) (queue : List Pid) :
    ∀ pid ∈ queue, ∀ e, unvisited[pid]? = some e →
      pid ∈ (run children visit unvisited queue).visited := by
  fun_induction run children visit unvisited queue with
  | case1 unvisited => intro pid hpid; cases hpid
  | case2 unvisited pid queue hpid ih =>
    intro x hx e he
    rcases List.mem_cons.mp hx with rfl | hx
    · rw [hpid] at he
      cases he
    · exact ih x hx e he
  | case3 unvisited pid queue entry _ _ outputs _ ih =>
    intro x hx e he
    by_cases hxp : x = pid
    · exact hxp ▸ List.mem_cons_self
    · have hx : x ∈ queue := (List.mem_cons.mp hx).resolve_left hxp
      exact List.mem_cons_of_mem pid (ih x hx e (getElem?_erase.mpr ⟨hxp, he⟩))
  | case4 unvisited pid queue entry _ _ reason _ ih =>
    intro x hx e he
    by_cases hxp : x = pid
    · exact hxp ▸ List.mem_cons_self
    · have hx : x ∈ queue := (List.mem_cons.mp hx).resolve_left hxp
      exact List.mem_cons_of_mem pid
        (ih x (List.mem_append_left _ hx) e (getElem?_erase.mpr ⟨hxp, he⟩))

theorem visited_children (unvisited : Std.HashMap Pid ε) (queue : List Pid) :
    ∀ pid ∈ (run children visit unvisited queue).visited, ∀ e reason,
      unvisited[pid]? = some e → visit e = .error reason →
      ∀ child ∈ children pid, ∀ c, unvisited[child]? = some c →
        child ∈ (run children visit unvisited queue).visited := by
  fun_induction run children visit unvisited queue with
  | case1 unvisited => intro pid hpid; cases hpid
  | case2 unvisited pid queue _ ih => exact ih
  | case3 unvisited pid queue entry hentry _ outputs hvisit ih =>
    intro x hx e reason he herror child hchild c hc
    by_cases hcp : child = pid
    · exact hcp ▸ List.mem_cons_self
    · rcases List.mem_cons.mp hx with rfl | hx
      · rw [hentry] at he
        cases he
        rw [hvisit] at herror
        cases herror
      · have hxp : x ≠ pid := fun h => notMem_of_erase (h ▸ hx)
        exact List.mem_cons_of_mem pid (ih x hx e reason (getElem?_erase.mpr ⟨hxp, he⟩) herror
          child hchild c (getElem?_erase.mpr ⟨hcp, hc⟩))
  | case4 unvisited pid queue entry _ _ failure _ ih =>
    intro x hx e reason he herror child hchild c hc
    by_cases hcp : child = pid
    · exact hcp ▸ List.mem_cons_self
    · rcases List.mem_cons.mp hx with rfl | hx
      · -- The children of the visited id are queued, so they are visited in the end.
        exact List.mem_cons_of_mem x (visited_queue _ _ child
          (List.mem_append_right _ hchild) c (getElem?_erase.mpr ⟨hcp, hc⟩))
      · have hxp : x ≠ pid := fun h => notMem_of_erase (h ▸ hx)
        exact List.mem_cons_of_mem pid (ih x hx e reason (getElem?_erase.mpr ⟨hxp, he⟩) herror
          child hchild c (getElem?_erase.mpr ⟨hcp, hc⟩))

end Walk

namespace Forest

variable {forest : Forest ε} {visit : ε → Except ρ (List ω)}

/-! ### Over a whole forest -/

/-- The ids that a walk comes to: the roots, and the children of what it comes to and cannot
use. -/
inductive Reached (forest : Forest ε) (visit : ε → Except ρ (List ω)) : Pid → Prop
  | root {pid : Pid} (h : pid ∈ forest.roots) : Reached forest visit pid
  | child {pid child : Pid} {e : ε} {reason : ρ} (h : Reached forest visit pid)
      (hfind : forest.find? pid = some e) (hvisit : visit e = .error reason)
      (hchild : child ∈ forest.children pid) : Reached forest visit child

/-- The walk visits the recorded ids that it comes to. -/
theorem mem_visited_walk {pid : Pid} :
    pid ∈ (forest.walk visit).visited
      ↔ Reached forest visit pid ∧ ∃ e, forest.find? pid = some e := by
  constructor
  · intro hpid
    refine ⟨?_, Walk.mem_of_visited _ _ pid hpid⟩
    refine Walk.visited_least (Reached forest visit) _ _ (fun x hx => .root hx) ?_ pid hpid
    intro x e reason hx hfind hvisit child hchild
    exact .child hx hfind hvisit hchild
  · intro h
    obtain ⟨hreached, hfound⟩ := h
    induction hreached with
    | root hroot =>
      obtain ⟨e, he⟩ := hfound
      exact Walk.visited_queue _ _ _ hroot e he
    | child _ hfind hvisit hchild ih =>
      obtain ⟨c, hc⟩ := hfound
      exact Walk.visited_children _ _ _ (ih ⟨_, hfind⟩) _ _ hfind hvisit _ hchild c hc

/-- A walk yields what its visits yield, in their order. -/
theorem outputs_walk :
    (forest.walk visit).outputs
      = ((forest.walk visit).visited.filterMap forest.find?).flatMap fun e => gain (visit e) :=
  Walk.outputs_eq forest.find? _ _ fun _ _ h => h

theorem nodup_visited_walk : (forest.walk visit).visited.Nodup := Walk.nodup_visited _ _

/-! ### Two walks over one forest

A visit that fails where another one succeeded opens what is below, and nothing else.
-/

/-- One id lies below another: children lead from the second to the first. -/
abbrev Below (forest : Forest ε) (above below : Pid) : Prop :=
  Relation.TransGen (fun pid child => child ∈ forest.children pid) above below

variable {visit' : ε → Except ρ (List ω)}

/-- The more visits fail, the more a walk comes to. -/
theorem Reached.of_failing
    (hfails : ∀ e reason, visit e = .error reason → ∃ reason', visit' e = .error reason')
    {pid : Pid} (h : Reached forest visit pid) : Reached forest visit' pid := by
  induction h with
  | root hroot => exact .root hroot
  | child _ hfind hvisit hchild ih =>
    obtain ⟨reason', hvisit'⟩ := hfails _ _ hvisit
    exact .child ih hfind hvisit' hchild

/-- What only the second walk comes to lies below a visit that both come to, and that succeeds
in the first walk and fails in the second. -/
theorem Reached.cases_of_other {pid : Pid} (h : Reached forest visit' pid) :
    Reached forest visit pid
      ∨ ∃ above e outputs reason, Reached forest visit above
          ∧ forest.find? above = some e
          ∧ visit e = .ok outputs ∧ visit' e = .error reason
          ∧ Below forest above pid := by
  induction h with
  | root hroot => exact .inl (.root hroot)
  | @child pid child e reason _ hfind hvisit' hchild ih =>
    rcases ih with hreached | ⟨above, e', outputs, reason', habove, hfind', hok, herror, hbelow⟩
    · cases hvisit : visit e with
      | error reason' => exact .inl (.child hreached hfind hvisit hchild)
      | ok outputs =>
        exact .inr ⟨pid, e, outputs, reason, hreached, hfind, hvisit, hvisit', .single hchild⟩
    · exact .inr ⟨above, e', outputs, reason', habove, hfind', hok, herror, hbelow.tail hchild⟩

end Forest

end CompileCommands
