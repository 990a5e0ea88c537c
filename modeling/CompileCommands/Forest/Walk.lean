/-
The pruning walk over a forest.

The walk goes breadth first from the roots.  A visit that succeeds contributes its
outputs, and the walk does not look below that process; a visit that fails sends the
walk on to the children.  The ids that are still unvisited shrink with every visit,
which bounds the walk even where parents form a cycle.
-/
import CompileCommands.Forest.Basic

namespace CompileCommands

/-- What a walk came by. -/
structure Walk (ω : Type) where
  /-- The visited ids, in the order of the visits. -/
  visited : List Pid
  /-- The outputs of the visits that succeeded, in the order of the visits. -/
  outputs : List ω

namespace Walk

variable {ε ρ ω : Type}

def empty : Walk ω := ⟨[], []⟩

/-- Puts a visit in front of a walk. -/
def after (walk : Walk ω) (pid : Pid) (outputs : List ω) : Walk ω :=
  ⟨pid :: walk.visited, outputs ++ walk.outputs⟩

/-- A visit makes the unvisited ids fewer. -/
theorem size_erase_lt {unvisited : Std.HashMap Pid ε} {pid : Pid} {entry : ε}
    (h : unvisited[pid]? = some entry) : (unvisited.erase pid).size < unvisited.size := by
  have mem : pid ∈ unvisited := Std.HashMap.isSome_getElem?_iff_mem.mp (by simp [h])
  have pos : unvisited.size ≠ 0 := by
    intro hsize
    have hempty : unvisited.isEmpty = true := by
      simp [Std.HashMap.isEmpty_eq_size_eq_zero, hsize]
    simp [Std.HashMap.mem_iff_contains, Std.HashMap.contains_of_isEmpty hempty] at mem
  rw [Std.HashMap.size_erase, if_pos mem]
  omega

/-- The walk that visits the ids of a queue, and what it finds below them, as far as they are
still unvisited. -/
def run (children : Pid → List Pid) (visit : ε → Except ρ (List ω))
    (unvisited : Std.HashMap Pid ε) : List Pid → Walk ω
  | [] => empty
  | pid :: queue =>
      match h : unvisited[pid]? with
      | none => run children visit unvisited queue
      | some entry =>
          have := size_erase_lt h
          match visit entry with
          | .ok outputs => (run children visit (unvisited.erase pid) queue).after pid outputs
          | .error _ =>
              (run children visit (unvisited.erase pid) (queue ++ children pid)).after pid []
termination_by queue => (unvisited.size, queue.length)

end Walk

/-- The walk over a whole forest. -/
def Forest.walk {ε ρ ω : Type} (forest : Forest ε) (visit : ε → Except ρ (List ω)) : Walk ω :=
  Walk.run forest.children visit forest.entries forest.roots

end CompileCommands
