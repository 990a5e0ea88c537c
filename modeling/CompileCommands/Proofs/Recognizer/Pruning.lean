/-
Which processes of a trace make it into the database.

A process contributes when it is recognized, none of the processes above it is, and the chain
of its parents leaves the trace.  The walk decides this without ever looking up: it starts
below the processes whose parent was not traced and stops at the first recognized one on
every branch.

With distinct process ids both come to the same, and the entries are those of the
contributing processes.  Their order is left open, since it is that of the walk; it is all that
can change when the processes are recorded in another order.
-/
import CompileCommands.Proofs.Forest.Ancestry
import CompileCommands.Proofs.Forest.Listing
import CompileCommands.Proofs.Result
import CompileCommands.Recognizer

namespace CompileCommands.Recognizer

variable {τ : Type} [ToolLike τ]

/-- The entries of what a process did, in the order of its records. -/
def contribution (recognizer : Recognizer τ) (execution : Execution) : List Entry :=
  (gain (recognizer.recognize execution)).filterMap Invocation.entry

/-- One traced process is above another. -/
abbrev IsAbove (report : Report) : Execution → Execution → Prop :=
  Forest.Ancestor Execution.pid Execution.parent report.executions

/-- A process whose entries belong into the database. -/
structure Contributes (recognizer : Recognizer τ) (report : Report) (execution : Execution) :
    Prop where
  /-- Following parents through the trace ends at a process that was not traced. -/
  rooted : Forest.Rooted Execution.pid Execution.parent report.executions execution
  /-- No process above is recognized. -/
  uncovered : ∀ above, IsAbove report above execution →
    ∃ rejection, recognizer.recognize above = .error rejection
  recognized : ∃ invocations, recognizer.recognize execution = .ok invocations

variable {recognizer : Recognizer τ} {report : Report}

/-- What a process did is what the tool of its program finds. -/
theorem recognize_eq_ok_iff {execution : Execution} {found : List Invocation} :
    recognizer.recognize execution = .ok found
      ↔ ∃ tool, recognizer.select execution.command.program = .ok tool
        ∧ ToolLike.invocations execution.command tool = .ok found :=
  bind_eq_ok_iff

/-- The visited processes, looked at as entries. -/
theorem entries_eq_flatMap :
    recognizer.entries report = (recognizer.visited report).flatMap recognizer.contribution := by
  rw [entries, walk, Forest.outputs_walk, List.filterMap_flatMap]
  rfl

/-- The visited processes can be read off the trace, and so can the entries. -/
theorem visited_eq_listedVisits :
    recognizer.visited report
      = Forest.listedVisits Execution.pid Execution.parent recognizer.recognize
          report.executions :=
  Forest.visits_eq_listedVisits Execution.pid Execution.parent recognizer.recognize
    report.executions

theorem entries_eq_listed :
    recognizer.entries report
      = (Forest.listedVisits Execution.pid Execution.parent recognizer.recognize
          report.executions).flatMap recognizer.contribution := by
  rw [entries_eq_flatMap, visited_eq_listedVisits]

theorem mem_contribution_iff {execution : Execution} {entry : Entry} :
    entry ∈ recognizer.contribution execution
      ↔ ∃ found, recognizer.recognize execution = .ok found
        ∧ ∃ i ∈ found, i.entry = some entry := by
  rw [contribution, List.mem_filterMap]
  cases recognizer.recognize execution with
  | error rejection => simp
  | ok found => simp

theorem mem_entries_iff {report : Report} {entry : Entry} :
    entry ∈ recognizer.entries report
      ↔ ∃ execution ∈ recognizer.visited report, entry ∈ recognizer.contribution execution := by
  rw [entries_eq_flatMap, List.mem_flatMap]

theorem contribution_of_error {execution : Execution} {rejection : Rejection}
    (h : recognizer.recognize execution = .error rejection) :
    recognizer.contribution execution = [] := by
  rw [contribution, h]
  rfl

/-- Leaving out what contributes nothing does not change what the rest contributes. -/
theorem flatMap_contribution_filter (visited : List Execution) :
    visited.flatMap recognizer.contribution
      = (visited.filter fun e => (recognizer.recognize e).isOk).flatMap
          recognizer.contribution := by
  induction visited with
  | nil => rfl
  | cons e visited ih =>
    cases hresult : recognizer.recognize e with
    | error rejection =>
      rw [List.flatMap_cons, contribution_of_error hresult, List.nil_append,
        List.filter_cons_of_neg (by simp [hresult, Except.isOk, Except.toBool]), ih]
    | ok invocations =>
      rw [List.filter_cons_of_pos (by simp [hresult, Except.isOk, Except.toBool]),
        List.flatMap_cons, List.flatMap_cons, ih]

/-- Of two contributing processes neither is above the other. -/
theorem Contributes.not_isAbove {a b : Execution} (ha : Contributes recognizer report a)
    (hb : Contributes recognizer report b) : ¬ IsAbove report a b := by
  intro habove
  obtain ⟨rejection, hrejected⟩ := hb.uncovered a habove
  obtain ⟨invocations, hrecognized⟩ := ha.recognized
  rw [hrejected] at hrecognized
  cases hrecognized

/-- The visited processes that are recognized are those that contribute. -/
theorem mem_visited_recognized (distinct : (report.executions.map Execution.pid).Nodup)
    {e : Execution} :
    (e ∈ recognizer.visited report ∧ (recognizer.recognize e).isOk = true)
      ↔ e ∈ report.executions ∧ Contributes recognizer report e := by
  have hvisited : e ∈ recognizer.visited report ↔ e ∈ report.executions
      ∧ Forest.Open Execution.pid Execution.parent report.executions recognizer.recognize e :=
    (Forest.visits_of_distinct distinct).2 e
  constructor
  · intro h
    obtain ⟨hmem, hok⟩ := h
    obtain ⟨htraced, hopen⟩ := hvisited.mp hmem
    refine ⟨htraced, hopen.rooted, hopen.uncovered, ?_⟩
    cases hresult : recognizer.recognize e with
    | ok invocations => exact ⟨invocations, rfl⟩
    | error rejection =>
      rw [hresult] at hok
      cases hok
  · intro h
    obtain ⟨htraced, hrooted, huncovered, invocations, hresult⟩ := h
    refine ⟨hvisited.mpr ⟨htraced, hrooted, huncovered⟩, ?_⟩
    rw [hresult]
    rfl

open Classical in
/-- **The entries of a trace are those of the processes that contribute, each of them once**,
and no contributing process is above another. -/
theorem entries_of_contributing (recognizer : Recognizer τ) (report : Report)
    (distinct : (report.executions.map Execution.pid).Nodup) :
    (∃ contributing : List Execution,
      contributing.Perm (report.executions.filter (Contributes recognizer report ·))
        ∧ recognizer.entries report = contributing.flatMap recognizer.contribution)
    ∧ ∀ a b, Contributes recognizer report a → Contributes recognizer report b →
        ¬ IsAbove report a b := by
  refine ⟨⟨(recognizer.visited report).filter fun e => (recognizer.recognize e).isOk, ?_, ?_⟩,
    fun a b ha hb => ha.not_isAbove hb⟩
  · have hvisited : (recognizer.visited report).Nodup :=
      (Forest.visits_of_distinct distinct).1
    have htraced : report.executions.Nodup := List.Nodup.of_map _ distinct
    refine (List.perm_ext_iff_of_nodup (hvisited.filter _) (htraced.filter _)).mpr fun e => ?_
    rw [List.mem_filter, List.mem_filter, mem_visited_recognized distinct, decide_eq_true_iff]
  · rw [entries_eq_flatMap, flatMap_contribution_filter]

/-- A driver that runs the compiler proper, which was recorded first. -/
def nestedCall : Report where
  executions := [
    { command := ⟨⟨"/usr/bin/gcc"⟩, ["gcc", "-c", "a.c"], ⟨"/src"⟩, ∅⟩, run := ⟨⟨11⟩, ⟨10⟩, []⟩ },
    { command := ⟨⟨"/usr/bin/nvcc"⟩, ["nvcc", "-c", "a.cu"], ⟨"/src"⟩, ∅⟩, run := ⟨⟨10⟩, ⟨1⟩, []⟩ }]

/-- The entry of a compiler call with its source and its object. -/
def entryOf (compiler source object : String) : Entry where
  file := ⟨source⟩
  directory := ⟨"/src"⟩
  output := some ⟨object⟩
  arguments := [compiler, "-c", "-o", object, source]

open Classical in
/-- The compiler proper would have an entry of its own, but only the driver has one. -/
theorem entries_of_nestedCall :
    (nestedCall.executions.map Execution.pid).Nodup
    ∧ ((∃ contributing : List Execution,
        contributing.Perm
            (nestedCall.executions.filter (Contributes (ofSelection {}) nestedCall ·))
          ∧ (ofSelection {}).entries nestedCall
            = contributing.flatMap (ofSelection {}).contribution)
      ∧ ∀ a b, Contributes (ofSelection {}) nestedCall a →
          Contributes (ofSelection {}) nestedCall b → ¬ IsAbove nestedCall a b)
    ∧ nestedCall.executions.map (ofSelection {}).contribution
      = [[entryOf "gcc" "/src/a.c" "/src/a.o"], [entryOf "nvcc" "/src/a.cu" "/src/a.o"]]
    ∧ (ofSelection {}).entries nestedCall = [entryOf "nvcc" "/src/a.cu" "/src/a.o"] := by
  refine ⟨by decide, entries_of_contributing (ofSelection {}) nestedCall (by decide), by decide, ?_⟩
  rw [entries_eq_listed]
  decide

/-! ### The order of the records -/

/-- **The order in which processes were recorded decides at most the order of the entries**, and
never which entries there are or how often. -/
theorem entries_perm_of_perm (recognizer : Recognizer τ) {report reordered : Report}
    (distinct : (report.executions.map Execution.pid).Nodup)
    (h : reordered.executions.Perm report.executions) :
    (recognizer.entries reordered).Perm (recognizer.entries report) := by
  have hvisited : (recognizer.visited reordered).Perm (recognizer.visited report) :=
    Forest.perm_visits_of_perm distinct h
  rw [entries_eq_flatMap, entries_eq_flatMap]
  exact hvisited.flatMap_right recognizer.contribution

/-- The same calls, the driver recorded before the compiler that it ran. -/
def nestedCallInOrder : Report where
  executions := nestedCall.executions.reverse

theorem entries_perm_nestedCall :
    (nestedCall.executions.map Execution.pid).Nodup
      ∧ nestedCallInOrder.executions.Perm nestedCall.executions
      ∧ ((ofSelection {}).entries nestedCallInOrder).Perm ((ofSelection {}).entries nestedCall)
      ∧ (ofSelection {}).entries nestedCallInOrder
        = [entryOf "nvcc" "/src/a.cu" "/src/a.o"] := by
  have hreversed : nestedCallInOrder.executions.Perm nestedCall.executions :=
    List.reverse_perm nestedCall.executions
  refine ⟨by decide, hreversed, entries_perm_of_perm (ofSelection {}) (by decide) hreversed, ?_⟩
  rw [entries_eq_listed]
  decide

/-- A process that calls a program. -/
def calling (pid parent : Pid) (arguments : List String) : Execution where
  command := ⟨⟨arguments.headD ""⟩, arguments, ⟨"/src"⟩, ∅⟩
  run := ⟨pid, parent, []⟩

/-- A build tool calls a driver, which runs the compiler proper, and another compiler. -/
def mixedBuild : Report where
  executions := [
    calling ⟨2⟩ ⟨1⟩ ["make"],
    calling ⟨3⟩ ⟨2⟩ ["nvcc", "-c", "a.cu"],
    calling ⟨4⟩ ⟨3⟩ ["gcc", "-c", "a.c"],
    calling ⟨5⟩ ⟨2⟩ ["gcc", "-c", "b.c"]]

theorem entries_mixedBuild :
    (ofSelection {}).entries mixedBuild
      = [entryOf "nvcc" "/src/a.cu" "/src/a.o", entryOf "gcc" "/src/b.c" "/src/b.o"] := by
  rw [entries_eq_listed]
  decide

/-- Recorded from its end, the build has its entries the other way round. -/
example : (ofSelection {}).entries { mixedBuild with executions := mixedBuild.executions.reverse }
    = [entryOf "gcc" "/src/b.c" "/src/b.o", entryOf "nvcc" "/src/a.cu" "/src/a.o"] := by
  rw [entries_eq_listed]
  decide

end CompileCommands.Recognizer
