/-
What ignoring one more program changes.

A program that is ignored is not recognized any more, so the walk looks at the processes it
started.  The other programs are recognized as they were.  Hence the walk comes to everything
that it came to before, and whatever it comes to besides lies below a process of the ignored
program.

Nothing is assumed of the trace.  Where process ids repeat or parents form a cycle, the two walks
still go over the same forest, and all that is compared is which ids they come to.
-/
import Mathlib.Data.List.Flatten
import Mathlib.Data.List.Perm.Subperm
import CompileCommands.Proofs.Recognizer.Pruning

namespace CompileCommands.Recognizer

variable {τ : Type}

/-- The recognizer that ignores one more program. -/
def excluding (recognizer : Recognizer τ) (program : Path) : Recognizer τ :=
  { recognizer with excluded := recognizer.excluded ++ [program] }

/-- Does a process run the program? -/
def runs (program : Path) (execution : Execution) : Bool := program.same execution.command.program

variable [ToolLike τ] {recognizer : Recognizer τ} {program : Path} {execution : Execution}
  {report : Report}

/-! ### One process -/

theorem recognize_excluding_of_runs (h : runs program execution = true) :
    (recognizer.excluding program).recognize execution
      = .error (.excluded execution.command.program) := by
  have hexcluded : (recognizer.excluding program).excluded.any
      (·.same execution.command.program) = true := by
    rw [excluding, List.any_append, List.any_cons, show program.same _ = true from h,
      Bool.true_or, Bool.or_true]
  rw [recognize, select, if_pos hexcluded]
  rfl

/-- Other programs are recognized as they were. -/
theorem recognize_excluding_of_not_runs (h : runs program execution = false) :
    (recognizer.excluding program).recognize execution = recognizer.recognize execution := by
  have hexcluded : (recognizer.excluding program).excluded.any (·.same execution.command.program)
      = recognizer.excluded.any (·.same execution.command.program) := by
    rw [excluding, List.any_append, List.any_cons, show program.same _ = false from h,
      List.any_nil, Bool.or_false, Bool.or_false]
  rw [recognize, recognize, select, hexcluded]
  rfl

theorem contribution_excluding_of_not_runs (h : runs program execution = false) :
    (recognizer.excluding program).contribution execution
      = recognizer.contribution execution := by
  rw [contribution, contribution, recognize_excluding_of_not_runs h]

/-- What is not recognized is not recognized when more is ignored. -/
theorem error_excluding {rejection : Rejection}
    (h : recognizer.recognize execution = .error rejection) :
    ∃ other, (recognizer.excluding program).recognize execution = .error other := by
  cases hruns : runs program execution with
  | true => exact ⟨_, recognize_excluding_of_runs hruns⟩
  | false => exact ⟨rejection, (recognize_excluding_of_not_runs hruns).trans h⟩

/-- What only ceases to be recognized runs the program. -/
theorem runs_of_error_excluding {found : List Invocation} {rejection : Rejection}
    (hok : recognizer.recognize execution = .ok found)
    (herror : (recognizer.excluding program).recognize execution = .error rejection) :
    runs program execution = true := by
  cases hruns : runs program execution with
  | true => rfl
  | false =>
    rw [recognize_excluding_of_not_runs hruns, hok] at herror
    cases herror

/-! ### A whole trace -/

theorem mem_visited_excluding {pid : Pid} (h : pid ∈ (recognizer.walk report).visited) :
    pid ∈ ((recognizer.excluding program).walk report).visited := by
  obtain ⟨hreached, hfound⟩ := Forest.mem_visited_walk.mp h
  exact Forest.mem_visited_walk.mpr
    ⟨hreached.of_failing fun _ _ herror => error_excluding herror, hfound⟩

theorem visited_subset_excluding :
    recognizer.visited report ⊆ (recognizer.excluding program).visited report := by
  intro e he
  obtain ⟨pid, hpid, hfind⟩ := List.mem_filterMap.mp he
  exact List.mem_filterMap.mpr ⟨pid, mem_visited_excluding hpid, hfind⟩

/-- What is visited only because a program is ignored lies below a process of that program. -/
theorem below_of_visited_excluding {pid : Pid}
    (h : pid ∈ ((recognizer.excluding program).walk report).visited)
    (hnew : pid ∉ (recognizer.walk report).visited) :
    ∃ above e, above ∈ (recognizer.walk report).visited
      ∧ (forest report).find? above = some e
      ∧ runs program e = true
      ∧ (forest report).Below above pid := by
  obtain ⟨hreached, hfound⟩ := Forest.mem_visited_walk.mp h
  rcases hreached.cases_of_other with hbefore | ⟨above, e, found, rejection, habove, hfind, hok,
    herror, hbelow⟩
  · exact absurd (Forest.mem_visited_walk.mpr ⟨hbefore, hfound⟩) hnew
  · exact ⟨above, e, Forest.mem_visited_walk.mpr ⟨habove, e, hfind⟩, hfind,
      runs_of_error_excluding hok herror, hbelow⟩

/-- The entries of the processes that do not run a program. -/
def entriesBeside (recognizer : Recognizer τ) (report : Report) (program : Path) : List Entry :=
  ((recognizer.visited report).filter (!runs program ·)).flatMap recognizer.contribution

/-- The entries of other programs all stay, each at least as often. -/
theorem entriesBeside_subperm_excluding :
    (recognizer.entriesBeside report program).Subperm
      ((recognizer.excluding program).entries report) := by
  have hnodup : (recognizer.visited report).Nodup := Forest.nodup_visits
  obtain ⟨others, hperm, hsublist⟩ : ((recognizer.visited report).filter (!runs program ·)).Subperm
      ((recognizer.excluding program).visited report) :=
    List.subperm_of_subset (hnodup.filter _)
      fun e he => visited_subset_excluding (List.mem_filter.mp he).1
  have hsame : recognizer.entriesBeside report program
      = ((recognizer.visited report).filter (!runs program ·)).flatMap
          (recognizer.excluding program).contribution := by
    refine List.flatMap_congr fun e he => ?_
    have hother : runs program e = false := by simpa using (List.mem_filter.mp he).2
    exact (contribution_excluding_of_not_runs hother).symm
  rw [hsame, entries_eq_flatMap]
  exact ⟨_, hperm.flatMap_right _, hsublist.flatMap _⟩

/-- **Ignoring a program only touches that program.**  Its own processes are not recognized any
more.  Everything visited before is visited, other programs are recognized as they were and keep
their entries, and whatever is visited besides lies below a visited process of the program. -/
theorem excluding_spares_others (recognizer : Recognizer τ) (report : Report) (program : Path) :
    (∀ pid ∈ (recognizer.walk report).visited,
      pid ∈ ((recognizer.excluding program).walk report).visited)
    ∧ (∀ execution, runs program execution = false →
      (recognizer.excluding program).recognize execution = recognizer.recognize execution)
    ∧ (∀ execution, runs program execution = true →
      (recognizer.excluding program).recognize execution
        = .error (.excluded execution.command.program))
    ∧ (recognizer.entriesBeside report program).Subperm
        ((recognizer.excluding program).entries report)
    ∧ ∀ pid ∈ ((recognizer.excluding program).walk report).visited,
        pid ∉ (recognizer.walk report).visited →
        ∃ above execution, above ∈ (recognizer.walk report).visited
          ∧ (forest report).find? above = some execution
          ∧ runs program execution = true
          ∧ (forest report).Below above pid :=
  ⟨fun _ => mem_visited_excluding, fun _ => recognize_excluding_of_not_runs,
    fun _ => recognize_excluding_of_runs, entriesBeside_subperm_excluding,
    fun _ => below_of_visited_excluding⟩

/-- Without the driver the compiler proper has its entry, and the other compiler keeps the one that
it has. -/
theorem excluding_spares_others_mixedBuild :
    (ofSelection {}).entries mixedBuild
      = [entryOf "nvcc" "/src/a.cu" "/src/a.o", entryOf "gcc" "/src/b.c" "/src/b.o"]
    ∧ (ofSelection {}).entriesBeside mixedBuild ⟨"nvcc"⟩ = [entryOf "gcc" "/src/b.c" "/src/b.o"]
    ∧ ((ofSelection {}).excluding ⟨"nvcc"⟩).entries mixedBuild
      = [entryOf "gcc" "/src/b.c" "/src/b.o", entryOf "gcc" "/src/a.c" "/src/a.o"]
    ∧ ((ofSelection {}).excluding ⟨"nvcc"⟩).recognize (calling ⟨3⟩ ⟨2⟩ ["nvcc", "-c", "a.cu"])
      = .error (.excluded ⟨"nvcc"⟩)
    ∧ ∃ above execution, above ∈ ((ofSelection {}).walk mixedBuild).visited
        ∧ (forest mixedBuild).find? above = some execution
        ∧ runs ⟨"nvcc"⟩ execution = true
        ∧ (forest mixedBuild).Below above ⟨4⟩ := by
  obtain ⟨-, -, hexcluded, -, hbelow⟩ :=
    excluding_spares_others (ofSelection {}) mixedBuild ⟨"nvcc"⟩
  refine ⟨entries_mixedBuild, ?_, ?_, hexcluded _ (by decide), hbelow ⟨4⟩ ?_ ?_⟩
  · rw [entriesBeside, visited_eq_listedVisits]
    decide
  · rw [entries_eq_listed]
    decide
  · rw [walk, forest, Forest.visited_walk_eq_listedIds]
    decide
  · rw [walk, forest, Forest.visited_walk_eq_listedIds]
    decide

end CompileCommands.Recognizer
