/-
Where the entries of a database come from, and why none of them has a fault.

Entries are made of the compilations of a trace.  Their paths are seen from the working
directory of the process, so none of them is empty unless that is, and their arguments start
with the compiler.  A merge makes no entries of its own.
-/
import CompileCommands.Database.Merge
import CompileCommands.Proofs.Compiler.Records
import CompileCommands.Proofs.Path
import CompileCommands.Proofs.Recognizer.Pruning

namespace CompileCommands

/-! ### Entries without a fault -/

private theorem check_eq_none_iff {c : Prop} [Decidable c] {fault : Entry.Fault}
    {rest : Option Entry.Fault} :
    (if c then some fault else rest) = none ↔ ¬ c ∧ rest = none := by
  by_cases hc : c
  · simp [hc]
  · simp [hc]

/-- All fields of an entry without a fault say something. -/
theorem Entry.fault?_eq_none_iff {entry : Entry} :
    entry.fault? = none ↔ entry.file.isEmpty = false ∧ entry.directory.isEmpty = false
      ∧ (∀ output, entry.output = some output → output.isEmpty = false)
      ∧ entry.arguments ≠ [] := by
  have houtput : ¬ entry.output.any Path.isEmpty = true
      ↔ ∀ output, entry.output = some output → output.isEmpty = false := by
    cases entry.output <;> simp
  rw [fault?, check_eq_none_iff, check_eq_none_iff, check_eq_none_iff, check_eq_none_iff, houtput]
  simp

/-! ### The paths of a record -/

/-- A compilation in a directory, whose paths are seen from there. -/
def Invocation.SeenFrom (directory : Path) : Invocation → Prop
  | .compile command source output _ =>
      command.workingDirectory = directory
        ∧ (∃ path, source = directory.join path) ∧ ∃ path, output = directory.join path
  | .query _ | .preprocess .. => True

theorem Invocation.seenFrom_mapFlags {directory : Path} {f : List String → List String}
    {i : Invocation} (h : i.SeenFrom directory) : (i.mapFlags f).SeenFrom directory := by
  cases i with
  | query | preprocess => trivial
  | compile => exact h

theorem Invocation.fault?_entry {directory : Path} (hdirectory : directory.isEmpty = false)
    {i : Invocation} (h : i.SeenFrom directory) {entry : Entry} (hentry : i.entry = some entry) :
    entry.fault? = none := by
  cases i with
  | query | preprocess => cases hentry
  | compile command source output flags =>
    obtain ⟨hworking, ⟨inSource, hsource⟩, inOutput, houtput⟩ := h
    cases hentry
    refine Entry.fault?_eq_none_iff.mpr ⟨?_, ?_, ?_, ?_⟩
    · rw [hsource]
      exact Path.isEmpty_join hdirectory inSource
    · rw [hworking]
      exact hdirectory
    · intro path hpath
      rw [← Option.some.inj hpath, houtput]
      exact Path.isEmpty_join hdirectory inOutput
    · simp [compileArguments]

/-! ### The records of a trace -/

theorem Driver.seenFrom_record (command : Command) (flags : List Flag) (source : String) :
    (record command flags source).SeenFrom command.workingDirectory := by
  unfold record
  by_cases h : onlyPreprocesses flags = true
  · rw [if_pos h]
    trivial
  · rw [if_neg h]
    exact ⟨rfl, ⟨_, rfl⟩, _, rfl⟩

theorem Driver.seenFrom_of_invocations {command : Command} {found : List Invocation}
    (h : invocations command = .ok found) :
    ∀ i ∈ found, i.SeenFrom command.workingDirectory := by
  intro i hi
  rcases cases_of_invocations h hi with rfl | ⟨source, -, rfl⟩
  · trivial
  · exact seenFrom_record command _ source

theorem Tool.seenFrom_of_invocations {tool : Tool} {command : Command} {found : List Invocation}
    (h : tool.invocations command = .ok found) :
    ∀ i ∈ found, i.SeenFrom command.workingDirectory := by
  intro i hi
  obtain ⟨inner, all, j, f, hdirectory, hinner, hj, rfl⟩ := driver_of_invocations h hi
  rw [← hdirectory]
  exact Invocation.seenFrom_mapFlags (Driver.seenFrom_of_invocations hinner j hj)

namespace Recognizer

variable {recognizer : Recognizer}

theorem seenFrom_of_recognize {execution : Execution} {found : List Invocation}
    (h : recognizer.recognize execution = .ok found) :
    ∀ i ∈ found, i.SeenFrom execution.command.workingDirectory := by
  obtain ⟨tool, -, htool⟩ := recognize_eq_ok_iff.mp h
  exact Tool.seenFrom_of_invocations htool

theorem fault?_of_mem_contribution {execution : Execution}
    (hdirectory : execution.command.workingDirectory.isEmpty = false) :
    ∀ entry ∈ recognizer.contribution execution, entry.fault? = none := by
  intro entry hentry
  obtain ⟨found, hfound, i, hi, hentry⟩ := mem_contribution_iff.mp hentry
  exact Invocation.fault?_entry hdirectory (seenFrom_of_recognize hfound i hi) hentry

/-- **The entries of a trace have no fault** if all its processes ran somewhere. -/
theorem fault?_of_mem_entries {report : Report}
    (h : ∀ execution ∈ report.executions, execution.command.workingDirectory.isEmpty = false) :
    ∀ entry ∈ recognizer.entries report, entry.fault? = none := by
  intro entry hentry
  obtain ⟨execution, hvisited, hentry⟩ := mem_entries_iff.mp hentry
  obtain ⟨pid, -, hfind⟩ := List.mem_filterMap.mp hvisited
  have htraced : execution ∈ report.executions := (Forest.mem_of_find?_ofRecords hfind).1
  exact fault?_of_mem_contribution (h execution htraced) entry hentry

end Recognizer

/-! ### Merging -/

namespace Entry

theorem mem_of_mem_keepFirst {same : Entry → Entry → Bool} {kept entries : List Entry}
    {entry : Entry} (h : entry ∈ keepFirst same kept entries) : entry ∈ kept ∨ entry ∈ entries := by
  fun_induction keepFirst same kept entries with
  | case1 kept => exact .inl h
  | case2 kept first rest _ ih =>
    rcases ih h with hkept | hrest
    · exact .inl hkept
    · exact .inr (List.mem_cons_of_mem first hrest)
  | case3 kept first rest _ ih =>
    rcases ih h with hkept | hrest
    · rcases List.mem_append.mp hkept with hkept | hfirst
      · exact .inl hkept
      · exact .inr (List.mem_singleton.mp hfirst ▸ List.mem_cons_self)
    · exact .inr (List.mem_cons_of_mem first hrest)

/-- A merged database holds nothing that was not in one of the two. -/
theorem mem_of_mem_merge {left right : List Entry} {entry : Entry}
    (h : entry ∈ merge left right) : entry ∈ left ∨ entry ∈ right := by
  rcases mem_of_mem_keepFirst h with hnil | happend
  · cases hnil
  · exact List.mem_append.mp happend

end Entry

end CompileCommands
