/-
Records that a trace repeats.

A tracer may report a process twice.  As long as the last record of the process stays the last one,
the database does not show it: the process is found by the same record, no tree starts anywhere
else, and though the process is now a child twice, the walk visits it where it did.

Nothing else is assumed of the trace, so its process ids may have been used by several processes,
and parents may form a cycle.
-/
import CompileCommands.Proofs.Forest.Repetition
import CompileCommands.Proofs.Recognizer.Pruning

namespace CompileCommands.Recognizer

/-- The trace with more records behind its own. -/
def recordedAgain (report : Report) (repeated : List Execution) : Report :=
  { report with executions := report.executions ++ repeated }

/-- **Records that a trace repeats change nothing**: the same processes are visited in the same
order, and the entries are the same.  In particular a trace may be recorded twice. -/
theorem entries_recordedAgain {τ : Type} [ToolLike τ] (recognizer : Recognizer τ)
    (report : Report) :
    (∀ repeated, Forest.Repeats Execution.pid report.executions repeated →
      (recognizer.walk (recordedAgain report repeated)).visited = (recognizer.walk report).visited
      ∧ recognizer.entries (recordedAgain report repeated) = recognizer.entries report)
    ∧ recognizer.entries (recordedAgain report report.executions) = recognizer.entries report := by
  have hrepeated : ∀ repeated, Forest.Repeats Execution.pid report.executions repeated →
      (recognizer.walk (recordedAgain report repeated)).visited = (recognizer.walk report).visited
      ∧ recognizer.entries (recordedAgain report repeated) = recognizer.entries report := by
    intro repeated h
    have halike : Forest.Alike (forest report) (forest (recordedAgain report repeated)) := h.alike
    obtain ⟨hvisited, houtputs⟩ := halike.walk recognizer.recognize
    exact ⟨hvisited, congrArg (List.filterMap Invocation.entry) houtputs⟩
  exact ⟨hrepeated, (hrepeated report.executions (.refl report.executions)).2⟩

/-- A build tool calls two compilers, the second under the id of the first, and two more are parents
of each other. -/
def reusedIds : Report where
  executions := [
    calling ⟨2⟩ ⟨1⟩ ["make"],
    calling ⟨3⟩ ⟨2⟩ ["gcc", "-c", "a.c"],
    calling ⟨3⟩ ⟨2⟩ ["gcc", "-c", "b.c"],
    calling ⟨5⟩ ⟨6⟩ ["gcc", "-c", "c.c"],
    calling ⟨6⟩ ⟨5⟩ ["gcc", "-c", "d.c"]]

/-- Both records of the reused id are repeated, and one of the records in the cycle. -/
def repeatedRecords : List Execution := [
  calling ⟨3⟩ ⟨2⟩ ["gcc", "-c", "a.c"],
  calling ⟨6⟩ ⟨5⟩ ["gcc", "-c", "d.c"],
  calling ⟨3⟩ ⟨2⟩ ["gcc", "-c", "b.c"]]

theorem entries_recordedAgain_reusedIds :
    Forest.Repeats Execution.pid reusedIds.executions repeatedRecords
      ∧ (ofSelection {}).entries (recordedAgain reusedIds repeatedRecords)
        = (ofSelection {}).entries reusedIds
      ∧ (ofSelection {}).entries (recordedAgain reusedIds reusedIds.executions)
        = (ofSelection {}).entries reusedIds
      ∧ (ofSelection {}).entries reusedIds = [entryOf "gcc" "/src/b.c" "/src/b.o"] := by
  have hrepeats : Forest.Repeats Execution.pid reusedIds.executions repeatedRecords := by
    constructor
    · simp [reusedIds, repeatedRecords]
    · simp [reusedIds, repeatedRecords, calling, Execution.pid]
  obtain ⟨hrepeated, htwice⟩ := entries_recordedAgain (ofSelection {}) reusedIds
  refine ⟨hrepeats, (hrepeated repeatedRecords hrepeats).2, htwice, ?_⟩
  rw [entries_eq_listed]
  decide

end CompileCommands.Recognizer
