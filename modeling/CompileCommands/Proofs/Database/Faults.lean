/-
The one fault that an entry of a trace can have.

An entry names a source that was told by its name, so its file is never empty, and its command
line starts with the compiler.  What may be missing is the directory: an entry has the working
directory of its process, whatever the tracer reported.  The directory is looked at before the
output, which is empty only in an empty directory, so no other fault is ever found.

Such an entry is written like any other, but the database is rejected when it is read.
-/
import CompileCommands.Proofs.Database.RoundTrip

namespace CompileCommands

/-! ### The fault of an entry -/

/-- The directory is at fault where a file is named but no directory. -/
theorem Entry.fault?_eq_emptyDirectory {entry : Entry} (hfile : entry.file.isEmpty = false)
    (hdirectory : entry.directory.isEmpty = true) : entry.fault? = some .emptyDirectory := by
  rw [fault?, if_neg (by simp [hfile]), if_pos hdirectory]

/-- Leaving the output out does not help it. -/
theorem EntryFormat.fault?_shown_of_emptyDirectory (format : EntryFormat) {entry : Entry}
    (hfile : entry.file.isEmpty = false) (hdirectory : entry.directory.isEmpty = true) :
    (format.shown entry).fault? = some .emptyDirectory :=
  Entry.fault?_eq_emptyDirectory hfile hdirectory

/-- A source is not empty wherever it is seen from. -/
theorem Command.isEmpty_resolve_source (command : Command) {source : String}
    (h : Flag.kindOf source = .source) : (command.resolve ⟨source⟩).isEmpty = false := by
  have hsource := (Flag.kindOf_eq_source_iff.mp h).2
  exact Path.isEmpty_eq_false_iff.mpr
    (SourceFile.ne_empty_of_isSource (SourceFile.isSource_join hsource _))

/-! ### The entries of a process -/

theorem Driver.file_of_invocations {command : Command} {found : List Invocation}
    (hfound : invocations command = .ok found) {i : Invocation} (hi : i ∈ found)
    {entry : Entry} (hentry : i.entry = some entry) :
    entry.file.isEmpty = false ∧ entry.directory = command.workingDirectory := by
  obtain ⟨source, hsource, -, rfl⟩ := compilation_of_invocations hfound hi hentry
  cases hentry
  exact ⟨command.isEmpty_resolve_source (kindOf_of_mem_sources hsource), rfl⟩

theorem Tool.file_of_invocations {tool : Tool} {command : Command} {found : List Invocation}
    (hfound : tool.invocations command = .ok found) {i : Invocation} (hi : i ∈ found)
    {entry : Entry} (hentry : i.entry = some entry) :
    entry.file.isEmpty = false ∧ entry.directory = command.workingDirectory := by
  obtain ⟨inner, all, j, f, hdirectory, hinner, hj, rfl⟩ := driver_of_invocations hfound hi
  obtain ⟨unchanged, hunchanged, hfile, hsame⟩ := Invocation.entry_mapFlags hentry
  rw [hfile, hsame, ← hdirectory]
  exact Driver.file_of_invocations hinner hj hunchanged

namespace Recognizer

variable {recognizer : Recognizer} {report : Report}

theorem file_of_mem_contribution {execution : Execution} {entry : Entry}
    (h : entry ∈ recognizer.contribution execution) :
    entry.file.isEmpty = false ∧ entry.directory = execution.command.workingDirectory := by
  obtain ⟨found, hfound, i, hi, hentry⟩ := mem_contribution_iff.mp h
  obtain ⟨tool, -, htool⟩ := recognize_eq_ok_iff.mp hfound
  exact Tool.file_of_invocations htool hi hentry

theorem fault?_of_contribution {execution : Execution} {entry : Entry}
    (h : entry ∈ recognizer.contribution execution) :
    entry.fault? = if entry.directory.isEmpty then some .emptyDirectory else none := by
  obtain ⟨hfile, hdirectory⟩ := file_of_mem_contribution h
  by_cases hempty : entry.directory.isEmpty = true
  · rw [if_pos hempty]
    exact Entry.fault?_eq_emptyDirectory hfile hempty
  · rw [if_neg hempty]
    rw [hdirectory, Bool.not_eq_true] at hempty
    exact fault?_of_mem_contribution hempty entry h

/-! ### The entries of a trace -/

theorem file_of_mem_entries {entry : Entry} (h : entry ∈ recognizer.entries report) :
    entry.file.isEmpty = false := by
  obtain ⟨execution, -, hentry⟩ := mem_entries_iff.mp h
  exact (file_of_mem_contribution hentry).1

theorem fault?_of_entries {entry : Entry} (h : entry ∈ recognizer.entries report) :
    entry.fault? = if entry.directory.isEmpty then some .emptyDirectory else none := by
  obtain ⟨execution, -, hentry⟩ := mem_entries_iff.mp h
  exact fault?_of_contribution hentry

/-- The entries are without a fault exactly if no process without a working directory adds to
them. -/
theorem faultless_iff : (∀ entry ∈ recognizer.entries report, entry.fault? = none)
    ↔ ∀ execution ∈ recognizer.visited report,
        execution.command.workingDirectory.isEmpty = true →
          recognizer.contribution execution = [] := by
  constructor
  · intro h execution hvisited hempty
    rw [List.eq_nil_iff_forall_not_mem]
    intro entry hentry
    obtain ⟨hfile, hdirectory⟩ := file_of_mem_contribution hentry
    have hfault := h entry (mem_entries_iff.mpr ⟨execution, hvisited, hentry⟩)
    rw [← hdirectory] at hempty
    rw [Entry.fault?_eq_emptyDirectory hfile hempty] at hfault
    cases hfault
  · intro h entry hentry
    obtain ⟨execution, hvisited, hentry⟩ := mem_entries_iff.mp hentry
    refine fault?_of_mem_contribution ?_ entry hentry
    rw [← Bool.not_eq_true]
    intro hempty
    rw [h execution hvisited hempty] at hentry
    cases hentry

/-- A written trace is read back unless an entry has no directory. -/
theorem read_render_entries (recognizer : Recognizer) (report : Report) (format : EntryFormat) :
    Database.read (.ok (Database.render format (recognizer.entries report)).toUTF8)
      = if ∃ entry ∈ recognizer.entries report, entry.directory.isEmpty = true
        then .error (.invalid .emptyDirectory)
        else .ok ((recognizer.entries report).map format.shown) := by
  have hfaulty : ∀ entry ∈ recognizer.entries report, entry.directory.isEmpty = true →
      (StoredEntry.ofEntry format entry).toEntry = .error (.invalid .emptyDirectory) :=
    fun entry hentry hempty => StoredEntry.toEntry_ofEntry_of_fault format
      (format.fault?_shown_of_emptyDirectory (file_of_mem_entries hentry) hempty)
  by_cases hempty : ∃ entry ∈ recognizer.entries report, entry.directory.isEmpty = true
  · rw [if_pos hempty, Database.read_render_eq_mapM]
    obtain ⟨missing, hmissing, hdirectory⟩ := hempty
    refine mapM_eq_error (fun entry hentry => ?_) ⟨missing, hmissing, hfaulty _ hmissing hdirectory⟩
    have hfault := fault?_of_entries hentry
    by_cases hentryEmpty : entry.directory.isEmpty = true
    · exact .inr (hfaulty entry hentry hentryEmpty)
    · rw [if_neg hentryEmpty] at hfault
      exact .inl ⟨_, StoredEntry.toEntry_ofEntry format hfault⟩
  · rw [if_neg hempty]
    refine Database.read_render format fun entry hentry => ?_
    rw [fault?_of_entries hentry, if_neg fun hdirectory => hempty ⟨entry, hentry, hdirectory⟩]

/-- **An entry of a trace has no fault but an empty directory**, and has that exactly where its
process has no working directory.  A database with such an entry is written all the same, and
rejected when it is read. -/
theorem faults_of_entries (recognizer : Recognizer) (report : Report) :
    (∀ entry ∈ recognizer.entries report,
      entry.fault? = if entry.directory.isEmpty then some .emptyDirectory else none)
    ∧ ((∀ entry ∈ recognizer.entries report, entry.fault? = none)
      ↔ ∀ execution ∈ recognizer.visited report,
          execution.command.workingDirectory.isEmpty = true →
            recognizer.contribution execution = [])
    ∧ ∀ format : EntryFormat,
        Database.read (.ok (Database.render format (recognizer.entries report)).toUTF8)
          = if ∃ entry ∈ recognizer.entries report, entry.directory.isEmpty = true
            then .error (.invalid .emptyDirectory)
            else .ok ((recognizer.entries report).map format.shown) :=
  ⟨fun _ hentry => fault?_of_entries hentry, faultless_iff, read_render_entries recognizer report⟩

/-- A trace whose process has no working directory. -/
def strayTrace : String :=
  "\x7b\"executions\": [\x7b\"command\": \x7b\"program\": \"/usr/bin/gcc\", "
    ++ "\"arguments\": [\"gcc\", \"-c\", \"a.c\"], \"working_dir\": \"\"\x7d, "
    ++ "\"run\": \x7b\"pid\": 1\x7d\x7d]\x7d"

def strayCall : Execution where
  command := ⟨⟨"/usr/bin/gcc"⟩, ["gcc", "-c", "a.c"], ⟨""⟩, ∅⟩
  run := ⟨⟨1⟩, ⟨0⟩, []⟩

def strayEntry : Entry :=
  ⟨⟨"a.c"⟩, ⟨""⟩, some ⟨"a.o"⟩, ["gcc", "-c", "-o", "a.o", "a.c"]⟩

/-- **A trace that is accepted may give a database that is not.** -/
theorem rejected_strayTrace :
    Report.ofFile (.ok strayTrace.toUTF8) = .ok ⟨default, [strayCall]⟩
      ∧ (ofSelection {}).entries ⟨default, [strayCall]⟩ = [strayEntry]
      ∧ strayEntry.fault? = some .emptyDirectory
      ∧ Database.read (.ok (Database.render {} [strayEntry]).toUTF8)
        = .error (.invalid .emptyDirectory) := by
  have hentries : (ofSelection {}).entries ⟨default, [strayCall]⟩ = [strayEntry] := by
    rw [entries_eq_listed]
    decide
  refine ⟨by decide +kernel, hentries, by decide, ?_⟩
  rw [← hentries, read_render_entries, hentries,
    if_pos ⟨strayEntry, List.mem_singleton_self _, rfl⟩]

end Recognizer

end CompileCommands
