/-
The database of a conversion, read again.

Whatever a conversion that succeeds has written can be read: the entries of the trace have no
fault, nor have those of a database that was kept, since that was read itself.  So the text
that was written is the text of exactly the accepted entries, and the file holds this text.
-/
import CompileCommands.Proofs.Conversion.Memory
import CompileCommands.Proofs.Database.RoundTrip

namespace CompileCommands.Conversion

variable {log log' : List LogEvent} {fs fs' : FileSystem} {options : Options}
  {configured : Option Path}

/-- What is gathered has no fault if what was found has none. -/
theorem Gathered.fault?_eq_none {found entries : List Entry} (h : Gathered fs options found entries)
    (hfound : ∀ entry ∈ found, entry.fault? = none) : ∀ entry ∈ entries, entry.fault? = none := by
  cases h with
  | alone => exact hfound
  | merged _ _ hexisting =>
    intro entry hentry
    obtain ⟨content, -, hread⟩ := loads_loadDatabase_iff.mp hexisting
    rcases Entry.mem_of_mem_merge hentry with hold | hnew
    · exact Database.fault?_of_read hread entry hold
    · exact hfound entry hnew

/-- A database that was saved is read as the entries that were accepted. -/
theorem loads_of_save {output : OutputOptions} {path : Path} {entries : List Entry} {n : Nat}
    (hvalid : ∀ entry ∈ entries, entry.fault? = none)
    (h : Yields (save FileSystem.files output path entries) log fs n log' fs') :
    ∃ created written, fs.create path = .ok created
      ∧ written = entries.filter (fun entry =>
          output.filter.accepts (created.isPresent entry.file) entry)
      ∧ n = written.length
      ∧ Loads (loadDatabase FileSystem.files path) fs' (written.map output.format.shown) := by
  obtain ⟨created, written, hcreate, hwritten, hwrite, hcount⟩ := written_of_save h
  refine ⟨created, written, hcreate, hwritten, hcount, ?_⟩
  have hkept : ∀ entry ∈ written, entry.fault? = none := by
    intro entry hentry
    rw [hwritten] at hentry
    exact hvalid entry (List.mem_filter.mp hentry).1
  exact loads_loadDatabase_iff.mpr
    ⟨_, FileSystem.openFile_write hwrite, Database.read_render output.format hkept⟩

/-- **A conversion that succeeds writes a database that is read as what it gathered**, less what
the filter does not accept, and in the order of the gathering. -/
theorem loads_of_run {fs fs' : FileSystem} {options : Options} {configured : Option Path}
    {n : Nat} {events : List LogEvent}
    (directories : ∀ report, Loads (loadReport FileSystem.files options.input) fs report →
      ∀ execution ∈ report.executions, execution.command.workingDirectory.isEmpty = false)
    (succeeds : (result (run FileSystem.files options configured)).run fs
      = ((.ok n, events), fs')) :
    ∃ loaded config report entries created written,
      Loads (loadConfig FileSystem.files (options.config <|> configured)) fs loaded
      ∧ config = loaded.withOptions options
      ∧ Loads (loadReport FileSystem.files options.input) fs report
      ∧ Gathered fs options ((Recognizer.ofSelection config.selection).entries report) entries
      ∧ fs.create options.output = .ok created
      ∧ written = entries.filter (fun entry =>
          config.output.filter.accepts (created.isPresent entry.file) entry)
      ∧ n = written.length
      ∧ Loads (loadDatabase FileSystem.files options.output) fs'
          (written.map config.output.format.shown) := by
  obtain ⟨loaded, report, entries, hloaded, hreport, hgathered, _, _, hsave⟩ :=
    steps_of_run succeeds
  have hfound : ∀ entry ∈ (Recognizer.ofSelection
      (loaded.withOptions options).selection).entries report, entry.fault? = none :=
    Recognizer.fault?_of_mem_entries (directories report hreport)
  obtain ⟨created, written, hcreate, hwritten, hcount, hload⟩ :=
    loads_of_save (hgathered.fault?_eq_none hfound) hsave
  exact ⟨loaded, _, report, entries, created, written, hloaded, rfl, hreport, hgathered, hcreate,
    hwritten, hcount, hload⟩

/-! ### A database that is added to -/

def recordedCall : Execution where
  command := ⟨⟨"cc"⟩, ["cc", "-c", "a.c"], ⟨"/src"⟩, ∅⟩
  run := ⟨⟨1⟩, ⟨0⟩, []⟩

def recordedEntry : Entry :=
  ⟨⟨"/src/a.c"⟩, ⟨"/src"⟩, some ⟨"/src/a.o"⟩, ["cc", "-c", "-o", "/src/a.o", "/src/a.c"]⟩

def recordedTrace : String :=
  "\x7b\"executions\": [\x7b\"command\": \x7b\"program\": \"cc\", "
    ++ "\"arguments\": [\"cc\", \"-c\", \"a.c\"], \"working_dir\": \"/src\"\x7d, "
    ++ "\"run\": \x7b\"pid\": 1\x7d\x7d]\x7d"

def olderEntry : Entry := ⟨⟨"/src/b.c"⟩, ⟨"/src"⟩, none, ["cc", "-c", "b.c"]⟩

def olderDatabase : String :=
  "[\x7b\"file\": \"/src/b.c\", \"directory\": \"/src\", \"command\": \"cc -c 'b.c'\"\x7d]"

/-- The trace of a call, beside a database with another one. -/
def rebuilt : FileSystem :=
  ((FileSystem.empty ["src"]).put ["src", "events.json"] (.file recordedTrace.toUTF8)).put
    ["src", "compile_commands.json"] (.file olderDatabase.toUTF8)

def appending : Options where
  append := true

theorem ofFile_recordedTrace :
    Report.ofFile (.ok recordedTrace.toUTF8) = .ok ⟨default, [recordedCall]⟩ := by
  decide +kernel

theorem loadReport_rebuilt :
    Loads (loadReport FileSystem.files appending.input) rebuilt ⟨default, [recordedCall]⟩ :=
  loads_loadReport_iff.mpr ⟨.ok recordedTrace.toUTF8, rfl, ofFile_recordedTrace⟩

theorem loadDatabase_rebuilt :
    Loads (loadDatabase FileSystem.files appending.output) rebuilt [olderEntry] :=
  loads_loadDatabase_iff.mpr ⟨.ok olderDatabase.toUTF8, rfl, by decide +kernel⟩

theorem present_rebuilt : rebuilt.isPresent appending.output = true := by decide

theorem entries_rebuilt :
    (Recognizer.ofSelection (Config.withOptions {} appending).selection).entries
      ⟨default, [recordedCall]⟩ = [recordedEntry] := by
  rw [Recognizer.entries_eq_listed]
  decide

/-- The call is added behind the entry that was there. -/
theorem loads_of_run_rebuilt :
    ∃ events fs', (result (run FileSystem.files appending none)).run rebuilt
        = ((.ok 2, events), fs')
      ∧ Loads (loadDatabase FileSystem.files appending.output) fs'
          [olderEntry, recordedEntry] := by
  have hdirectories : ∀ report, Loads (loadReport FileSystem.files appending.input) rebuilt report →
      ∀ execution ∈ report.executions, execution.command.workingDirectory.isEmpty = false := by
    intro report hreport execution hexecution
    rw [← loadReport_rebuilt.unique hreport] at hexecution
    rw [List.mem_singleton.mp hexecution]
    rfl
  have hdefault : Loads (loadConfig FileSystem.files (appending.config <|> none)) rebuilt {} :=
    fun _ => rfl
  have hmerged : Gathered rebuilt appending
      ((Recognizer.ofSelection (Config.withOptions {} appending).selection).entries
        ⟨default, [recordedCall]⟩) [olderEntry, recordedEntry] := by
    rw [entries_rebuilt]
    exact .merged rfl present_rebuilt loadDatabase_rebuilt
  obtain ⟨created, hcreate⟩ : ∃ created, rebuilt.create appending.output = .ok created :=
    ⟨_, rfl⟩
  obtain ⟨events, fs', hyields⟩ := yields_run hdefault loadReport_rebuilt hmerged hcreate
  have hrun : (result (run FileSystem.files appending none)).run rebuilt
      = ((.ok 2, events), fs') := hyields
  refine ⟨events, fs', hrun, ?_⟩
  obtain ⟨loaded, config, report, entries, created, written, hloaded, rfl, hreport, hgathered, -,
    rfl, -, hread⟩ := loads_of_run hdirectories hrun
  obtain rfl := hloaded.unique hdefault
  obtain rfl := hreport.unique loadReport_rebuilt
  obtain rfl := hgathered.unique hmerged
  exact hread

end CompileCommands.Conversion
