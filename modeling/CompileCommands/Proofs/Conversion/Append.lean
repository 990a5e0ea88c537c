/-
A conversion that adds to its output, run again.

The second run reads the same configuration and the same trace, since the first one wrote
elsewhere, and finds the same entries.  It merges them with what the first run wrote, and the
file is created as it was before, so the same sources exist.  Hence the file stays as it is
exactly if this merge adds nothing that is accepted and drops nothing.

It may well drop something: a first run that found no file has nothing to merge with, and writes
equivalent entries side by side.
-/
import CompileCommands.Proofs.Conversion.ReadBack
import CompileCommands.Proofs.Database.Merge

namespace CompileCommands

theorem Recognizer.output_of_mem_entries {recognizer : Recognizer} {report : Report}
    {entry : Entry} (h : entry ∈ recognizer.entries report) : entry.output.isSome = true := by
  obtain ⟨i, -, hentry⟩ := List.mem_filterMap.mp h
  exact Invocation.output_of_entry hentry

namespace Conversion

variable {log log' : List LogEvent} {fs fs' : FileSystem} {options : Options}
  {configured : Option Path} {n : Nat}

/-! ### What a run leaves in its output -/

/-- Is an entry written where sources are looked for in these files? -/
def writes (output : OutputOptions) (fs : FileSystem) (entry : Entry) : Bool :=
  output.filter.accepts (fs.isPresent entry.file) entry

/-- A run gathers entries and writes those that are accepted. -/
theorem write_of_run (h : Yields (run FileSystem.files options configured) log fs n log' fs') :
    ∃ loaded config report found entries created,
      Loads (loadConfig FileSystem.files (options.config <|> configured)) fs loaded
      ∧ config = loaded.withOptions options
      ∧ Loads (loadReport FileSystem.files options.input) fs report
      ∧ found = (Recognizer.ofSelection config.selection).entries report
      ∧ Gathered fs options found entries
      ∧ fs.create options.output = .ok created
      ∧ fs.write options.output (Database.render config.output.format
          (entries.filter (writes config.output created))).toUTF8 = .ok fs' := by
  obtain ⟨loaded, report, entries, hloaded, hreport, hgathered, _, _, hsave⟩ := steps_of_run h
  obtain ⟨created, written, hcreate, rfl, hwrite, -⟩ := written_of_save hsave
  exact ⟨loaded, _, report, _, entries, created, hloaded, rfl, hreport, rfl, hgathered, hcreate,
    FileSystem.write_of_create hcreate hwrite⟩

/-- A run that can load what it needs and create its output writes what it gathers. -/
theorem exists_write_of_run {loaded config : Config} {report : Report}
    {found entries : List Entry} {created : FileSystem}
    (hloaded : Loads (loadConfig FileSystem.files (options.config <|> configured)) fs loaded)
    (hconfig : config = loaded.withOptions options)
    (hreport : Loads (loadReport FileSystem.files options.input) fs report)
    (hfound : found = (Recognizer.ofSelection config.selection).entries report)
    (hgathered : Gathered fs options found entries)
    (hcreate : fs.create options.output = .ok created) (log : List LogEvent) :
    ∃ n log' fs', Yields (run FileSystem.files options configured) log fs n log' fs'
      ∧ fs.write options.output (Database.render config.output.format
          (entries.filter (writes config.output created))).toUTF8 = .ok fs' := by
  subst hconfig hfound
  obtain ⟨log', fs', hrun⟩ := yields_run hloaded hreport hgathered hcreate
  refine ⟨_, log', fs', hrun, ?_⟩
  obtain ⟨loaded', config', report', found', entries', created', hloaded', rfl, hreport', rfl,
    hgathered', hcreate', hwrite⟩ := write_of_run hrun
  obtain rfl := hloaded'.unique hloaded
  obtain rfl := hreport'.unique hreport
  obtain rfl := hgathered'.unique hgathered
  rw [hcreate] at hcreate'
  cases hcreate'
  exact hwrite

/-! ### Running again -/

/-- What is read before the output is written does not lie where the output does. -/
structure OutputApart (fs : FileSystem) (options : Options) (configured : Option Path) :
    Prop where
  input : fs.resolve options.input ≠ fs.resolve options.output
  config : ∀ path, (options.config <|> configured) = some path →
    fs.resolve path ≠ fs.resolve options.output

/-- The configuration is the same after the output was written. -/
theorem OutputApart.loadConfig (h : OutputApart fs options configured) {content : ByteArray}
    (hwrite : fs.write options.output content = .ok fs') {loaded : Config}
    (hloaded : Loads (loadConfig FileSystem.files (options.config <|> configured)) fs loaded) :
    Loads (loadConfig FileSystem.files (options.config <|> configured)) fs' loaded := by
  cases hpath : (options.config <|> configured) with
  | none =>
    rw [hpath] at hloaded
    exact fun log => yields_pure.mpr ⟨(yields_pure.mp (hloaded [])).1, rfl, rfl⟩
  | some path =>
    rw [hpath] at hloaded
    obtain ⟨found, hopen, hdecode⟩ := loads_loadConfig_iff.mp hloaded
    exact loads_loadConfig_iff.mpr
      ⟨found, FileSystem.openFile_write_of_ne hwrite (h.config path hpath) hopen, hdecode⟩

/-- The trace is the same after the output was written. -/
theorem OutputApart.loadReport (h : OutputApart fs options configured) {content : ByteArray}
    (hwrite : fs.write options.output content = .ok fs') {report : Report}
    (hreport : Loads (loadReport FileSystem.files options.input) fs report) :
    Loads (loadReport FileSystem.files options.input) fs' report := by
  obtain ⟨found, hopen, hdecode⟩ := loads_loadReport_iff.mp hreport
  exact loads_loadReport_iff.mpr
    ⟨found, FileSystem.openFile_write_of_ne hwrite h.input hopen, hdecode⟩

/-- Another run merges what was found into what was written, and leaves the output alone exactly
if that changes nothing. -/
theorem second_run (append : options.append = true) (apart : OutputApart fs options configured)
    (directories : ∀ report, Loads (loadReport FileSystem.files options.input) fs report →
      ∀ execution ∈ report.executions, execution.command.workingDirectory.isEmpty = false)
    (h : Yields (run FileSystem.files options configured) log fs n log' fs') :
    ∃ loaded config report found entries created written,
      Loads (loadConfig FileSystem.files (options.config <|> configured)) fs loaded
      ∧ config = loaded.withOptions options
      ∧ Loads (loadReport FileSystem.files options.input) fs report
      ∧ found = (Recognizer.ofSelection config.selection).entries report
      ∧ Gathered fs options found entries
      ∧ fs.create options.output = .ok created
      ∧ written = (entries.filter (writes config.output created)).map config.output.format.shown
      ∧ Loads (loadDatabase FileSystem.files options.output) fs' written
      ∧ ∃ m events fs'', Yields (run FileSystem.files options configured) [] fs' m events fs''
        ∧ (fs''.openFile options.output = fs'.openFile options.output
          ↔ ((Entry.merge written found).filter (writes config.output created)).map
              config.output.format.shown = written) := by
  obtain ⟨loaded, config, report, found, entries, created, hloaded, hconfig, hreport, hfound,
    hgathered, hcreate, hwrite⟩ := write_of_run h
  have hvalid : ∀ entry ∈ found, entry.fault? = none := by
    rw [hfound]
    exact Recognizer.fault?_of_mem_entries (directories report hreport)
  have hfaultless : ∀ entry ∈ entries.filter (writes config.output created),
      entry.fault? = none :=
    fun entry hentry => hgathered.fault?_eq_none hvalid entry (List.mem_filter.mp hentry).1
  have hdatabase := loads_loadDatabase_iff.mpr
    ⟨_, FileSystem.openFile_write hwrite, Database.read_render config.output.format hfaultless⟩
  -- The second run starts from the files of the first, and creates its output as that one did.
  have hmerged : Gathered fs' options found (Entry.merge _ found) :=
    .merged append (FileSystem.isPresent_write hwrite) hdatabase
  have hfaultless' : ∀ entry ∈ (Entry.merge _ found).filter (writes config.output created),
      entry.fault? = none :=
    fun entry hentry => hmerged.fault?_eq_none hvalid entry (List.mem_filter.mp hentry).1
  obtain ⟨created', hcreated, hcreate'⟩ := FileSystem.create_of_write hwrite
  rw [hcreate] at hcreated
  cases hcreated
  obtain ⟨m, events, fs'', hrun, hwrite'⟩ := exists_write_of_run (apart.loadConfig hwrite hloaded)
    hconfig (apart.loadReport hwrite hreport) hfound hmerged hcreate' []
  refine ⟨loaded, config, report, found, entries, created, _, hloaded, hconfig, hreport,
    hfound, hgathered, hcreate, rfl, hdatabase, m, events, fs'', hrun, ?_⟩
  rw [FileSystem.openFile_write hwrite, FileSystem.openFile_write hwrite', Except.ok.injEq,
    Except.ok.injEq, Database.toUTF8_render_eq_iff _ hfaultless' hfaultless]

/-- What was merged with a database that names all outputs is settled, if everything is written
and nothing is left out of it. -/
theorem Gathered.settled {found entries : List Entry} (h : Gathered fs options found entries)
    (append : options.append = true) (present : fs.isPresent options.output = true)
    (hold : ∀ old, Loads (loadDatabase FileSystem.files options.output) fs old →
      ∀ entry ∈ old, entry.output.isSome = true)
    (hfound : ∀ entry ∈ found, entry.output.isSome = true) {output : OutputOptions}
    (hall : output.filter.onlyExisting = false) (hkept : output.format.dropOutput = false)
    (created : FileSystem) : Entry.Settled (writes output created)
      ((entries.filter (writes output created)).map output.format.shown) found := by
  cases h with
  | alone halone => simp [append, present] at halone
  | @merged old _ _ hexisting =>
    have hwrites : ∀ entry, writes output created entry = true := by
      intro entry
      simp [writes, SourceFilter.accepts, hall]
    have hshown : ∀ entry, output.format.shown entry = entry := by
      intro entry
      simp [EntryFormat.shown, hkept]
    rw [List.filter_eq_self.mpr fun entry _ => hwrites entry,
      List.map_congr_left fun entry _ => hshown entry, List.map_id']
    refine Entry.settled_merge fun entry hentry => ?_
    rcases List.mem_append.mp hentry with hentry | hentry
    · exact hold old hexisting entry hentry
    · exact hfound entry hentry

/-- **A conversion that adds to its output can be run again, and leaves the output as it is
exactly if that is settled**: if no two entries in it are equivalent, and all that is found and
accepted is equivalent to something in front of it.  It is settled where the output was there
before and neither a missing output nor a filter nor a format stands in the way. -/
theorem run_again {fs fs' : FileSystem} {options : Options} {configured : Option Path} {n : Nat}
    {events : List LogEvent} (append : options.append = true)
    (apart : OutputApart fs options configured)
    (directories : ∀ report, Loads (loadReport FileSystem.files options.input) fs report →
      ∀ execution ∈ report.executions, execution.command.workingDirectory.isEmpty = false)
    (succeeds : (result (run FileSystem.files options configured)).run fs
      = ((.ok n, events), fs')) :
    ∃ loaded config report found created written,
      Loads (loadConfig FileSystem.files (options.config <|> configured)) fs loaded
      ∧ config = loaded.withOptions options
      ∧ Loads (loadReport FileSystem.files options.input) fs report
      ∧ found = (Recognizer.ofSelection config.selection).entries report
      ∧ fs.create options.output = .ok created
      ∧ Loads (loadDatabase FileSystem.files options.output) fs' written
      ∧ ∃ m events' fs'',
        (result (run FileSystem.files options configured)).run fs' = ((.ok m, events'), fs'')
        ∧ (fs''.openFile options.output = fs'.openFile options.output
          ↔ Entry.Settled (writes config.output created) written found)
        ∧ (fs.isPresent options.output = true →
          (∀ old, Loads (loadDatabase FileSystem.files options.output) fs old →
            ∀ entry ∈ old, entry.output.isSome = true) →
          config.output.filter.onlyExisting = false → config.output.format.dropOutput = false →
            fs''.openFile options.output = fs'.openFile options.output) := by
  obtain ⟨loaded, config, report, found, entries, created, written, hloaded, hconfig, hreport,
    hfound, hgathered, hcreate, hwritten, hdatabase, m, events', fs'', hrun, hsame⟩ :=
    second_run append apart directories succeeds
  have haccepted : ∀ entry ∈ written, writes config.output created entry = true := by
    intro entry hentry
    rw [hwritten] at hentry
    obtain ⟨original, horiginal, rfl⟩ := List.mem_map.mp hentry
    exact (List.mem_filter.mp horiginal).2
  have hshown : ∀ entry ∈ written, config.output.format.shown entry = entry := by
    intro entry hentry
    rw [hwritten] at hentry
    obtain ⟨original, -, rfl⟩ := List.mem_map.mp hentry
    exact config.output.format.shown_shown original
  have hsettled : fs''.openFile options.output = fs'.openFile options.output
      ↔ Entry.Settled (writes config.output created) written found := by
    rw [hsame]
    constructor
    · exact Entry.settled_of_filter_merge _ haccepted hshown
    · intro hsettled
      rw [hsettled.filter_merge haccepted, List.map_congr_left hshown, List.map_id']
  refine ⟨loaded, config, report, found, created, written, hloaded, hconfig, hreport, hfound,
    hcreate, hdatabase, m, events', fs'', hrun, hsettled, ?_⟩
  intro hpresent hold hall hkept
  have hnamed : ∀ entry ∈ found, entry.output.isSome = true := by
    rw [hfound]
    exact fun entry => Recognizer.output_of_mem_entries
  rw [hsettled, hwritten]
  exact hgathered.settled append hpresent hold hnamed hall hkept created

/-- In a trace of one process only that one needs a working directory. -/
theorem directories_of_single {path : Path} {session : Session} {execution : Execution}
    (h : Loads (loadReport FileSystem.files path) fs ⟨session, [execution]⟩)
    (hdirectory : execution.command.workingDirectory.isEmpty = false) :
    ∀ report, Loads (loadReport FileSystem.files path) fs report →
      ∀ execution ∈ report.executions, execution.command.workingDirectory.isEmpty = false := by
  intro report hreport execution hexecution
  rw [← h.unique hreport] at hexecution
  rw [List.mem_singleton.mp hexecution]
  exact hdirectory

/-- The trace of a call, beside a database that holds the call. -/
def refreshed : FileSystem :=
  rebuilt.put ["src", "compile_commands.json"]
    (.file (Database.render {} [recordedEntry]).toUTF8)

theorem loadDatabase_refreshed :
    Loads (loadDatabase FileSystem.files appending.output) refreshed [recordedEntry] :=
  loads_loadDatabase_iff.mpr ⟨_, rfl, Database.read_render {} (by decide)⟩

/-- The database stays as it is. -/
theorem run_again_refreshed :
    ∃ n events fs' m events' fs'',
      (result (run FileSystem.files appending none)).run refreshed = ((.ok n, events), fs')
      ∧ (result (run FileSystem.files appending none)).run fs' = ((.ok m, events'), fs'')
      ∧ fs''.openFile appending.output = fs'.openFile appending.output := by
  have hapart : OutputApart refreshed appending none :=
    ⟨by decide, fun _ hpath => by cases hpath⟩
  have hdefault : Loads (loadConfig FileSystem.files (appending.config <|> none)) refreshed {} :=
    fun _ => rfl
  have hreported : Loads (loadReport FileSystem.files appending.input) refreshed
      ⟨default, [recordedCall]⟩ :=
    loads_loadReport_iff.mpr ⟨.ok recordedTrace.toUTF8, rfl, ofFile_recordedTrace⟩
  have hpresent : refreshed.isPresent appending.output = true := by decide
  obtain ⟨n, events, fs', hrun, -⟩ := exists_write_of_run hdefault rfl hreported
    entries_rebuilt.symm (.merged rfl hpresent loadDatabase_refreshed) rfl []
  obtain ⟨loaded, config, report, found, created, written, hloaded, rfl, -, -, -, -, m, events',
    fs'', hagain, -, hsame⟩ := run_again rfl hapart (directories_of_single hreported rfl) hrun
  obtain rfl := hloaded.unique hdefault
  refine ⟨n, events, fs', m, events', fs'', hrun, hagain, hsame hpresent ?_ rfl rfl⟩
  intro old hold entry hentry
  rw [hold.unique loadDatabase_refreshed] at hentry
  rw [List.mem_singleton.mp hentry]
  rfl

/-- A call that names its source twice. -/
def doubledCall : Execution where
  command := ⟨⟨"cc"⟩, ["cc", "-c", "a.c", "a.c"], ⟨"/src"⟩, ∅⟩
  run := ⟨⟨1⟩, ⟨0⟩, []⟩

def doubledTrace : String :=
  "\x7b\"executions\": [\x7b\"command\": \x7b\"program\": \"cc\", "
    ++ "\"arguments\": [\"cc\", \"-c\", \"a.c\", \"a.c\"], \"working_dir\": \"/src\"\x7d, "
    ++ "\"run\": \x7b\"pid\": 1\x7d\x7d]\x7d"

/-- Its trace, and no database. -/
def doubled : FileSystem :=
  (FileSystem.empty ["src"]).put ["src", "events.json"] (.file doubledTrace.toUTF8)

theorem loadReport_doubled :
    Loads (loadReport FileSystem.files appending.input) doubled ⟨default, [doubledCall]⟩ :=
  loads_loadReport_iff.mpr ⟨.ok doubledTrace.toUTF8, rfl, by decide +kernel⟩

theorem entries_doubled :
    (Recognizer.ofSelection (Config.withOptions {} appending).selection).entries
      ⟨default, [doubledCall]⟩ = [recordedEntry, recordedEntry] := by
  rw [Recognizer.entries_eq_listed]
  decide

/-- **A second run may drop what the first one wrote**: the first had nothing to merge with. -/
theorem second_run_doubled :
    appending.append = true ∧ OutputApart doubled appending none
    ∧ (∀ report, Loads (loadReport FileSystem.files appending.input) doubled report →
      ∀ execution ∈ report.executions, execution.command.workingDirectory.isEmpty = false)
    ∧ ∃ n events fs' m events' fs'',
      (result (run FileSystem.files appending none)).run doubled = ((.ok n, events), fs')
      ∧ (result (run FileSystem.files appending none)).run fs' = ((.ok m, events'), fs'')
      ∧ fs''.openFile appending.output ≠ fs'.openFile appending.output := by
  have hapart : OutputApart doubled appending none :=
    ⟨by decide, fun _ hpath => by cases hpath⟩
  have hdirectories := directories_of_single loadReport_doubled rfl
  have hdefault : Loads (loadConfig FileSystem.files (appending.config <|> none)) doubled {} :=
    fun _ => rfl
  have halone : Gathered doubled appending [recordedEntry, recordedEntry]
      [recordedEntry, recordedEntry] := .alone (.inr (by decide))
  obtain ⟨n, events, fs', hrun, -⟩ := exists_write_of_run hdefault rfl loadReport_doubled
    entries_doubled.symm halone rfl []
  obtain ⟨loaded, config, report, found, entries, created, written, hloaded, rfl, hreport, rfl,
    hgathered, -, rfl, -, m, events', fs'', hagain, hsame⟩ :=
    second_run rfl hapart hdirectories hrun
  obtain rfl := hloaded.unique hdefault
  obtain rfl := hreport.unique loadReport_doubled
  rw [entries_doubled] at hgathered hsame
  obtain rfl := hgathered.unique halone
  refine ⟨rfl, hapart, hdirectories, n, events, fs', m, events', fs'', hrun, hagain, ?_⟩
  rw [Ne, hsame]
  have hall : writes (Config.withOptions {} appending).output created = fun _ => true := rfl
  rw [hall]
  decide

end Conversion

end CompileCommands
