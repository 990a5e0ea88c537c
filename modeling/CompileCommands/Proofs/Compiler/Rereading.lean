/-
An entry is recognized as itself.

The command line of an entry names one source and its output by absolute paths and stops before
linking, so that calling the compiler with it is one compilation, of that source to that output.
The flags of this call are those that the entry was made of: `-c` and `-o` are left out again,
and nothing else was added.  The entry of the compilation is therefore the entry that was read.

Two things could go wrong.  A flag at the end that lacks its value would swallow what is put
behind it, and `-S` as a mere value would keep `-c` out of a command line that links.
-/
import CompileCommands.Proofs.Compiler.EntryFlags

namespace CompileCommands.Driver

open CompileCommands.Flag (IsWhole EndsWhole kindOf)

variable {flags : List Flag}

/-! ### What the flags of an entry say -/

theorem filter_isRetained_filter_kind (flags : List Flag) {kind : FlagKind}
    (h : kind = .source ∨ kind = .outputFile) :
    (flags.filter isRetained).filter (·.kind == kind) = [] := by
  simp only [List.filter_eq_nil_iff, List.mem_filter, beq_iff_eq]
  intro flag hflag hkind
  obtain ⟨-, hretained⟩ := hflag
  unfold isRetained at hretained
  rw [hkind] at hretained
  rcases h with rfl | rfl <;> cases hretained

/-- One source is added. -/
@[simp]
theorem sources_addedFlags (kept : List String) (output : String) {source : String}
    (hsource : kindOf source = .source) : sources (addedFlags kept output source) = [source] := by
  unfold sources addedFlags
  by_cases hassembly : "-S" ∈ kept
  · simp [hassembly, hsource, Flag.name]
  · simp [hassembly, hsource, Flag.name]

/-- No source is retained. -/
@[simp]
theorem sources_filter_isRetained (flags : List Flag) : sources (flags.filter isRetained) = [] := by
  rw [sources, filter_isRetained_filter_kind flags (.inl rfl), List.map_nil]

/-- The only source is the one that was added. -/
@[simp]
theorem sources_entryFlags (flags : List Flag) (output : String) {source : String}
    (hsource : kindOf source = .source) : sources (entryFlags flags output source) = [source] := by
  simp [entryFlags, hsource]

/-- The only output is the one that was added. -/
@[simp]
theorem namedOutput?_entryFlags (flags : List Flag) (output : String) {source : String}
    (hsource : kindOf source = .source) :
    namedOutput? (entryFlags flags output source) = some output := by
  unfold namedOutput? entryFlags addedFlags
  rw [List.filter_append, filter_isRetained_filter_kind flags (.inr rfl)]
  by_cases hassembly : "-S" ∈ retained flags
  · simp [hassembly, hsource, Flag.value?]
  · simp [hassembly, hsource, Flag.value?]

@[simp]
theorem filter_isRetained_addedFlags (kept : List String) (output : String) {source : String}
    (hsource : kindOf source = .source) :
    (addedFlags kept output source).filter isRetained = [] := by
  unfold addedFlags
  by_cases hassembly : "-S" ∈ kept
  · simp [hassembly, hsource, isRetained]
  · simp [hassembly, hsource, isRetained, Flag.name]

/-- What was added is not retained. -/
@[simp]
theorem retained_entryFlags (flags : List Flag) (output : String) {source : String}
    (hsource : kindOf source = .source) :
    retained (entryFlags flags output source) = retained flags := by
  rw [retained, entryFlags, List.filter_append, List.filter_filter,
    filter_isRetained_addedFlags _ _ hsource, List.append_nil]
  simp only [Bool.and_self]
  rfl

/-- An entry is made only of calls that compile, and its command line compiles as well. -/
theorem onlyPreprocesses_entryFlags (h : ∀ flag ∈ flags, flag.IsWhole) (output : String)
    {source : String} (hsource : kindOf source = .source) :
    onlyPreprocesses (entryFlags flags output source) = onlyPreprocesses flags := by
  have hnames : ∀ name ∈ ["-E", "-M", "-MM", "-MD", "-MMD"],
      retainsName name = true ∧ Flag.isSpelledAsFlag name = true := by decide
  refine onlyPreprocesses_congr fun name hname => ?_
  obtain ⟨hretained, hspelled⟩ := hnames name hname
  exact hasFlag_entryFlags h output hretained (Flag.ne_of_kindOf_eq_source hsource hspelled)

/-- Where `-S` is no value, an entry's command line stops before linking. -/
theorem stopsBeforeLinking_entryFlags (h : ∀ flag ∈ flags, flag.IsWhole)
    (hvalues : ∀ flag ∈ flags, "-S" ∉ flag.arguments.tail) (output : String) {source : String}
    (hsource : kindOf source = .source) :
    stopsBeforeLinking (entryFlags flags output source) = true := by
  have hcompile : source ≠ "-c" := Flag.ne_of_kindOf_eq_source hsource (by decide)
  have hnotAssembly : source ≠ "-S" := Flag.ne_of_kindOf_eq_source hsource (by decide)
  unfold stopsBeforeLinking
  rw [Bool.or_eq_true, hasFlag_entryFlags_compile h output hcompile,
    hasFlag_entryFlags h output (by decide) hnotAssembly, mem_retained_iff h]
  by_cases hassembly : hasFlag flags "-S" = true
  · exact .inr hassembly
  · left
    intro hword
    rcases hword with hflag | ⟨flag, hmem, -, hvalue⟩
    · exact hassembly hflag
    · exact hvalues flag hmem hvalue

/-! ### Calling the compiler with an entry -/

/-- What starts with a slash does not start with a dash. -/
theorem isSpelledAsFlag_resolve {command : Command}
    (habsolute : command.workingDirectory.isAbsolute = true) (path : Path) :
    Flag.isSpelledAsFlag (command.resolve path).text = false := by
  have hjoined : (command.resolve path).isAbsolute = true := Path.isAbsolute_join habsolute path
  obtain ⟨rest, hrest⟩ := List.head?_eq_some_iff.mp (beq_iff_eq.mp hjoined)
  rw [Flag.isSpelledAsFlag, hrest]
  rfl

theorem kindOf_resolve {command : Command} (habsolute : command.workingDirectory.isAbsolute = true)
    {source : String} (hsource : kindOf source = .source) :
    kindOf (command.resolve ⟨source⟩).text = .source :=
  Flag.kindOf_eq_source_iff.mpr ⟨isSpelledAsFlag_resolve habsolute _,
    SourceFile.isSource_join (Flag.kindOf_eq_source_iff.mp hsource).2 _⟩

/-- A call whose flags are those of an entry compiles the source of the entry. -/
theorem invocations_of_entryFlags {command : Command} (h : ∀ flag ∈ flags, flag.IsWhole)
    (hvalues : ∀ flag ∈ flags, "-S" ∉ flag.arguments.tail)
    (hcompiles : onlyPreprocesses flags = false) {source output : Path}
    (hsource : kindOf source.text = .source)
    (hparse : Flag.parse command.operands = entryFlags flags output.text source.text) :
    invocations command
      = .ok [compilation command source.text output.text (retained flags)] := by
  have hsources := sources_entryFlags flags output.text hsource
  have hoperands : command.operands.isEmpty = false := by
    rw [← Bool.not_eq_true, List.isEmpty_iff]
    intro hempty
    rw [← hparse, hempty] at hsources
    cases hsources
  have hrecord : Driver.record command (entryFlags flags output.text source.text) source.text
      = compilation command source.text output.text (retained flags) := by
    unfold record objectFile
    rw [onlyPreprocesses_entryFlags h output.text hsource, hcompiles, hsources,
      namedOutput?_entryFlags flags output.text hsource,
      retained_entryFlags flags output.text hsource]
    simp only [Bool.false_eq_true, if_false,
      stopsBeforeLinking_entryFlags h hvalues output.text hsource, if_true]
  unfold invocations
  rw [hoperands, hparse]
  simp only [Bool.false_eq_true, if_false, hsources, List.map_cons, List.map_nil, hrecord]

/-- The command with the command line of an entry. -/
def calledAs (command : Command) (entry : Entry) : Command :=
  { command with arguments := entry.arguments }

/-- **Calling the compiler with an entry's command line is the compilation of the entry**, whose
entry it is again. -/
theorem invocations_entry (command : Command)
    (absolute : command.workingDirectory.isAbsolute = true) (ends : EndsWhole command.operands)
    (values : ∀ flag ∈ Flag.parse command.operands, "-S" ∉ flag.arguments.tail)
    {found : List Invocation} (hfound : invocations command = .ok found)
    {record : Invocation} (hrecord : record ∈ found)
    {entry : Entry} (hentry : record.entry = some entry) :
    ∃ source output flags, record = .compile command source output flags
      ∧ invocations (calledAs command entry)
        = .ok [.compile (calledAs command entry) source output flags]
      ∧ (Invocation.compile (calledAs command entry) source output flags).entry = some entry := by
  obtain ⟨source, hsource, hcompiles, rfl⟩ := compilation_of_invocations hfound hrecord hentry
  have hwhole := Flag.isWhole_of_mem_parse ends
  have hkind := kindOf_resolve absolute (kindOf_of_mem_sources hsource)
  have hparse : Flag.parse (calledAs command entry).operands
      = entryFlags (Flag.parse command.operands)
          (command.resolve ⟨objectFile (Flag.parse command.operands) source⟩).text
          (command.resolve ⟨source⟩).text := by
    cases hentry
    exact parse_compileArguments hwhole command _ _
  -- Absolute paths stay as they are when they are seen from the directory once more.
  have hstays : ∀ path, (calledAs command entry).resolve ⟨(command.resolve path).text⟩
      = command.resolve path :=
    fun path => Path.join_of_isAbsolute (Path.isAbsolute_join absolute path) _
  refine ⟨_, _, _, rfl, ?_, ?_⟩
  · rw [invocations_of_entryFlags hwhole values hcompiles hkind hparse, compilation, hstays, hstays]
  · cases hentry
    rfl

theorem invocations_entry_mixedCall :
    mixedCall.workingDirectory.isAbsolute = true
      ∧ EndsWhole mixedCall.operands
      ∧ (∀ flag ∈ Flag.parse mixedCall.operands, "-S" ∉ flag.arguments.tail)
      ∧ invocations mixedCall = .ok [mixedRecord]
      ∧ ∃ entry, mixedRecord.entry = some entry
        ∧ invocations (calledAs mixedCall entry)
          = .ok [.compile (calledAs mixedCall entry) ⟨"/src/src/a.c"⟩ ⟨"/src/a.o"⟩
              ["-I", "inc", "-x", "c", "-MF", "a.d"]] := by
  have habsolute : mixedCall.workingDirectory.isAbsolute = true := by decide
  have hends : EndsWhole mixedCall.operands := by decide
  have hvalues : ∀ flag ∈ Flag.parse mixedCall.operands, "-S" ∉ flag.arguments.tail := by
    decide
  have hfound : invocations mixedCall = .ok [mixedRecord] := rfl
  obtain ⟨source, output, flags, hrecord, hagain, -⟩ :=
    invocations_entry mixedCall habsolute hends hvalues hfound List.mem_cons_self rfl
  cases hrecord
  exact ⟨habsolute, hends, hvalues, hfound, _, rfl, hagain⟩

end CompileCommands.Driver
