/-
The flags of an entry's command line.

The command line of an entry is put together from the flags of the call that are retained, from
`-c`, and from the output and the source.  Flags are retained with their values, so the command
line is cut into the same flags again, and one can say what it compiles.

Whether `-c` is needed is looked up in the arguments of the retained flags, where `-S` may be a
flag or the value of another one.  Only the flag stops the compiler before linking: where `-S`
is nothing but a value, the command line of the entry links.
-/
import CompileCommands.Proofs.Compiler.Records
import CompileCommands.Proofs.Path

namespace CompileCommands.Driver

open CompileCommands.Flag (IsWhole EndsWhole kindOf)

variable {flags : List Flag}

/-! ### Retained flags -/

theorem hasFlag_iff {name : String} :
    hasFlag flags name = true ↔ ∃ flag ∈ flags, flag.name = name := by
  simp [hasFlag]

@[simp]
theorem hasFlag_append (front back : List Flag) (name : String) :
    hasFlag (front ++ back) name = (hasFlag front name || hasFlag back name) :=
  List.any_append

/-- Is a flag of this name retained? -/
def retainsName (name : String) : Bool := isRetained ⟨[name], kindOf name⟩

/-- Whether a flag is retained depends on its name alone. -/
theorem isRetained_eq {flag : Flag} (h : flag.IsWhole) :
    isRetained flag = retainsName flag.name := by
  unfold isRetained retainsName
  rw [h.kind_eq]
  rfl

theorem isWhole_of_mem_filter {stays : Flag → Bool} (h : ∀ flag ∈ flags, flag.IsWhole) :
    ∀ flag ∈ flags.filter stays, flag.IsWhole :=
  fun flag hflag => h flag (List.mem_filter.mp hflag).1

/-- Where the name of a flag decides whether it stays. -/
theorem hasFlag_filter {stays : Flag → Bool} {name : String} {kept : Bool}
    (h : ∀ flag ∈ flags, flag.name = name → stays flag = kept) :
    hasFlag (flags.filter stays) name = (kept && hasFlag flags name) := by
  rw [Bool.eq_iff_iff, Bool.and_eq_true, hasFlag_iff, hasFlag_iff]
  constructor
  · intro hstays
    obtain ⟨flag, hflag, hname⟩ := hstays
    obtain ⟨hall, hkept⟩ := List.mem_filter.mp hflag
    rw [h flag hall hname] at hkept
    exact ⟨hkept, flag, hall, hname⟩
  · intro hall
    obtain ⟨hkept, flag, hflag, hname⟩ := hall
    rw [← h flag hflag hname] at hkept
    exact ⟨flag, List.mem_filter.mpr ⟨hflag, hkept⟩, hname⟩

theorem hasFlag_filter_isRetained (h : ∀ flag ∈ flags, flag.IsWhole) (name : String) :
    hasFlag (flags.filter isRetained) name = (retainsName name && hasFlag flags name) := by
  refine hasFlag_filter fun flag hflag hname => ?_
  rw [isRetained_eq (h flag hflag), hname]

theorem mem_arguments_iff {flag : Flag} (h : flag.IsWhole) {word : String} :
    word ∈ flag.arguments ↔ flag.name = word ∨ word ∈ flag.arguments.tail := by
  cases h <;> simp [Flag.name, eq_comm]

/-- `-S` is among the retained arguments as a flag, or as the value of another flag. -/
theorem mem_retained_iff (h : ∀ flag ∈ flags, flag.IsWhole) :
    "-S" ∈ retained flags ↔ hasFlag flags "-S" = true
      ∨ ∃ flag ∈ flags, isRetained flag = true ∧ "-S" ∈ flag.arguments.tail := by
  have hflag : hasFlag (flags.filter isRetained) "-S" = hasFlag flags "-S" := by
    rw [hasFlag_filter_isRetained h, show retainsName "-S" = true by decide, Bool.true_and]
  rw [← hflag, hasFlag_iff, retained, List.mem_flatMap]
  constructor
  · intro hmem
    obtain ⟨flag, hkept, hword⟩ := hmem
    obtain ⟨hall, hretained⟩ := List.mem_filter.mp hkept
    rcases (mem_arguments_iff (h flag hall)).mp hword with hname | hvalue
    · exact .inl ⟨flag, hkept, hname⟩
    · exact .inr ⟨flag, hall, hretained, hvalue⟩
  · intro hword
    rcases hword with ⟨flag, hkept, hname⟩ | ⟨flag, hall, hretained, hvalue⟩
    · have hwhole := isWhole_of_mem_filter h flag hkept
      exact ⟨flag, hkept, (mem_arguments_iff hwhole).mpr (.inl hname)⟩
    · exact ⟨flag, List.mem_filter.mpr ⟨hall, hretained⟩,
        (mem_arguments_iff (h flag hall)).mpr (.inr hvalue)⟩

/-! ### The command line of an entry -/

/-- The arguments that an entry puts behind those that it keeps. -/
def addedArguments (kept : List String) (output source : String) : List String :=
  (if "-S" ∈ kept then [] else ["-c"]) ++ ["-o", output, source]

/-- The flags of these arguments. -/
def addedFlags (kept : List String) (output source : String) : List Flag :=
  (if "-S" ∈ kept then [] else [⟨["-c"], .noLinking⟩])
    ++ [⟨["-o", output], .outputFile⟩, ⟨[source], kindOf source⟩]

@[simp]
theorem drop_compileArguments (command : Command) (source output : Path) (kept : List String) :
    (Invocation.compileArguments command source output kept).drop 1
      = kept ++ addedArguments kept output.text source.text := by
  rw [Invocation.compileArguments, List.cons_append, List.cons_append, List.drop_one,
    List.tail_cons, List.append_assoc]
  rfl

@[simp]
theorem parse_addedArguments (kept : List String) (output source : String) :
    Flag.parse (addedArguments kept output source) = addedFlags kept output source := by
  have hcompile : Flag.ownsNext "-c" = false := by decide
  have houtput : Flag.ownsNext "-o" = true := by decide
  have hlast : Flag.parse ["-o", output, source]
      = [⟨["-o", output], .outputFile⟩, ⟨[source], kindOf source⟩] :=
    Flag.parse_valued houtput output [source]
  unfold addedArguments addedFlags
  by_cases hassembly : "-S" ∈ kept
  · rw [if_pos hassembly, if_pos hassembly, List.nil_append, List.nil_append, hlast]
  · have hall := Flag.parse_alone hcompile ["-o", output, source]
    rw [hlast] at hall
    rw [if_neg hassembly, if_neg hassembly]
    exact hall

/-- The flags of the command line of an entry, made of those of the call. -/
def entryFlags (flags : List Flag) (output source : String) : List Flag :=
  flags.filter isRetained ++ addedFlags (retained flags) output source

/-- **The command line of an entry is cut into the flags that it was put together from.** -/
theorem parse_compileArguments (h : ∀ flag ∈ flags, flag.IsWhole) (command : Command)
    (source output : Path) :
    Flag.parse ((Invocation.compileArguments command source output (retained flags)).drop 1)
      = entryFlags flags output.text source.text := by
  have hwhole : ∀ flag ∈ flags.filter isRetained, flag.IsWhole := isWhole_of_mem_filter h
  have hkept := Flag.parse_flatMap hwhole
  rw [drop_compileArguments, entryFlags, ← parse_addedArguments, ← hkept]
  rfl

theorem hasFlag_entryFlags_compile (h : ∀ flag ∈ flags, flag.IsWhole) (output : String)
    {source : String} (hsource : source ≠ "-c") :
    hasFlag (entryFlags flags output source) "-c" = true ↔ "-S" ∉ retained flags := by
  unfold entryFlags addedFlags
  rw [hasFlag_append, hasFlag_filter_isRetained h, show retainsName "-c" = false by decide]
  by_cases hassembly : "-S" ∈ retained flags
  · simp [hasFlag, hassembly, hsource, Flag.name]
  · simp [hasFlag, hassembly, Flag.name]

/-- An entry's command line has the flags of the call that are retained. -/
theorem hasFlag_entryFlags (h : ∀ flag ∈ flags, flag.IsWhole) (output : String)
    {source name : String} (hretained : retainsName name = true) (hsource : source ≠ name) :
    hasFlag (entryFlags flags output source) name = hasFlag flags name := by
  have hcompile : "-c" ≠ name := by
    rintro rfl
    revert hretained
    decide
  have houtput : "-o" ≠ name := by
    rintro rfl
    revert hretained
    decide
  unfold entryFlags addedFlags
  rw [hasFlag_append, hasFlag_filter_isRetained h, hretained, Bool.true_and]
  by_cases hassembly : "-S" ∈ retained flags
  · simp [hasFlag, hassembly, hsource, houtput, Flag.name]
  · simp [hasFlag, hassembly, hsource, houtput, hcompile, Flag.name]

/-! ### Stopping before linking -/

/-- A source is never spelled like a flag without a slash in it, not even in a directory that
is. -/
theorem text_resolve_ne {source : String} (hsource : kindOf source = .source)
    (command : Command) {word : String} (hflag : Flag.isSpelledAsFlag word = true)
    (hslash : '/' ∉ word.toList) : (command.resolve ⟨source⟩).text ≠ word := by
  rcases Path.join_cases command.workingDirectory ⟨source⟩ with hstays | ⟨front, hfront⟩
  · rw [Command.resolve, hstays]
    exact Flag.ne_of_kindOf_eq_source hsource hflag
  · rintro rfl
    exact hslash (by rw [Command.resolve, hfront]; simp)

/-- A command line that stops before linking by a flag of its own. -/
def IsCompileOnly (words : List String) : Prop :=
  ∃ flag ∈ Flag.parse words, (flag.name = "-c" ∨ flag.name = "-S") ∧ flag.kind = .noLinking

theorem isCompileOnly_iff {words : List String} :
    IsCompileOnly words
      ↔ hasFlag (Flag.parse words) "-c" = true ∨ hasFlag (Flag.parse words) "-S" = true := by
  have hcompile : kindOf "-c" = .noLinking := by decide
  have hassembly : kindOf "-S" = .noLinking := by decide
  rw [hasFlag_iff, hasFlag_iff]
  constructor
  · intro h
    obtain ⟨flag, hflag, hname | hname, -⟩ := h
    · exact .inl ⟨flag, hflag, hname⟩
    · exact .inr ⟨flag, hflag, hname⟩
  · intro h
    rcases h with ⟨flag, hflag, hname⟩ | ⟨flag, hflag, hname⟩
    · exact ⟨flag, hflag, .inl hname, by rw [Flag.kind_of_mem_parse hflag, hname, hcompile]⟩
    · exact ⟨flag, hflag, .inr hname, by rw [Flag.kind_of_mem_parse hflag, hname, hassembly]⟩

/-- **The command line of an entry stops before linking** by a flag of its own, unless `-S` is
nothing but the value of a flag; `-c` is left out wherever `-S` is found, as a flag or as a
value. -/
theorem isCompileOnly_entry_iff (command : Command) (ends : EndsWhole command.operands)
    {found : List Invocation} (hfound : invocations command = .ok found)
    {record : Invocation} (hrecord : record ∈ found)
    {entry : Entry} (hentry : record.entry = some entry) :
    (IsCompileOnly (entry.arguments.drop 1)
      ↔ hasFlag (Flag.parse command.operands) "-S" = true
        ∨ ∀ flag ∈ Flag.parse command.operands, isRetained flag = true →
            "-S" ∉ flag.arguments.tail)
    ∧ (hasFlag (Flag.parse (entry.arguments.drop 1)) "-c" = false
      ↔ hasFlag (Flag.parse command.operands) "-S" = true
        ∨ ∃ flag ∈ Flag.parse command.operands, isRetained flag = true
            ∧ "-S" ∈ flag.arguments.tail) := by
  obtain ⟨source, hsource, -, rfl⟩ := compilation_of_invocations hfound hrecord hentry
  cases hentry
  have hwhole := Flag.isWhole_of_mem_parse ends
  have hkind := kindOf_of_mem_sources hsource
  have hnotCompile : (command.resolve ⟨source⟩).text ≠ "-c" :=
    text_resolve_ne hkind command (by decide) (by decide)
  have hnotAssembly : (command.resolve ⟨source⟩).text ≠ "-S" :=
    text_resolve_ne hkind command (by decide) (by decide)
  rw [isCompileOnly_iff, parse_compileArguments hwhole, ← Bool.not_eq_true,
    hasFlag_entryFlags_compile hwhole _ hnotCompile,
    hasFlag_entryFlags hwhole _ (by decide) hnotAssembly, Classical.not_not,
    mem_retained_iff hwhole]
  refine ⟨?_, Iff.rfl⟩
  constructor
  · intro h
    rcases h with hnowhere | hflag
    · right
      intro flag hflag hretained hvalue
      exact hnowhere (.inr ⟨flag, hflag, hretained, hvalue⟩)
    · exact .inl hflag
  · intro h
    rcases h with hflag | hvalues
    · exact .inr hflag
    · by_cases hflag : hasFlag (Flag.parse command.operands) "-S" = true
      · exact .inr hflag
      · left
        intro hword
        rcases hword with hword | ⟨flag, hmem, hretained, hvalue⟩
        · exact hflag hword
        · exact hvalues flag hmem hretained hvalue

/-- A call with flags of many kinds. -/
def mixedCall : Command where
  program := ⟨"/usr/bin/gcc"⟩
  arguments := ["gcc", "-I", "inc", "-c", "-x", "c", "-lm", "src/a.c", "-MF", "a.d", "-oa.o"]
  workingDirectory := ⟨"/src"⟩

/-- Its record. -/
def mixedRecord : Invocation :=
  .compile mixedCall ⟨"/src/src/a.c"⟩ ⟨"/src/a.o"⟩ ["-I", "inc", "-x", "c", "-MF", "a.d"]

theorem isCompileOnly_mixedCall :
    EndsWhole mixedCall.operands
      ∧ invocations mixedCall = .ok [mixedRecord]
      ∧ ∃ entry, mixedRecord.entry = some entry ∧ IsCompileOnly (entry.arguments.drop 1) := by
  have hends : EndsWhole mixedCall.operands := by decide
  have hfound : invocations mixedCall = .ok [mixedRecord] := rfl
  refine ⟨hends, hfound, _, rfl, ?_⟩
  refine (isCompileOnly_entry_iff mixedCall hends hfound List.mem_cons_self rfl).1.mpr (.inr ?_)
  decide

/-- A call that takes `-S` for a directory. -/
def oddDirectory : Command where
  program := ⟨"/usr/bin/gcc"⟩
  arguments := ["gcc", "-c", "-I", "-S", "a.c"]
  workingDirectory := ⟨"/src"⟩

/-- Its entry. -/
def oddDirectoryEntry : Entry where
  file := ⟨"/src/a.c"⟩
  directory := ⟨"/src"⟩
  output := some ⟨"/src/a.o"⟩
  arguments := ["gcc", "-I", "-S", "-o", "/src/a.o", "/src/a.c"]

/-- **The command line of an entry may link.** -/
theorem not_isCompileOnly_oddDirectory :
    EndsWhole oddDirectory.operands
      ∧ (invocations oddDirectory).map (·.map Invocation.entry) = .ok [some oddDirectoryEntry]
      ∧ ¬ IsCompileOnly (oddDirectoryEntry.arguments.drop 1) := by
  refine ⟨by decide, rfl, ?_⟩
  unfold IsCompileOnly
  decide

end CompileCommands.Driver
