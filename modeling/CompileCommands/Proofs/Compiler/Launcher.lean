/-
Launchers beside the compilers that they launch.

A launcher hands the command line of its compiler to the reader of GCC-like command lines, and
never asks which tool the compiler belongs to.  For the compilers that are read like this anyway
it makes no difference.  A declared compiler adjusts its flags when it is called directly, which
is lost behind a launcher, and a launcher behind a launcher is taken for the compiler: its name
stays at the head of the command line, and the name of the real compiler becomes an input.

So the entries of a tool are compared with those that the reader of GCC-like command lines finds.
Both are made of the same sources, and two command lines with the same source and output are the
same just when they start alike and keep the same flags.
-/
import Mathlib.Data.List.Basic
import CompileCommands.Proofs.Compiler.Records

namespace CompileCommands

/-! ### Entries -/

theorem Invocation.compileArguments_eq_iff {command other : Command} {source output : Path}
    {flags otherFlags : List String} :
    compileArguments command source output flags
        = compileArguments other source output otherFlags
      ↔ command.arguments.headD command.program.text = other.arguments.headD other.program.text
        ∧ flags = otherFlags := by
  unfold compileArguments
  constructor
  · intro h
    simp only [List.cons_append, List.cons.injEq] at h
    obtain ⟨hhead, htail⟩ := h
    refine ⟨hhead, ?_⟩
    replace htail := List.append_cancel_right htail
    by_cases hflags : "-S" ∈ flags <;> by_cases hother : "-S" ∈ otherFlags
    · simpa [hflags, hother] using htail
    -- Where only one of the two has `-S`, the other has `-c` in its place.
    · rw [if_pos hflags, if_neg hother, List.append_nil] at htail
      simp [htail, hother] at hflags
    · rw [if_neg hflags, if_pos hother, List.append_nil] at htail
      simp [← htail, hflags] at hother
    · simpa [hflags, hother] using htail
  · intro h
    rw [h.1, h.2]

namespace Driver

/-- The sources that a call compiles. -/
def compiled (flags : List Flag) : List String :=
  if onlyPreprocesses flags then [] else sources flags

/-- The entry of a source, with some flags kept. -/
def sourceEntry (command : Command) (flags : List Flag) (kept : List String) (source : String) :
    Entry where
  file := command.resolve ⟨source⟩
  directory := command.workingDirectory
  output := some (command.resolve ⟨objectFile flags source⟩)
  arguments := Invocation.compileArguments command (command.resolve ⟨source⟩)
    (command.resolve ⟨objectFile flags source⟩) kept

/-- **A call has one entry for each source that it compiles**, and changing the flags of its
records changes the flags that the entries keep. -/
theorem entries_of_invocations {command : Command} {found : List Invocation}
    (h : invocations command = .ok found) (change : List String → List String) :
    (found.map (Invocation.mapFlags change)).filterMap Invocation.entry
      = (compiled (Flag.parse command.operands)).map (sourceEntry command
          (Flag.parse command.operands) (change (retained (Flag.parse command.operands)))) := by
  unfold compiled
  rcases invocations_eq_ok_iff.mp h with ⟨hsources, -, rfl⟩ | ⟨-, rfl⟩
  · simp [hsources, Invocation.mapFlags, Invocation.entry]
  · rw [List.filterMap_map, List.filterMap_map]
    by_cases honly : onlyPreprocesses (Flag.parse command.operands) = true
    · rw [if_pos honly, List.map_nil, List.filterMap_eq_nil_iff]
      intro source _
      simp [record, honly, preprocessing, Invocation.mapFlags, Invocation.entry]
    · rw [if_neg honly, ← List.filterMap_eq_map]
      refine List.filterMap_congr fun source _ => ?_
      simp [record, honly, compilation, Invocation.mapFlags, Invocation.entry, sourceEntry]

theorem entries_of_invocations_self {command : Command} {found : List Invocation}
    (h : invocations command = .ok found) :
    found.filterMap Invocation.entry
      = (compiled (Flag.parse command.operands)).map (sourceEntry command
          (Flag.parse command.operands) (retained (Flag.parse command.operands))) := by
  have hentries := entries_of_invocations h id
  rwa [List.map_congr_left fun i _ => i.mapFlags_id, List.map_id'] at hentries

/-- Calls with the same sources and objects have the same entries if their command lines start
alike and keep the same flags. -/
theorem map_sourceEntry_eq_iff {command other : Command} {flags otherFlags : List Flag}
    {kept otherKept : List String}
    (hdirectory : command.workingDirectory = other.workingDirectory)
    (hobject : objectFile flags = objectFile otherFlags) (names : List String) :
    names.map (sourceEntry command flags kept)
        = names.map (sourceEntry other otherFlags otherKept)
      ↔ names = []
        ∨ (command.arguments.headD command.program.text
            = other.arguments.headD other.program.text ∧ kept = otherKept) := by
  have hresolve : command.resolve = other.resolve := Command.resolve_eq hdirectory
  have hentry : ∀ source, sourceEntry command flags kept source
      = sourceEntry other otherFlags otherKept source
      ↔ command.arguments.headD command.program.text
            = other.arguments.headD other.program.text ∧ kept = otherKept := by
    intro source
    rw [sourceEntry, sourceEntry, hdirectory, hobject, hresolve, Entry.mk.injEq,
      Invocation.compileArguments_eq_iff]
    simp
  rw [List.map_inj_left]
  cases names with
  | nil => simp
  | cons source rest =>
    constructor
    · intro h
      exact .inr ((hentry source).mp (h source List.mem_cons_self))
    · intro h other _
      exact (hentry other).mpr (h.resolve_left (List.cons_ne_nil source rest))

/-! ### An input in front of a command line -/

section Input

open CompileCommands.Flag (kindOf isSpelledAsFlag)

variable {word : String} {flags : List Flag}

theorem hasFlag_cons_input (h : isSpelledAsFlag word = false) {name : String}
    (hname : isSpelledAsFlag name = true) :
    hasFlag (⟨[word], kindOf word⟩ :: flags) name = hasFlag flags name := by
  have hne : word ≠ name := by
    rintro rfl
    rw [h] at hname
    cases hname
  simp [hasFlag, Flag.name, hne]

@[simp]
theorem onlyPreprocesses_cons_input (h : isSpelledAsFlag word = false) :
    onlyPreprocesses (⟨[word], kindOf word⟩ :: flags) = onlyPreprocesses flags := by
  have hnames : ∀ name ∈ ["-E", "-M", "-MM", "-MD", "-MMD"], isSpelledAsFlag name = true := by
    decide
  exact onlyPreprocesses_congr fun name hname => hasFlag_cons_input h (hnames name hname)

@[simp]
theorem stopsBeforeLinking_cons_input (h : isSpelledAsFlag word = false) :
    stopsBeforeLinking (⟨[word], kindOf word⟩ :: flags) = stopsBeforeLinking flags := by
  have hnames : ∀ name ∈ ["-c", "-S"], isSpelledAsFlag name = true := by decide
  exact stopsBeforeLinking_congr fun name hname => hasFlag_cons_input h (hnames name hname)

@[simp]
theorem namedOutput?_cons_input (h : isSpelledAsFlag word = false) :
    namedOutput? (⟨[word], kindOf word⟩ :: flags) = namedOutput? flags := by
  unfold namedOutput?
  rcases Flag.kindOf_cases_of_not_isSpelledAsFlag h with hkind | hkind | hkind <;> simp [hkind]

@[simp]
theorem isQuery_cons_input (h : isSpelledAsFlag word = false) :
    isQuery (⟨[word], kindOf word⟩ :: flags) = isQuery flags := by
  unfold isQuery
  rcases Flag.kindOf_cases_of_not_isSpelledAsFlag h with hkind | hkind | hkind <;> simp [hkind]

@[simp]
theorem retained_cons_linkerInput (h : kindOf word = .linkerInput) :
    retained (⟨[word], kindOf word⟩ :: flags) = retained flags := by
  have hdropped : isRetained ⟨[word], kindOf word⟩ = false := by
    rw [h]
    rfl
  rw [retained, List.filter_cons_of_neg (by simp [hdropped])]
  rfl

@[simp]
theorem retained_cons_other (h : kindOf word = .other) :
    retained (⟨[word], kindOf word⟩ :: flags) = word :: retained flags := by
  have hkept : isRetained ⟨[word], kindOf word⟩ = true := by
    rw [h]
    rfl
  rw [retained, List.filter_cons_of_pos hkept]
  rfl

/-- Objects are named alike behind an input that is no source. -/
theorem objectFile_cons_input (h : isSpelledAsFlag word = false) (hkind : kindOf word ≠ .source) :
    objectFile (⟨[word], kindOf word⟩ :: flags) = objectFile flags := by
  funext source
  unfold objectFile
  simp [h, hkind]

end Input

end Driver

/-! ### Behind a launcher -/

namespace Command

variable {command inner : Command}

theorem launched_of_operands {compiler : String} {arguments : List String}
    (h : command.operands = compiler :: arguments) (hcompiler : compiler.toList.head? ≠ some '-') :
    ∃ inner, command.launched = .ok inner ∧ inner.arguments = compiler :: arguments
      ∧ inner.workingDirectory = command.workingDirectory
      ∧ inner.environment = command.environment := by
  unfold launched
  rw [h]
  simp only [if_neg hcompiler]
  exact ⟨_, rfl, rfl, rfl, rfl⟩

/-- The command line of a launcher is that of its compiler behind one more name; what would read
the launcher as the compiler takes the name of the compiler for an input. -/
theorem parse_of_launched (h : command.launched = .ok inner) :
    ∃ launcher compiler, command.arguments = launcher :: compiler :: inner.operands
      ∧ inner.arguments = compiler :: inner.operands
      ∧ Flag.isSpelledAsFlag compiler = false
      ∧ Flag.parse command.operands
        = ⟨[compiler], Flag.kindOf compiler⟩ :: Flag.parse inner.operands := by
  unfold launched at h
  split at h
  · cases h
  · rename_i compiler arguments hoperands
    split at h
    · cases h
    · rename_i hcompiler
      cases h
      have hinput := Flag.isSpelledAsFlag_of_head? hcompiler
      have hparse := Flag.parse_alone (Flag.ownsNext_of_not_isSpelledAsFlag hinput) arguments
      cases hall : command.arguments with
      | nil =>
        rw [operands, hall] at hoperands
        cases hoperands
      | cons launcher rest =>
        have hrest : rest = compiler :: arguments := by
          rwa [operands, hall] at hoperands
        exact ⟨launcher, compiler, by rw [hrest]; rfl, rfl, hinput, by rw [hoperands, hparse]; rfl⟩

end Command

namespace Driver

open CompileCommands.Flag (kindOf isSpelledAsFlag)

variable {command inner : Command} {records found : List Invocation}

/-- A launcher that is taken for the compiler is recognized wherever the compiler is. -/
theorem exists_invocations_of_launched (hlaunched : command.launched = .ok inner)
    (h : invocations inner = .ok found) : ∃ records, invocations command = .ok records := by
  obtain ⟨_, compiler, -, -, hinput, hparse⟩ := Command.parse_of_launched hlaunched
  by_cases hsources : sources (Flag.parse command.operands) = []
  · refine ⟨_, invocations_eq_ok_iff.mpr (.inl ⟨hsources, ?_, rfl⟩)⟩
    rw [hparse] at hsources ⊢
    have hkind : kindOf compiler ≠ .source := by
      intro hkind
      rw [sources_cons_source hkind] at hsources
      cases hsources
    rw [sources_cons_of_ne hkind] at hsources
    rw [isQuery_cons_input hinput]
    rcases invocations_eq_ok_iff.mp h with ⟨-, hquery, -⟩ | ⟨hfound, -⟩
    · exact hquery
    · exact absurd hsources hfound
  · exact ⟨_, invocations_eq_ok_iff.mpr (.inr ⟨hsources, rfl⟩)⟩

/-- A launcher that is taken for the compiler has the entries of the compiler only if there are
none, or if its own name stands for the compiler once more and is dropped as a linker input. -/
theorem entries_eq_launched_iff (hlaunched : command.launched = .ok inner)
    (hrecords : invocations command = .ok records) (hfound : invocations inner = .ok found) :
    records.filterMap Invocation.entry = found.filterMap Invocation.entry
      ↔ records.filterMap Invocation.entry = []
        ∨ ∃ word rest, command.arguments = word :: word :: rest ∧ kindOf word = .linkerInput := by
  obtain ⟨launcher, compiler, hall, hinner, hinput, hparse⟩ := Command.parse_of_launched hlaunched
  have hname : ∀ word rest, command.arguments = word :: word :: rest →
      launcher = word ∧ compiler = word := by
    intro word rest h
    rw [hall] at h
    cases h
    exact ⟨rfl, rfl⟩
  rw [entries_of_invocations_self hrecords, entries_of_invocations_self hfound, hparse,
    List.map_eq_nil_iff]
  by_cases honly : onlyPreprocesses (Flag.parse inner.operands) = true
  · simp [compiled, hinput, honly]
  by_cases hkind : kindOf compiler = .source
  · -- The compiler is taken for one more source.
    simp only [compiled, onlyPreprocesses_cons_input hinput, if_neg honly,
      sources_cons_source hkind]
    constructor
    · intro h
      simpa using congrArg List.length h
    · intro h
      rcases h with hnone | ⟨word, rest, hwords, hword⟩
      · cases hnone
      · rw [← (hname word rest hwords).2, hkind] at hword
        cases hword
  · have hcompiled : compiled (⟨[compiler], kindOf compiler⟩ :: Flag.parse inner.operands)
        = compiled (Flag.parse inner.operands) := by
      simp [compiled, hinput, hkind]
    rw [hcompiled]
    refine (map_sourceEntry_eq_iff (Command.workingDirectory_launched hlaunched).symm
      (objectFile_cons_input hinput hkind) _).trans (or_congr_right ?_)
    rw [hall, hinner]
    constructor
    · intro h
      obtain ⟨hsame, hkept⟩ := h
      rcases Flag.kindOf_cases_of_not_isSpelledAsFlag hinput with hsource | hlinker | hother
      · exact absurd hsource hkind
      · exact ⟨compiler, inner.operands, by rw [show launcher = compiler from hsame], hlinker⟩
      · rw [retained_cons_other hother] at hkept
        exact absurd hkept (List.cons_ne_self _ _)
    · intro h
      obtain ⟨word, rest, hwords, hword⟩ := h
      cases hwords
      exact ⟨rfl, retained_cons_linkerInput hword⟩

end Driver

/-! ### Tools -/

namespace Tool

/-- The tool finds in a command line what the reader of GCC-like command lines finds in it. -/
def ReadsLikeDriver (command : Command) : Tool → Prop
  -- The launcher calls itself, by a name that is dropped because only a linker would read it.
  | family .launcher =>
      ∃ word rest, command.arguments = word :: word :: rest ∧ Flag.kindOf word = .linkerInput
  | family _ => True
  | declared compiler =>
      compiler.adjust (Driver.retained (Flag.parse command.operands))
        = Driver.retained (Flag.parse command.operands)

/-- **What a tool recognizes is recognized as a GCC-like call too, and has the same entries just
when it has none, or the tool reads the command line alike.** -/
theorem entries_driver_iff {tool : Tool} {command : Command} {found : List Invocation}
    (h : tool.invocations command = .ok found) :
    ∃ records, Driver.invocations command = .ok records
      ∧ (records.filterMap Invocation.entry = found.filterMap Invocation.entry
        ↔ records.filterMap Invocation.entry = [] ∨ tool.ReadsLikeDriver command) := by
  unfold Tool.invocations at h
  split at h
  · obtain ⟨inner, hlaunched, hinner⟩ := bind_eq_ok_iff.mp h
    obtain ⟨records, hrecords⟩ := Driver.exists_invocations_of_launched hlaunched hinner
    exact ⟨records, hrecords, Driver.entries_eq_launched_iff hlaunched hrecords hinner⟩
  · rename_i f hf
    refine ⟨found, h, ?_⟩
    have hreads : (family f).ReadsLikeDriver command := by
      cases f with
      | launcher => exact absurd rfl hf
      | gcc | clang | cuda | linker => trivial
    simp [hreads]
  · rename_i compiler
    obtain ⟨records, hrecords, rfl⟩ := map_eq_ok_iff.mp h
    refine ⟨records, hrecords, ?_⟩
    rw [Driver.entries_of_invocations hrecords, Driver.entries_of_invocations_self hrecords,
      Driver.map_sourceEntry_eq_iff rfl rfl, List.map_eq_nil_iff]
    exact or_congr_right ⟨fun hkept => hkept.2.symm, fun hkept => ⟨rfl, Eq.symm hkept⟩⟩

end Tool

end CompileCommands
