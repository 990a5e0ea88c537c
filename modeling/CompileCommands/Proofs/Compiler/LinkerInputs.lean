/-
What only the linker reads leaves no trace.

Libraries, objects and the directories they are found in may stand anywhere in the command line of
a compilation.  None of the questions that decide a record asks for them: they are no sources and
no outputs, they are not retained, and no flag that says what kind of call this is is spelled like
one of them.  So a record is made of the other flags alone.  Cutting the command line does not mix
the two up either, as long as no argument in front of them lacks its value.
-/
import Mathlib.Data.List.Basic
import CompileCommands.Proofs.Compiler.EntryFlags
import CompileCommands.Proofs.Flag.Concatenation

namespace CompileCommands

/-- The record with another command in it. -/
def Invocation.withCommand (other : Command) : Invocation → Invocation
  | query _ => query other
  | preprocess _ source output flags => preprocess other source output flags
  | compile _ source output flags => compile other source output flags

namespace Driver

open CompileCommands.Flag (EndsWhole kindOf)

/-! ### Flags for the linker -/

/-- Only the linker reads flags of this kind. -/
def isForLinker : FlagKind → Bool
  | .linker | .linkerInput | .linkerSearchDirectory => true
  | _ => false

/-- The flags that the compiler reads. -/
def compiling (flags : List Flag) : List Flag := flags.filter fun flag => !isForLinker flag.kind

@[simp]
theorem compiling_append (front back : List Flag) :
    compiling (front ++ back) = compiling front ++ compiling back :=
  List.filter_append front back

theorem compiling_eq_nil {flags : List Flag} (h : ∀ flag ∈ flags, isForLinker flag.kind = true) :
    compiling flags = [] := by
  rw [compiling, List.filter_eq_nil_iff]
  intro flag hflag
  simp [h flag hflag]

/-- A question that no linker flag answers is answered alike by the flags that the compiler
reads. -/
theorem filter_compiling {asks : Flag → Bool}
    (h : ∀ flag, asks flag = true → isForLinker flag.kind = false) (flags : List Flag) :
    (compiling flags).filter asks = flags.filter asks := by
  rw [compiling, List.filter_filter]
  refine List.filter_congr fun flag _ => ?_
  cases hasks : asks flag with
  | false => rfl
  | true => rw [h flag hasks]; rfl

theorem filter_kind_compiling {kind : FlagKind} (h : isForLinker kind = false)
    (flags : List Flag) :
    (compiling flags).filter (·.kind == kind) = flags.filter (·.kind == kind) := by
  refine filter_compiling (fun flag hkind => ?_) flags
  rw [beq_iff_eq.mp hkind, h]

@[simp]
theorem sources_compiling (flags : List Flag) : sources (compiling flags) = sources flags := by
  rw [sources, sources, filter_kind_compiling rfl]

@[simp]
theorem namedOutput?_compiling (flags : List Flag) :
    namedOutput? (compiling flags) = namedOutput? flags := by
  rw [namedOutput?, namedOutput?, filter_kind_compiling rfl]

/-- Flags for the linker are not retained. -/
@[simp]
theorem retained_compiling (flags : List Flag) : retained (compiling flags) = retained flags := by
  rw [retained, retained]
  refine congrArg _ (filter_compiling (fun flag hretained => ?_) flags)
  unfold isRetained at hretained
  cases hkind : flag.kind with
  | linker | linkerInput | linkerSearchDirectory => simp [hkind] at hretained
  | _ => rfl

section Named

variable {flags : List Flag} (h : ∀ flag ∈ flags, flag.kind = kindOf flag.name)

include h

theorem hasFlag_compiling {name : String} (hname : isForLinker (kindOf name) = false) :
    hasFlag (compiling flags) name = hasFlag flags name := by
  have hstays : ∀ flag ∈ flags, flag.name = name → (!isForLinker flag.kind) = true := by
    intro flag hflag hspelled
    rw [h flag hflag, hspelled, hname]
    rfl
  exact hasFlag_filter hstays

theorem onlyPreprocesses_compiling :
    onlyPreprocesses (compiling flags) = onlyPreprocesses flags := by
  have hnames : ∀ name ∈ ["-E", "-M", "-MM", "-MD", "-MMD"], isForLinker (kindOf name) = false := by
    decide
  exact onlyPreprocesses_congr fun name hname => hasFlag_compiling h (hnames name hname)

theorem stopsBeforeLinking_compiling :
    stopsBeforeLinking (compiling flags) = stopsBeforeLinking flags := by
  have hnames : ∀ name ∈ ["-c", "-S"], isForLinker (kindOf name) = false := by decide
  exact stopsBeforeLinking_congr fun name hname => hasFlag_compiling h (hnames name hname)

/-- A record is made of the flags that the compiler reads. -/
theorem record_compiling (command : Command) (source : String) :
    record command (compiling flags) source = record command flags source := by
  unfold record preprocessedOutput? objectFile
  simp [onlyPreprocesses_compiling h, stopsBeforeLinking_compiling h]

end Named

/-! ### Records of another call -/

theorem record_withCommand {command other : Command}
    (h : other.workingDirectory = command.workingDirectory) (flags : List Flag) (source : String) :
    record other flags source = (record command flags source).withCommand other := by
  unfold record preprocessing compilation
  rw [Command.resolve_eq h]
  split <;> rfl

theorem entry_withCommand {command other : Command}
    (hdirectory : other.workingDirectory = command.workingDirectory)
    (hdriver : other.arguments.head? = command.arguments.head?)
    (hcommand : command.arguments ≠ []) (flags : List Flag) (source : String) :
    ((record command flags source).withCommand other).entry
      = (record command flags source).entry := by
  have hhead : other.arguments.headD other.program.text
      = command.arguments.headD command.program.text := by
    obtain ⟨driver, rest, hall⟩ := List.exists_cons_of_ne_nil hcommand
    rw [List.headD_eq_head?_getD, hdriver, hall]
    rfl
  unfold record
  split
  · rfl
  · simp only [compilation, Invocation.withCommand, Invocation.entry, Invocation.compileArguments,
      hdirectory, hhead]

/-- **Linker inputs leave no trace in the records of a call**, wherever they stand: the sources are
compiled to the same outputs with the same flags, and the entries are the same. -/
theorem invocations_linked {plain linked : Command} {driver : String}
    {front inputs back : List String}
    (hdirectory : linked.workingDirectory = plain.workingDirectory)
    (hplain : plain.arguments = driver :: (front ++ back))
    (hlinked : linked.arguments = driver :: (front ++ inputs ++ back))
    (hfront : EndsWhole front) (hinputs : EndsWhole inputs)
    (hlinker : ∀ flag ∈ Flag.parse inputs, isForLinker flag.kind = true)
    (hsources : sources (Flag.parse (front ++ back)) ≠ []) :
    ∃ found, invocations plain = .ok found
      ∧ invocations linked = .ok (found.map (Invocation.withCommand linked))
      ∧ (found.map (Invocation.withCommand linked)).filterMap Invocation.entry
        = found.filterMap Invocation.entry := by
  have hoperands : plain.operands = front ++ back := by rw [Command.operands, hplain]; rfl
  have hall : linked.operands = front ++ inputs ++ back := by rw [Command.operands, hlinked]; rfl
  have hcompiling : compiling (Flag.parse linked.operands)
      = compiling (Flag.parse plain.operands) := by
    rw [hall, hoperands, List.append_assoc, Flag.parse_append hfront, Flag.parse_append hinputs,
      Flag.parse_append hfront]
    simp [compiling_eq_nil hlinker]
  have hsame : sources (Flag.parse linked.operands) = sources (Flag.parse plain.operands) := by
    rw [← sources_compiling, hcompiling, sources_compiling]
  have hrecord : ∀ source, record linked (Flag.parse linked.operands) source
      = (record plain (Flag.parse plain.operands) source).withCommand linked := by
    intro source
    rw [← record_compiling (fun _ => Flag.kind_of_mem_parse), hcompiling,
      record_compiling (fun _ => Flag.kind_of_mem_parse), record_withCommand hdirectory]
  rw [← hoperands] at hsources
  refine ⟨_, invocations_eq_ok_iff.mpr (.inr ⟨hsources, rfl⟩), ?_, ?_⟩
  · rw [← hsame] at hsources
    refine invocations_eq_ok_iff.mpr (.inr ⟨hsources, ?_⟩)
    rw [List.map_map, hsame]
    exact List.map_congr_left fun source _ => (hrecord source).symm
  · rw [List.map_map, List.filterMap_map, List.filterMap_map]
    refine List.filterMap_congr fun source _ => ?_
    exact entry_withCommand hdirectory (by rw [hlinked, hplain]; rfl) (by simp [hplain]) _ source

/-- A compilation of a single source. -/
def plainCall : Command where
  program := ⟨"/usr/bin/gcc"⟩
  arguments := ["gcc", "-I", "inc", "-c", "a.c", "-o", "x.o"]
  workingDirectory := ⟨"/src"⟩

/-- Linker inputs with values that are spelled like other flags. -/
def maskedInputs : List String := ["-L", "-o", "libz.so.1", "-Xlinker", "-E", "-lm", "b.o"]

/-- The same call with linker inputs. -/
def linkedCall : Command where
  program := ⟨"/usr/bin/gcc"⟩
  arguments := "gcc" :: (["-I", "inc"] ++ maskedInputs ++ ["-c", "a.c", "-o", "x.o"])
  workingDirectory := ⟨"/src"⟩

theorem invocations_linked_linkedCall :
    linkedCall.workingDirectory = plainCall.workingDirectory
      ∧ plainCall.arguments = "gcc" :: (["-I", "inc"] ++ ["-c", "a.c", "-o", "x.o"])
      ∧ EndsWhole ["-I", "inc"]
      ∧ EndsWhole maskedInputs
      ∧ (∀ flag ∈ Flag.parse maskedInputs, isForLinker flag.kind = true)
      ∧ sources (Flag.parse (["-I", "inc"] ++ ["-c", "a.c", "-o", "x.o"])) ≠ []
      ∧ invocations linkedCall
        = .ok [.compile linkedCall ⟨"/src/a.c"⟩ ⟨"/src/x.o"⟩ ["-I", "inc"]] := by
  have hdirectory : linkedCall.workingDirectory = plainCall.workingDirectory := rfl
  have hplain : plainCall.arguments = "gcc" :: (["-I", "inc"] ++ ["-c", "a.c", "-o", "x.o"]) := rfl
  have hfront : EndsWhole ["-I", "inc"] := by decide
  have hinputs : EndsWhole maskedInputs := by decide
  have hlinker : ∀ flag ∈ Flag.parse maskedInputs, isForLinker flag.kind = true := by decide
  have hsources : sources (Flag.parse (["-I", "inc"] ++ ["-c", "a.c", "-o", "x.o"])) ≠ [] := by
    decide
  have hrecord : invocations plainCall
      = .ok [.compile plainCall ⟨"/src/a.c"⟩ ⟨"/src/x.o"⟩ ["-I", "inc"]] := rfl
  obtain ⟨found, hfound, hrecords, -⟩ :=
    invocations_linked hdirectory hplain rfl hfront hinputs hlinker hsources
  rw [hrecord] at hfound
  cases hfound
  exact ⟨hdirectory, hplain, hfront, hinputs, hlinker, hsources, hrecords⟩

end Driver

end CompileCommands
