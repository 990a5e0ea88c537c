/-
What the arguments of a call decide.

Whether there is a record, of what kind it is and where its product goes is asked of the flags of
a call.  The flags are those of the arguments that are no values, so each of these questions is
one about arguments: the sources are the arguments that are neither values nor flags and are named
like sources, and a flag is given if it is an argument and not a value.  An argument that looks
like a source or a flag is not taken for one where another flag owns it.
-/
import CompileCommands.Proofs.Compiler.Records
import CompileCommands.Proofs.Flag.Places
import Mathlib.Data.List.Forall2

namespace CompileCommands.Driver

open CompileCommands.Flag (kindOf standing outputs isSpelledAsFlag)

variable {words : List String}

/-! ### What is asked of the flags -/

/-- The arguments that are neither values nor flags and are named like sources, in order and as
often as they are given. -/
def sourceArguments (words : List String) : List String :=
  (standing words).filter fun word => !isSpelledAsFlag word && SourceFile.isSource word

/-- An argument that is no value asks about the compiler. -/
def AsksAboutCompiler (words : List String) : Prop :=
  ∃ word ∈ standing words, kindOf word = .information

/-- `-E` is given, or dependency rules alone are. -/
def OnlyPreprocesses (words : List String) : Prop :=
  "-E" ∈ standing words
    ∨ ("-M" ∈ standing words ∨ "-MM" ∈ standing words)
      ∧ ¬ ("-MD" ∈ standing words ∨ "-MMD" ∈ standing words)

/-- The output that the call names for its only source; the last one counts. -/
def soleOutput? (words : List String) : Option String :=
  if (sourceArguments words).length = 1 then (outputs words).getLast? else none

/-- The object that the call names: a call that links names something else. -/
def namedObject? (words : List String) : Option String :=
  if "-c" ∈ standing words ∨ "-S" ∈ standing words then soleOutput? words else none

@[simp]
theorem sources_parse (words : List String) :
    sources (Flag.parse words) = sourceArguments words := by
  have hkind : ∀ word, (kindOf word == .source)
      = (!isSpelledAsFlag word && SourceFile.isSource word) := by
    intro word
    rw [Bool.eq_iff_iff, beq_iff_eq, Flag.kindOf_eq_source_iff]
    simp
  rw [sources, sourceArguments, standing, Flag.parse_eq_map_heads, List.filter_map, List.map_map,
    List.filter_map]
  exact congrArg _ (List.filter_congr fun head _ => hkind head.1)

@[simp]
theorem hasFlag_parse_iff {name : String} :
    hasFlag (Flag.parse words) name = true ↔ name ∈ standing words := by
  rw [← Flag.map_name_parse, hasFlag, List.any_eq_true, List.mem_map]
  simp

@[simp]
theorem isQuery_parse_iff : isQuery (Flag.parse words) = true ↔ AsksAboutCompiler words := by
  rw [AsksAboutCompiler, ← Flag.map_name_parse, isQuery, List.any_eq_true]
  constructor
  · intro h
    obtain ⟨flag, hflag, hkind⟩ := h
    rw [beq_iff_eq, Flag.kind_of_mem_parse hflag] at hkind
    exact ⟨flag.name, List.mem_map_of_mem hflag, hkind⟩
  · intro h
    obtain ⟨word, hword, hkind⟩ := h
    obtain ⟨flag, hflag, rfl⟩ := List.mem_map.mp hword
    exact ⟨flag, hflag, beq_iff_eq.mpr ((Flag.kind_of_mem_parse hflag).trans hkind)⟩

@[simp]
theorem onlyPreprocesses_parse_iff :
    onlyPreprocesses (Flag.parse words) = true ↔ OnlyPreprocesses words := by
  rw [onlyPreprocesses, OnlyPreprocesses, ← hasFlag_parse_iff, ← hasFlag_parse_iff,
    ← hasFlag_parse_iff, ← hasFlag_parse_iff, ← hasFlag_parse_iff]
  simp only [Bool.or_eq_true, Bool.and_eq_true, Bool.not_eq_true', ← Bool.not_eq_true]

@[simp]
theorem stopsBeforeLinking_parse_iff :
    stopsBeforeLinking (Flag.parse words) = true
      ↔ "-c" ∈ standing words ∨ "-S" ∈ standing words := by
  rw [stopsBeforeLinking, Bool.or_eq_true, hasFlag_parse_iff, hasFlag_parse_iff]

@[simp]
theorem namedOutput?_parse (words : List String) :
    namedOutput? (Flag.parse words) = (outputs words).getLast? := by
  rw [namedOutput?, Flag.filterMap_value?_parse]

theorem soleOutput?_cases (words : List String) :
    (∃ source output, sourceArguments words = [source] ∧ (outputs words).getLast? = some output
        ∧ soleOutput? words = some output)
      ∨ (∀ source output, sourceArguments words = [source] →
          (outputs words).getLast? ≠ some output) ∧ soleOutput? words = none := by
  rw [soleOutput?]
  split
  · rename_i hlength
    obtain ⟨source, hsource⟩ := List.length_eq_one_iff.mp hlength
    cases houtput : (outputs words).getLast? with
    | none => exact .inr ⟨fun _ _ _ h => (by cases h), rfl⟩
    | some output => exact .inl ⟨source, output, hsource, rfl, rfl⟩
  · rename_i hlength
    exact .inr ⟨fun source _ hsource => absurd (by rw [hsource]; rfl) hlength, rfl⟩

@[simp]
theorem preprocessedOutput?_parse (words : List String) :
    preprocessedOutput? (Flag.parse words) = (soleOutput? words).filter (· ≠ "-") := by
  rw [preprocessedOutput?, sources_parse, namedOutput?_parse]
  rcases soleOutput?_cases words with ⟨source, output, hsource, houtput, hsole⟩ | ⟨hnone, hsole⟩
  · rw [hsource, houtput, hsole]
    by_cases hdash : output = "-" <;> simp [hdash, Option.filter]
  · rw [hsole]
    split
    · rename_i source output hsource houtput
      exact absurd houtput (hnone source output hsource)
    · rfl

@[simp]
theorem objectFile_parse (words : List String) (source : String) :
    objectFile (Flag.parse words) source = (namedObject? words).getD (objectName source) := by
  rw [objectFile, namedObject?, sources_parse, namedOutput?_parse]
  simp only [← stopsBeforeLinking_parse_iff]
  rcases soleOutput?_cases words with ⟨sole, output, hsole, houtput, hnamed⟩ | ⟨hnone, hnamed⟩
  · rw [hsole, houtput, hnamed]
    cases stopsBeforeLinking (Flag.parse words) <;> rfl
  · rw [hnamed, ite_self]
    split
    · rename_i sole output hsole houtput
      exact absurd houtput (hnone sole output hsole)
    · rfl

/-- A source has a name without its extension. -/
theorem exists_stem_of_isSource {source : String} (h : SourceFile.isSource source = true) :
    ∃ stem, (Path.mk source).stem? = some stem := by
  rw [SourceFile.isSource, Path.extension?] at h
  rw [Path.stem?]
  cases hname : (Path.mk source).fileName? with
  | none => simp [hname] at h
  | some name => exact ⟨_, rfl⟩

/-! ### One record -/

/-- The record of a source argument, with these flags. -/
inductive RecordOf (command : Command) (flags : List String) (source : String) : Invocation → Prop
  /-- The call preprocesses, into a file if it names one; a lone dash is the standard output. -/
  | preprocessed (honly : OnlyPreprocesses command.operands) :
      RecordOf command flags source
        (.preprocess command (command.resolve ⟨source⟩)
          (((soleOutput? command.operands).filter (· ≠ "-")).map fun output =>
            command.resolve ⟨output⟩) flags)
  /-- The call compiles and names the object. -/
  | named (honly : ¬ OnlyPreprocesses command.operands) {object : String}
      (hobject : namedObject? command.operands = some object) :
      RecordOf command flags source
        (.compile command (command.resolve ⟨source⟩) (command.resolve ⟨object⟩) flags)
  /-- The call compiles and names no object, which is then called like the source. -/
  | derived (honly : ¬ OnlyPreprocesses command.operands)
      (hobject : namedObject? command.operands = none) {stem : String}
      (hstem : (Path.mk source).stem? = some stem) :
      RecordOf command flags source
        (.compile command (command.resolve ⟨source⟩) (command.resolve ⟨stem ++ ".o"⟩) flags)

theorem recordOf_record (command : Command) {source : String}
    (h : source ∈ sourceArguments command.operands) :
    RecordOf command (retained (Flag.parse command.operands)) source
      (record command (Flag.parse command.operands) source) := by
  rw [record]
  split
  · rename_i honly
    rw [preprocessing, preprocessedOutput?_parse]
    exact .preprocessed (onlyPreprocesses_parse_iff.mp honly)
  · rename_i honly
    have hcompiles : ¬ OnlyPreprocesses command.operands :=
      fun h => honly (onlyPreprocesses_parse_iff.mpr h)
    rw [compilation, objectFile_parse]
    cases hobject : namedObject? command.operands with
    | some object => exact .named hcompiles hobject
    | none =>
      have hsource : SourceFile.isSource source = true :=
        (Bool.and_eq_true_iff.mp (List.mem_filter.mp h).2).2
      obtain ⟨stem, hstem⟩ := exists_stem_of_isSource hsource
      rw [Option.getD_none, objectName, hstem, Option.getD_some]
      exact .derived hcompiles hobject hstem

theorem RecordOf.mapFlags {command : Command} {flags : List String} {source : String}
    {i : Invocation} (h : RecordOf command flags source i) (f : List String → List String) :
    RecordOf command (f flags) source (i.mapFlags f) := by
  cases h with
  | preprocessed honly => exact .preprocessed honly
  | named honly hobject => exact .named honly hobject
  | derived honly hobject hstem => exact .derived honly hobject hstem

/-! ### All records -/

/-- What a call gives, by its source arguments. -/
structure BySources (command : Command) (flags : List String)
    (result : Except Rejection (List Invocation)) : Prop where
  /-- Each source argument has its record, in order. -/
  records : sourceArguments command.operands ≠ [] → ∃ found, result = .ok found
    ∧ List.Forall₂ (RecordOf command flags) (sourceArguments command.operands) found
  /-- Without sources, a call that asks about the compiler is recorded as such. -/
  query : sourceArguments command.operands = [] → AsksAboutCompiler command.operands →
    result = .ok [.query command]
  /-- Any other call without sources is no compilation. -/
  rejected : sourceArguments command.operands = [] → ¬ AsksAboutCompiler command.operands →
    result = .error .noSources

namespace BySources

variable {command : Command} {flags : List String} {result : Except Rejection (List Invocation)}

/-- A call that is recognized has records. -/
theorem ne_nil (h : BySources command flags result) {found : List Invocation}
    (hfound : result = .ok found) : found ≠ [] := by
  rintro rfl
  by_cases hsources : sourceArguments command.operands = []
  · by_cases hasks : AsksAboutCompiler command.operands
    · rw [h.query hsources hasks] at hfound
      cases hfound
    · rw [h.rejected hsources hasks] at hfound
      cases hfound
  · obtain ⟨records, hrecords, hall⟩ := h.records hsources
    rw [hrecords] at hfound
    cases hfound
    exact hsources (List.forall₂_nil_right_iff.mp hall)

theorem mapFlags (h : BySources command flags result) (f : List String → List String) :
    BySources command (f flags) ((·.map (Invocation.mapFlags f)) <$> result) where
  records hsources := by
    obtain ⟨found, rfl, hall⟩ := h.records hsources
    refine ⟨_, rfl, ?_⟩
    rw [List.forall₂_map_right_iff]
    exact hall.imp fun _ _ hrecord => hrecord.mapFlags f
  query hsources hasks := by
    rw [h.query hsources hasks]
    rfl
  rejected hsources hasks := by
    rw [h.rejected hsources hasks]
    rfl

end BySources

theorem bySources_invocations {command : Command} (h : command.operands ≠ []) :
    BySources command (retained (Flag.parse command.operands)) (invocations command) where
  records hsources := by
    rw [← sources_parse] at hsources ⊢
    refine ⟨_, invocations_eq_ok_iff.mpr (.inr ⟨hsources, rfl⟩), ?_⟩
    rw [List.forall₂_map_right_iff, List.forall₂_same]
    intro source hsource
    rw [sources_parse] at hsource
    exact recordOf_record command hsource
  query hsources hasks := by
    rw [← sources_parse] at hsources
    exact invocations_eq_ok_iff.mpr (.inl ⟨hsources, isQuery_parse_iff.mpr hasks, rfl⟩)
  rejected hsources hasks := by
    rw [← sources_parse] at hsources
    rw [← isQuery_parse_iff] at hasks
    rw [invocations, if_neg (by simpa using h)]
    simp [hsources, hasks]

end CompileCommands.Driver

namespace CompileCommands.Tool

open CompileCommands.Driver

/-- What a tool makes of the flags that a driver retains. -/
def adjust : Tool → List String → List String
  | family _ => id
  | declared compiler => compiler.adjust

/-- But for launchers, tools are drivers that may change the flags of the records. -/
theorem invocations_of_ne_launcher {tool : Tool} (h : tool ≠ .family .launcher)
    (command : Command) :
    tool.invocations command
      = (·.map (Invocation.mapFlags tool.adjust)) <$> Driver.invocations command := by
  cases tool with
  | declared compiler => rfl
  | family known =>
    have hdriver : invocations command (.family known) = Driver.invocations command := by
      cases known with
      | launcher => exact absurd rfl h
      | _ => rfl
    have hid : Invocation.mapFlags (adjust (.family known)) = id := funext Invocation.mapFlags_id
    rw [hdriver, hid]
    cases Driver.invocations command with
    | error rejection => rfl
    | ok found => exact congrArg Except.ok (List.map_id found).symm

/-- **The records of a call are those of its source arguments**, for the driver and for all tools
but launchers. -/
theorem bySources_of_operands {command : Command} (h : command.operands ≠ []) :
    (BySources command (retained (Flag.parse command.operands)) (Driver.invocations command)
      ∧ ∀ found, Driver.invocations command = .ok found → found ≠ [])
    ∧ ∀ tool : Tool, tool ≠ .family .launcher →
      BySources command (tool.adjust (retained (Flag.parse command.operands)))
          (tool.invocations command)
        ∧ ∀ found, tool.invocations command = .ok found → found ≠ [] := by
  have hdriver := bySources_invocations h
  refine ⟨⟨hdriver, fun found => hdriver.ne_nil⟩, fun tool htool => ?_⟩
  have hmapped := hdriver.mapFlags tool.adjust
  rw [← invocations_of_ne_launcher htool] at hmapped
  exact ⟨hmapped, fun found => hmapped.ne_nil⟩

/-- A call with values that look like sources and flags. -/
def maskedCall : Command where
  program := ⟨"/usr/bin/gcc"⟩
  arguments := ["gcc", "-include", "b.c", "-MF", "-E", "-c", "a.c", "-", "-o", "x.o", "-oy.o"]
  workingDirectory := ⟨"/src"⟩

/-- A compiler that gets another flag. -/
def defining : Tool := .declared { executable := ⟨"/usr/bin/gcc"⟩, flagsToAdd := ["-DX"] }

theorem bySources_maskedCall :
    maskedCall.operands ≠ [] ∧ defining ≠ .family .launcher
      ∧ sourceArguments maskedCall.operands = ["a.c"]
      ∧ namedObject? maskedCall.operands = some "y.o"
      ∧ ∃ found, defining.invocations maskedCall = .ok found ∧ found ≠ []
        ∧ List.Forall₂ (RecordOf maskedCall ["-include", "b.c", "-MF", "-E", "-", "-DX"])
          ["a.c"] found := by
  have hoperands : maskedCall.operands ≠ [] := by decide
  have hdefining : defining ≠ .family .launcher := by decide
  have hsources : sourceArguments maskedCall.operands = ["a.c"] := by decide
  obtain ⟨hrecords, hne⟩ := (bySources_of_operands hoperands).2 defining hdefining
  obtain ⟨found, hfound, hall⟩ := hrecords.records (by decide)
  exact ⟨hoperands, hdefining, hsources, by decide, found, hfound, hne found hfound, hall⟩

end CompileCommands.Tool
