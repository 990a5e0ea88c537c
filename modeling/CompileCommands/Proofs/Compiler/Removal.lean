/-
Flags that a declared compiler removes.

The flags of a record are a row of arguments, in which a value is no longer told from a flag.  What
is removed is each argument that is spelled like an unwanted one.  A flag whose name is unwanted
leaves its value behind, and a flag whose value is unwanted stays without it, ready to take the next
argument.  As long as no flag is torn apart like this, the command line of the entry is made of
whole flags and has one source.

A torn flag does its harm in two ways.  A value that is left behind becomes an input, and a source
if it is named like one.  A flag at the end that lost its value takes the first argument that the
entry adds: that is `-c`, which the next compilation then lacks, or, where `-S` stands for it, the
`-o` in front of the output, which becomes an input in turn.
-/
import CompileCommands.Compiler.Tool
import CompileCommands.Proofs.Compiler.Rereading
import CompileCommands.Proofs.Compiler.Sources
import CompileCommands.Proofs.Flag.Concatenation

namespace CompileCommands

/-! ### Torn flags -/

namespace DeclaredCompiler

variable (compiler : DeclaredCompiler)

/-- No argument of the flag is removed. -/
def leaves (flag : Flag) : Bool :=
  flag.arguments.all fun word => !compiler.flagsToRemove.contains word

/-- The flag stays as it is, or goes with its value. -/
def KeepsTogether (flag : Flag) : Prop :=
  compiler.leaves flag = true ∨ ∀ word ∈ flag.arguments, word ∈ compiler.flagsToRemove

instance (flag : Flag) : Decidable (compiler.KeepsTogether flag) :=
  inferInstanceAs (Decidable (_ ∨ _))

/-- What is left of some arguments. -/
def left (words : List String) : List String :=
  words.filter fun word => !compiler.flagsToRemove.contains word

variable {compiler}

theorem adjust_eq_left (h : compiler.flagsToAdd = []) (words : List String) :
    compiler.adjust words = compiler.left words := by
  rw [adjust, h, List.append_nil]
  rfl

@[simp]
theorem left_append (front back : List String) :
    compiler.left (front ++ back) = compiler.left front ++ compiler.left back :=
  List.filter_append front back

@[simp]
theorem left_of_leaves {flag : Flag} (h : compiler.leaves flag = true) :
    compiler.left flag.arguments = flag.arguments :=
  List.filter_eq_self.mpr (List.all_eq_true.mp h)

theorem left_eq_nil_iff {words : List String} :
    compiler.left words = [] ↔ ∀ word ∈ words, word ∈ compiler.flagsToRemove := by
  simp [left]

/-- What is left of the arguments holds the flags that stay. -/
theorem length_leaves_le (flags : List Flag) :
    ((flags.filter compiler.leaves).flatMap Flag.arguments).length
      ≤ (compiler.left (flags.flatMap Flag.arguments)).length := by
  induction flags with
  | nil => exact Nat.le_refl _
  | cons flag flags ih =>
    rw [List.flatMap_cons, left_append, List.length_append]
    by_cases hleaves : compiler.leaves flag = true
    · rw [List.filter_cons_of_pos hleaves, List.flatMap_cons, List.length_append,
        left_of_leaves hleaves]
      omega
    · rw [List.filter_cons_of_neg hleaves]
      omega

/-- **Nothing but whole flags is left just if no flag is torn apart.** -/
theorem left_eq_leaves_iff {flags : List Flag} :
    compiler.left (flags.flatMap Flag.arguments)
        = (flags.filter compiler.leaves).flatMap Flag.arguments
      ↔ ∀ flag ∈ flags, compiler.KeepsTogether flag := by
  induction flags with
  | nil => simp [left]
  | cons flag flags ih =>
    rw [List.forall_mem_cons, ← ih, List.flatMap_cons, left_append]
    by_cases hleaves : compiler.leaves flag = true
    · rw [List.filter_cons_of_pos hleaves, List.flatMap_cons, left_of_leaves hleaves,
        List.append_cancel_left_eq]
      simp [KeepsTogether, hleaves]
    · have hkeeps : compiler.KeepsTogether flag ↔ compiler.left flag.arguments = [] := by
        rw [left_eq_nil_iff, KeepsTogether]
        simp [hleaves]
      rw [List.filter_cons_of_neg hleaves, hkeeps]
      constructor
      · intro h
        -- What is left of a torn flag makes the left side the longer one.
        have hlength := congrArg List.length h
        rw [List.length_append] at hlength
        have hrest := @length_leaves_le compiler flags
        have hnone : compiler.left flag.arguments = [] :=
          List.eq_nil_of_length_eq_zero (by omega)
        rw [hnone, List.nil_append] at h
        exact ⟨hnone, h⟩
      · intro h
        rw [h.1, h.2, List.nil_append]

end DeclaredCompiler

namespace Driver

open CompileCommands.Flag (EndsWhole kindOf)

/-! ### The command line of an entry -/

@[simp]
theorem flatMap_addedFlags (kept : List String) (output source : String) :
    (addedFlags kept output source).flatMap Flag.arguments
      = addedArguments kept output source := by
  rw [← parse_addedArguments, Flag.flatMap_arguments_parse]

/-- A flag at the end that lacks its value takes one argument, and no other. -/
theorem sources_parse_append_of_lacking {front : List String} (h : ¬ EndsWhole front)
    (value : String) (back : List String) :
    sources (Flag.parse (front ++ value :: back))
      = sources (Flag.parse front) ++ sources (Flag.parse back) := by
  obtain ⟨flags, word, hfront, howns, hparse⟩ := Flag.parse_append_of_lacking h
  have hword : kindOf word ≠ .source := by
    intro hkind
    exact Flag.ne_of_kindOf_eq_source hkind (Flag.isSpelledAsFlag_of_ownsNext howns) rfl
  have hnone : sources (Flag.parse front) = sources flags := by
    rw [hfront, sources_append, sources_cons_of_ne hword]
    exact List.append_nil _
  rw [hnone, hparse, sources_append, sources_cons_of_ne hword]

/-- The sources of the command line of an entry, for any arguments that it keeps. -/
theorem sources_parse_kept (kept : List String) {output source : String}
    (houtput : Flag.isSpelledAsFlag output = false) (hsource : kindOf source = .source) :
    sources (Flag.parse (kept ++ addedArguments kept output source))
      = sourceArguments kept
        ++ (if ¬ EndsWhole kept ∧ "-S" ∈ kept ∧ kindOf output = .source then [output] else [])
        ++ [source] := by
  rw [← sources_parse]
  by_cases hends : EndsWhole kept
  · rw [Flag.parse_append hends]
    simp [hends, hsource]
  · have hlast : sources (Flag.parse [source]) = [source] := sources_cons_source hsource
    by_cases hassembly : "-S" ∈ kept
    · -- The flag at the end takes `-o`.
      rw [addedArguments, if_pos hassembly, List.nil_append,
        sources_parse_append_of_lacking hends,
        Flag.parse_alone (Flag.ownsNext_of_not_isSpelledAsFlag houtput), List.append_assoc]
      by_cases hproduct : kindOf output = .source
      · rw [sources_cons_source hproduct, hlast, if_pos ⟨hends, hassembly, hproduct⟩]
        rfl
      · rw [sources_cons_of_ne hproduct, hlast, if_neg fun h => hproduct h.2.2, List.nil_append]
    · -- The flag at the end takes `-c`.
      have hnamed : sources (Flag.parse ["-o", output, source]) = [source] := by
        rw [Flag.parse_valued (by decide), sources_cons_of_ne (by decide), hlast]
      rw [addedArguments, if_neg hassembly, List.singleton_append,
        sources_parse_append_of_lacking hends, hnamed, if_neg fun h => hassembly h.2.1,
        List.append_nil]

end Driver

/-! ### Records of a declared compiler -/

namespace DeclaredCompiler

open CompileCommands.Driver
open CompileCommands.Flag (EndsWhole kindOf)

variable {compiler : DeclaredCompiler}

/-- What is left in front of the arguments that an entry adds is cut into the flags that stay just
if no flag is torn apart. -/
theorem parse_left_iff {flags : List Flag} (h : ∀ flag ∈ flags, flag.IsWhole)
    (kept : List String) (output source : String) :
    Flag.parse (compiler.left (flags.flatMap Flag.arguments) ++ addedArguments kept output source)
        = flags.filter compiler.leaves ++ addedFlags kept output source
      ↔ ∀ flag ∈ flags, compiler.KeepsTogether flag := by
  rw [← left_eq_leaves_iff]
  constructor
  · intro hparse
    have hwords := congrArg (List.flatMap Flag.arguments) hparse
    rw [Flag.flatMap_arguments_parse, List.flatMap_append, flatMap_addedFlags] at hwords
    exact List.append_cancel_right hwords
  · intro hleft
    rw [hleft, Flag.parse_flatMap (isWhole_of_mem_filter h), parse_addedArguments]

variable {command : Command} {found : List Invocation} {called : Command} {source output : Path}
  {kept : List String}

/-- A compilation that a declared compiler records is one of the driver, with its flags adjusted. -/
theorem compile_of_invocations (hfound : (Tool.declared compiler).invocations command = .ok found)
    (hrecord : .compile called source output kept ∈ found) :
    (∃ name ∈ sources (Flag.parse command.operands), source = command.resolve ⟨name⟩)
      ∧ (∃ name, output = command.resolve ⟨name⟩)
      ∧ kept = compiler.adjust (retained (Flag.parse command.operands)) := by
  obtain ⟨all, hall, rfl⟩ := map_eq_ok_iff.mp hfound
  obtain ⟨i, hi, hadjusted⟩ := List.mem_map.mp hrecord
  cases i with
  | query | preprocess => cases hadjusted
  | compile _ _ _ flags =>
    obtain ⟨name, hname, -, hcompiled⟩ := compilation_of_invocations hall hi rfl
    cases hcompiled
    cases hadjusted
    exact ⟨⟨name, hname, rfl⟩, ⟨_, rfl⟩, rfl⟩

/-- **Removing flags does no harm as long as it tears none apart.**  Then, and only then, the
command line of an entry is made of the flags of the call that stay, and its source is its file.
It has this one source just if no value that was left behind is named like a source, and no flag
that lost its value takes the `-o` in front of an output that is. -/
theorem sources_entry_iff (hadd : compiler.flagsToAdd = [])
    (absolute : command.workingDirectory.isAbsolute = true) (ends : EndsWhole command.operands)
    (hfound : (Tool.declared compiler).invocations command = .ok found)
    (hrecord : .compile called source output kept ∈ found) {entry : Entry}
    (hentry : (Invocation.compile called source output kept).entry = some entry) :
    (Flag.parse (entry.arguments.drop 1)
        = ((Flag.parse command.operands).filter isRetained).filter compiler.leaves
          ++ addedFlags kept output.text source.text
      ↔ ∀ flag ∈ (Flag.parse command.operands).filter isRetained, compiler.KeepsTogether flag)
    ∧ ((∀ flag ∈ (Flag.parse command.operands).filter isRetained, compiler.KeepsTogether flag) →
        sources (Flag.parse (entry.arguments.drop 1)) = [entry.file.text])
    ∧ (sources (Flag.parse (entry.arguments.drop 1)) = [entry.file.text]
      ↔ sourceArguments kept = []
        ∧ (EndsWhole kept ∨ "-S" ∉ kept ∨ kindOf output.text ≠ .source)) := by
  obtain ⟨⟨name, hname, hsource⟩, ⟨object, houtput⟩, hkept⟩ :=
    compile_of_invocations hfound hrecord
  have hkind : kindOf source.text = .source := by
    rw [hsource]
    exact kindOf_resolve absolute (kindOf_of_mem_sources hname)
  have hspelled : Flag.isSpelledAsFlag output.text = false := by
    rw [houtput]
    exact isSpelledAsFlag_resolve absolute _
  rw [adjust_eq_left hadd, retained] at hkept
  cases hentry
  rw [drop_compileArguments]
  have hwhole : ∀ flag ∈ (Flag.parse command.operands).filter isRetained, flag.IsWhole :=
    isWhole_of_mem_filter (Flag.isWhole_of_mem_parse ends)
  have htogether := @parse_left_iff compiler _ hwhole kept output.text source.text
  rw [← hkept] at htogether
  refine ⟨htogether, ?_, ?_⟩
  · intro h
    rw [htogether.mpr h, List.filter_comm, sources_append, sources_filter_isRetained]
    simp [hkind]
  · rw [sources_parse_kept kept hspelled hkind, List.append_left_eq_self, List.append_eq_nil_iff]
    refine and_congr_right fun _ => ?_
    by_cases hends : EndsWhole kept
    · simp [hends]
    · by_cases hassembly : "-S" ∈ kept <;> simp [hends, hassembly]

/-- A compiler with a flag and its value to remove. -/
def quietCompiler : DeclaredCompiler where
  executable := ⟨"/opt/vendor/bin/vcc"⟩
  flagsToRemove := ["-Werror", "-MF", "a.d"]

/-- A call with both, and with another flag that takes a value. -/
def noisyCall : Command where
  program := ⟨"/opt/vendor/bin/vcc"⟩
  arguments := ["vcc", "-Werror", "-include", "b.h", "-MF", "a.d", "-c", "a.c"]
  workingDirectory := ⟨"/src"⟩

theorem sources_entry_noisyCall :
    quietCompiler.flagsToAdd = []
      ∧ noisyCall.workingDirectory.isAbsolute = true
      ∧ EndsWhole noisyCall.operands
      ∧ (Tool.declared quietCompiler).invocations noisyCall
        = .ok [.compile noisyCall ⟨"/src/a.c"⟩ ⟨"/src/a.o"⟩ ["-include", "b.h"]]
      ∧ ∃ entry, (Invocation.compile noisyCall ⟨"/src/a.c"⟩ ⟨"/src/a.o"⟩
          ["-include", "b.h"]).entry = some entry
        ∧ sources (Flag.parse (entry.arguments.drop 1)) = ["/src/a.c"] := by
  have habsolute : noisyCall.workingDirectory.isAbsolute = true := by decide
  have hends : EndsWhole noisyCall.operands := by decide
  have hfound : (Tool.declared quietCompiler).invocations noisyCall
      = .ok [.compile noisyCall ⟨"/src/a.c"⟩ ⟨"/src/a.o"⟩ ["-include", "b.h"]] := rfl
  have htogether : ∀ flag ∈ (Flag.parse noisyCall.operands).filter isRetained,
      quietCompiler.KeepsTogether flag := by decide
  exact ⟨rfl, habsolute, hends, hfound, _, rfl,
    (sources_entry_iff rfl habsolute hends hfound List.mem_cons_self rfl).2.1 htogether⟩

/-- A compiler that is to be called without a header of its own. -/
def barringCompiler : DeclaredCompiler where
  executable := ⟨"/opt/vendor/bin/vcc"⟩
  flagsToRemove := ["-include"]

def includingCall : Command where
  program := ⟨"/opt/vendor/bin/vcc"⟩
  arguments := ["vcc", "-include", "config.h", "-c", "a.c"]
  workingDirectory := ⟨"/src"⟩

/-- Its entry. -/
def includingEntry : Entry where
  file := ⟨"/src/a.c"⟩
  directory := ⟨"/src"⟩
  output := some ⟨"/src/a.o"⟩
  arguments := ["vcc", "config.h", "-c", "-o", "/src/a.o", "/src/a.c"]

/-- **A removed flag may leave its value behind as a second source.** -/
theorem sources_includingEntry :
    barringCompiler.flagsToAdd = []
      ∧ includingCall.workingDirectory.isAbsolute = true
      ∧ EndsWhole includingCall.operands
      ∧ ((Tool.declared barringCompiler).invocations includingCall).map (·.map Invocation.entry)
        = .ok [some includingEntry]
      ∧ sources (Flag.parse (includingEntry.arguments.drop 1)) = ["config.h", "/src/a.c"] :=
  ⟨rfl, by decide, by decide, rfl, by decide⟩

end DeclaredCompiler

end CompileCommands
