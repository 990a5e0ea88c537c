/-
What the records of a compiler call are.

A driver either records that it was asked about itself, or has one record for each source.  All
other tools go through it: a launcher by the command of its compiler, which runs in the same
directory, and a declared compiler by changing the flags of what it recorded.  So whatever does
not depend on flags is shown for the driver and holds for every tool.
-/
import CompileCommands.Compiler.Tool
import CompileCommands.Proofs.Flag.Parse
import CompileCommands.Proofs.Result

namespace CompileCommands

/-! ### Drivers -/

/-- Paths are seen alike from one directory. -/
theorem Command.resolve_eq {command other : Command}
    (h : command.workingDirectory = other.workingDirectory) : command.resolve = other.resolve := by
  funext path
  rw [resolve, resolve, h]

namespace Driver

/-- When a call is recognized, and as what. -/
theorem invocations_eq_ok_iff {command : Command} {found : List Invocation} :
    invocations command = .ok found
      ↔ (sources (Flag.parse command.operands) = []
          ∧ isQuery (Flag.parse command.operands) = true ∧ found = [.query command])
        ∨ (sources (Flag.parse command.operands) ≠ []
          ∧ found = (sources (Flag.parse command.operands)).map
              (record command (Flag.parse command.operands))) := by
  unfold invocations
  split
  · rename_i hempty
    rw [List.isEmpty_iff.mp hempty]
    constructor
    · intro h
      cases h
    · intro h
      rcases h with ⟨-, hquery, -⟩ | ⟨hsources, -⟩
      · cases hquery
      · exact absurd rfl hsources
  · dsimp only
    split
    · rename_i hsources
      by_cases hquery : isQuery (Flag.parse command.operands) = true
      · simp [hquery, hsources, eq_comm]
      · simp [hquery, hsources]
    · rename_i hsources
      constructor
      · intro h
        cases h
        exact .inr ⟨hsources, rfl⟩
      · intro h
        rcases h with ⟨hnone, -, -⟩ | ⟨-, rfl⟩
        · exact absurd hnone hsources
        · rfl

theorem cases_of_invocations {command : Command} {found : List Invocation}
    (h : invocations command = .ok found) {i : Invocation} (hi : i ∈ found) :
    i = .query command
      ∨ ∃ source ∈ sources (Flag.parse command.operands),
          i = record command (Flag.parse command.operands) source := by
  rcases invocations_eq_ok_iff.mp h with ⟨-, -, rfl⟩ | ⟨-, rfl⟩
  · exact .inl (List.mem_singleton.mp hi)
  · obtain ⟨source, hsource, rfl⟩ := List.mem_map.mp hi
    exact .inr ⟨source, hsource, rfl⟩

/-- An entry is that of the compilation of a source. -/
theorem compilation_of_invocations {command : Command} {found : List Invocation}
    (hfound : invocations command = .ok found) {i : Invocation} (hi : i ∈ found)
    {entry : Entry} (hentry : i.entry = some entry) :
    ∃ source ∈ sources (Flag.parse command.operands),
      onlyPreprocesses (Flag.parse command.operands) = false
      ∧ i = compilation command source (objectFile (Flag.parse command.operands) source)
          (retained (Flag.parse command.operands)) := by
  rcases cases_of_invocations hfound hi with rfl | ⟨source, hsource, rfl⟩
  · cases hentry
  · refine ⟨source, hsource, ?_⟩
    unfold record at hentry ⊢
    by_cases honly : onlyPreprocesses (Flag.parse command.operands) = true
    · rw [if_pos honly] at hentry
      cases hentry
    · rw [if_neg honly]
      exact ⟨by simpa using honly, rfl⟩

theorem kindOf_of_mem_sources {words : List String} {source : String}
    (h : source ∈ sources (Flag.parse words)) : Flag.kindOf source = .source := by
  obtain ⟨flag, hflag, rfl⟩ := List.mem_map.mp h
  obtain ⟨hparsed, hkind⟩ := List.mem_filter.mp hflag
  rw [← Flag.kind_of_mem_parse hparsed]
  exact beq_iff_eq.mp hkind

@[simp]
theorem sources_append (front back : List Flag) :
    sources (front ++ back) = sources front ++ sources back := by
  rw [sources, List.filter_append, List.map_append]
  rfl

/-- Which of five flags are given decides whether a call only preprocesses. -/
theorem onlyPreprocesses_congr {flags others : List Flag}
    (h : ∀ name ∈ ["-E", "-M", "-MM", "-MD", "-MMD"], hasFlag others name = hasFlag flags name) :
    onlyPreprocesses others = onlyPreprocesses flags := by
  simp only [List.forall_mem_cons] at h
  simp [onlyPreprocesses, h]

theorem stopsBeforeLinking_congr {flags others : List Flag}
    (h : ∀ name ∈ ["-c", "-S"], hasFlag others name = hasFlag flags name) :
    stopsBeforeLinking others = stopsBeforeLinking flags := by
  simp only [List.forall_mem_cons] at h
  simp [stopsBeforeLinking, h]

section Cons

variable {word : String} {kind : FlagKind} {values : List String} {flags : List Flag}

@[simp]
theorem sources_cons_source (h : kind = .source) :
    sources (⟨word :: values, kind⟩ :: flags) = word :: sources flags := by
  simp [sources, h, Flag.name]

@[simp]
theorem sources_cons_of_ne (h : kind ≠ .source) :
    sources (⟨word :: values, kind⟩ :: flags) = sources flags := by
  simp [sources, h]

end Cons

end Driver

/-! ### Records with other flags -/

namespace Invocation

@[simp] theorem mapFlags_id (i : Invocation) : i.mapFlags id = i := by
  cases i <;> rfl

/-- Other flags do not change the paths of an entry. -/
theorem entry_mapFlags {f : List String → List String} {i : Invocation} {entry : Entry}
    (h : (i.mapFlags f).entry = some entry) :
    ∃ unchanged, i.entry = some unchanged ∧ entry.file = unchanged.file
      ∧ entry.directory = unchanged.directory := by
  cases i with
  | query | preprocess => cases h
  | compile =>
    cases h
    exact ⟨_, rfl, rfl, rfl⟩

/-- Only compilations have entries, and they name their output. -/
theorem output_of_entry {i : Invocation} {entry : Entry} (h : i.entry = some entry) :
    entry.output.isSome = true := by
  cases i with
  | query | preprocess => cases h
  | compile =>
    cases h
    rfl

end Invocation

/-! ### Tools -/

/-- A launcher runs its compiler where it runs itself. -/
theorem Command.workingDirectory_launched {command inner : Command}
    (h : command.launched = .ok inner) : inner.workingDirectory = command.workingDirectory := by
  unfold launched at h
  split at h
  · cases h
  · split at h
    · cases h
    · cases h
      rfl

/-- Every record of a tool is one of a driver in the same directory, up to its flags. -/
theorem Tool.driver_of_invocations {tool : Tool} {command : Command} {found : List Invocation}
    (h : tool.invocations command = .ok found) {i : Invocation} (hi : i ∈ found) :
    ∃ inner all j f, inner.workingDirectory = command.workingDirectory
      ∧ Driver.invocations inner = .ok all ∧ j ∈ all ∧ i = j.mapFlags f := by
  unfold Tool.invocations at h
  split at h
  · obtain ⟨inner, hlaunched, hinner⟩ := bind_eq_ok_iff.mp h
    exact ⟨inner, found, i, id, Command.workingDirectory_launched hlaunched, hinner, hi,
      i.mapFlags_id.symm⟩
  · exact ⟨command, found, i, id, rfl, h, hi, i.mapFlags_id.symm⟩
  · obtain ⟨all, hall, rfl⟩ := map_eq_ok_iff.mp h
    obtain ⟨j, hj, rfl⟩ := List.mem_map.mp hi
    exact ⟨command, all, j, _, rfl, hall, hj, rfl⟩

end CompileCommands
