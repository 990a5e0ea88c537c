/-
A conversion that fails leaves every file as it was.

Up to the moment the output is created a conversion only reads, and everything that depends on the
content of a file can only fail there.  Creating the output either fails, and then nothing has
happened, or is followed by steps that cannot fail: the sources are looked up, and what could be
created can be written.  So the files change only in a conversion that succeeds, and only where
the output is.

`Fails` stands beside `Yields`.  A sequence fails when a step fails, and the steps before it have
yielded a value each.
-/
import CompileCommands.Proofs.Conversion.Append

namespace CompileCommands.Conversion

variable {α β : Type} {log log' : List LogEvent} {fs fs' : FileSystem} {error : ConversionError}

/-! ### The rules -/

/-- The conversion ends with an error. -/
def Fails (conversion : InMemory α) (log : List LogEvent) (fs : FileSystem)
    (error : ConversionError) (log' : List LogEvent) (fs' : FileSystem) : Prop :=
  outcome conversion log fs = ((.error error, log'), fs')

theorem Yields.not_fails {conversion : InMemory α} {a : α} {end' : List LogEvent}
    {fs₁ : FileSystem} (h : Yields conversion log fs a end' fs₁) :
    ¬ Fails conversion log fs error log' fs' := by
  intro hfails
  cases h.symm.trans hfails

theorem fails_bind {first : InMemory α} {next : α → InMemory β}
    (h : Fails (first >>= next) log fs error log' fs') :
    Fails first log fs error log' fs'
      ∨ ∃ a between fs₁, Yields first log fs a between fs₁
        ∧ Fails (next a) between fs₁ error log' fs' := by
  unfold Fails at h ⊢
  rw [outcome_bind] at h
  rcases houtcome : outcome first log fs with ⟨⟨r, between⟩, fs₁⟩
  rw [houtcome] at h
  cases r with
  | error cause =>
    cases h
    exact .inl rfl
  | ok a => exact .inr ⟨a, between, fs₁, houtcome, h⟩

/-- A sequence that starts with a step that cannot fail goes on where that step has led. -/
theorem fails_ask_bind {action : StateM FileSystem α} {next : α → InMemory β}
    (h : Fails (ask action >>= next) log fs error log' fs') :
    Fails (next (action.run fs).1) log (action.run fs).2 error log' fs' := by
  unfold Fails at h ⊢
  simpa [outcome_bind] using h

theorem fails_tell_bind {events : List LogEvent} {next : Unit → InMemory β}
    (h : Fails (tell events >>= next) log fs error log' fs') :
    Fails (next ()) (log ++ events) fs error log' fs' := by
  unfold Fails at h ⊢
  simpa [outcome_bind] using h

theorem not_fails_pure {a : α} : ¬ Fails (pure a) log fs error log' fs' :=
  Yields.not_fails (yields_pure.mpr ⟨rfl, rfl, rfl⟩)

/-! ### The steps -/

/-- A step that only reads leaves the files alone when it fails, too. -/
theorem OnlyReads.files_of_fails {conversion : InMemory α} (h : OnlyReads conversion)
    (hfails : Fails conversion log fs error log' fs') : fs' = fs := by
  obtain ⟨r, hr⟩ := h fs
  have hend : ((r, log), fs) = ((.error error, log'), fs') := (hr log).symm.trans hfails
  cases hend
  rfl

/-- A sequence that starts with a step that only reads fails there, or later from the same files. -/
theorem OnlyReads.fails_bind {first : InMemory α} {next : α → InMemory β} (h : OnlyReads first)
    (hfails : Fails (first >>= next) log fs error log' fs') :
    fs' = fs ∨ ∃ a, Fails (next a) log fs error log' fs' := by
  rcases Conversion.fails_bind hfails with hfirst | ⟨a, between, fs₁, hyields, hnext⟩
  · exact .inl (h.files_of_fails hfirst)
  · obtain ⟨-, rfl, rfl⟩ := h.loads hyields
    exact .inr ⟨a, hnext⟩

theorem files_of_keepExisting_fails {options : Options} {found : List Entry}
    (h : Fails (keepExisting FileSystem.files options found) log fs error log' fs') :
    fs' = fs := by
  unfold keepExisting at h
  by_cases happend : options.append = true
  · simp only [happend, if_true] at h
    replace h := fails_ask_bind h
    cases hpresent : fs.isPresent options.output with
    | false =>
      rw [show (StateT.run (FileSystem.files.isPresent options.output) fs).1 = false
        from hpresent] at h
      exact absurd h not_fails_pure
    | true =>
      rw [show (StateT.run (FileSystem.files.isPresent options.output) fs).1 = true
        from hpresent, if_pos rfl] at h
      rcases (onlyReads_loadDatabase _).fails_bind h with hfiles | ⟨existing, hmerge⟩
      · exact hfiles
      · exact absurd (fails_tell_bind hmerge) not_fails_pure
  · simp only [happend] at h
    exact absurd h not_fails_pure

/-- The output is saved unless it cannot be created, and then nothing has happened. -/
theorem files_of_save_fails {output : OutputOptions} {path : Path} {entries : List Entry}
    (h : Fails (save FileSystem.files output path entries) log fs error log' fs') :
    fs' = fs := by
  cases hcreate : fs.create path with
  | ok created =>
    obtain ⟨saved, hsaved⟩ := yields_save hcreate entries
    exact absurd h hsaved.not_fails
  | error cause =>
    have hrefused : (FileSystem.files.create path).run fs = (.error cause, fs) := by
      show (FileSystem.apply _).run fs = _
      rw [apply_run, hcreate]
    replace h := fails_ask_bind h
    rw [hrefused] at h
    cases h
    rfl

/-! ### The whole -/

theorem files_of_run_fails {options : Options} {configured : Option Path}
    (h : Fails (run FileSystem.files options configured) log fs error log' fs') : fs' = fs := by
  rcases (onlyReads_loadConfig _).fails_bind h with hfiles | ⟨loaded, hconfigured⟩
  · exact hfiles
  rcases (onlyReads_loadReport _).fails_bind hconfigured with hfiles | ⟨report, hreported⟩
  · exact hfiles
  have htold := fails_tell_bind hreported
  have hcounted := fails_tell_bind htold
  rcases fails_bind hcounted with hkeep | ⟨entries, between, fs₁, hkeep, hkept⟩
  · exact files_of_keepExisting_fails hkeep
  obtain ⟨-, rfl⟩ := gathered_of_keepExisting hkeep
  rcases fails_bind hkept with hsave | ⟨written, between, fs₂, -, hsaved⟩
  · exact files_of_save_fails hsave
  · exact absurd (fails_tell_bind hsaved) not_fails_pure

/-- **A conversion that fails leaves all files as they were, and one that succeeds changes nothing
but its output.** -/
theorem files_of_run (fs : FileSystem) (options : Options) (configured : Option Path) :
    match (result (run FileSystem.files options configured)).run fs with
    | ((.error _, _), fs') => fs' = fs
    | ((.ok _, _), fs') =>
        fs'.workingDirectory = fs.workingDirectory
        ∧ ∃ output, fs.resolve options.output = .ok output
          ∧ ∀ location, location ≠ output → fs'.node? location = fs.node? location := by
  split
  · rename_i error events fs' hfails
    exact files_of_run_fails hfails
  · rename_i n events fs' hyields
    obtain ⟨_, _, _, _, _, _, -, -, -, -, -, -, hwrite⟩ := write_of_run hyields
    obtain ⟨output, hlocation, rfl⟩ := FileSystem.write_eq_ok_iff.mp hwrite
    obtain ⟨-, hresolve, -⟩ := FileSystem.fileLocation_eq_ok_iff.mp hlocation
    exact ⟨rfl, output, hresolve, fun location hne => FileSystem.node_put hne⟩

end CompileCommands.Conversion
