/-
Conversions of the files in memory.

A conversion starts from a log and a file system and ends with others, be it with a value or
with an error.  `Yields` says that it ends with a value, and has one rule for each way to put
conversions together.  Most steps of a conversion only read: what comes of them does not
depend on the log, and they leave both the log and the files as they are.
-/
import CompileCommands.Conversion
import CompileCommands.Proofs.FileSystem

namespace CompileCommands.Conversion

variable {α β : Type}

/-- A conversion with files in memory. -/
abbrev InMemory (α : Type) := Conversion (StateM FileSystem) α

/-- What a conversion ends with: its result, the log and the files. -/
def outcome (conversion : InMemory α) (log : List LogEvent) (fs : FileSystem) :
    (Except ConversionError α × List LogEvent) × FileSystem :=
  StateT.run (StateT.run (ExceptT.run conversion) log) fs

/-- The conversion succeeds. -/
def Yields (conversion : InMemory α) (log : List LogEvent) (fs : FileSystem) (a : α)
    (log' : List LogEvent) (fs' : FileSystem) : Prop :=
  outcome conversion log fs = ((.ok a, log'), fs')

variable {log log' : List LogEvent} {fs fs' : FileSystem}

/-! ### The rules -/

@[simp] theorem outcome_pure (a : α) : outcome (pure a) log fs = ((.ok a, log), fs) := rfl

@[simp]
theorem outcome_throw (error : ConversionError) :
    outcome (throw error : InMemory α) log fs = ((.error error, log), fs) := rfl

@[simp]
theorem outcome_tell (events : List LogEvent) :
    outcome (tell events) log fs = ((.ok (), log ++ events), fs) := rfl

@[simp]
theorem outcome_ask (action : StateM FileSystem α) :
    outcome (ask action) log fs = ((.ok (action.run fs).1, log), (action.run fs).2) := rfl

theorem outcome_bind (first : InMemory α) (next : α → InMemory β) :
    outcome (first >>= next) log fs = match outcome first log fs with
      | ((.ok a, log'), fs') => outcome (next a) log' fs'
      | ((.error error, log'), fs') => ((.error error, log'), fs') := by
  unfold outcome
  rw [ExceptT.run_bind, StateT.run_bind, StateT.run_bind]
  rcases StateT.run (StateT.run (ExceptT.run first) log) fs with ⟨⟨r, log'⟩, fs'⟩
  cases r <;> rfl

theorem yields_bind {first : InMemory α} {next : α → InMemory β} {b : β} :
    Yields (first >>= next) log fs b log' fs'
      ↔ ∃ a between fs₁, Yields first log fs a between fs₁
        ∧ Yields (next a) between fs₁ b log' fs' := by
  unfold Yields
  rw [outcome_bind]
  constructor
  · intro h
    rcases houtcome : outcome first log fs with ⟨⟨r, between⟩, fs₁⟩
    rw [houtcome] at h
    cases r with
    | error error => cases h
    | ok a => exact ⟨a, between, fs₁, rfl, h⟩
  · intro h
    obtain ⟨a, between, fs₁, hfirst, hnext⟩ := h
    rw [hfirst]
    exact hnext

theorem Yields.bind {first : InMemory α} {next : α → InMemory β} {a : α} {b : β}
    {between : List LogEvent} {fs₁ : FileSystem} (hfirst : Yields first log fs a between fs₁)
    (hnext : Yields (next a) between fs₁ b log' fs') :
    Yields (first >>= next) log fs b log' fs' :=
  yields_bind.mpr ⟨a, between, fs₁, hfirst, hnext⟩

@[simp]
theorem yields_pure {a b : α} :
    Yields (pure a) log fs b log' fs' ↔ b = a ∧ log' = log ∧ fs' = fs := by
  simp [Yields, eq_comm, and_assoc]

@[simp]
theorem not_yields_throw {error : ConversionError} {a : α} :
    ¬ Yields (throw error) log fs a log' fs' := by
  simp [Yields]

@[simp]
theorem yields_tell {events : List LogEvent} {a : Unit} :
    Yields (tell events) log fs a log' fs' ↔ log' = log ++ events ∧ fs' = fs := by
  simp [Yields, eq_comm]

@[simp]
theorem yields_ask {action : StateM FileSystem α} {a : α} :
    Yields (ask action) log fs a log' fs' ↔ log' = log ∧ action.run fs = (a, fs') := by
  unfold Yields
  rw [outcome_ask]
  obtain ⟨b, fs₁⟩ := action.run fs
  constructor
  · intro h
    cases h
    exact ⟨rfl, rfl⟩
  · intro h
    obtain ⟨rfl, hb⟩ := h
    cases hb
    rfl

/-! ### Steps that only read -/

/-- The step ends alike whatever was told before, and changes nothing. -/
def OnlyReads (conversion : InMemory α) : Prop :=
  ∀ fs, ∃ r, ∀ log, outcome conversion log fs = ((r, log), fs)

/-- A step that only reads gives a value. -/
def Loads (conversion : InMemory α) (fs : FileSystem) (a : α) : Prop :=
  ∀ log, Yields conversion log fs a log fs

theorem OnlyReads.loads {conversion : InMemory α} (h : OnlyReads conversion) {a : α}
    (hyields : Yields conversion log fs a log' fs') :
    Loads conversion fs a ∧ log' = log ∧ fs' = fs := by
  obtain ⟨r, hr⟩ := h fs
  have hend : ((r, log), fs) = ((.ok a, log'), fs') := (hr log).symm.trans hyields
  cases hend
  exact ⟨hr, rfl, rfl⟩

theorem Loads.unique {conversion : InMemory α} {a b : α} (ha : Loads conversion fs a)
    (hb : Loads conversion fs b) : a = b := by
  have hend : ((Except.ok a, []), fs) = ((Except.ok b, []), fs) := (ha []).symm.trans (hb [])
  cases hend
  rfl

@[simp] theorem onlyReads_pure (a : α) : OnlyReads (pure a) := fun _ => ⟨.ok a, fun _ => rfl⟩

@[simp] theorem onlyReads_throw (error : ConversionError) : OnlyReads (throw error : InMemory α) :=
  fun _ => ⟨.error error, fun _ => rfl⟩

theorem onlyReads_openFile (path : Path) : OnlyReads (ask (FileSystem.files.openFile path)) :=
  fun fs => ⟨.ok (fs.openFile path), fun _ => rfl⟩

theorem onlyReads_bind {first : InMemory α} {next : α → InMemory β} (hfirst : OnlyReads first)
    (hnext : ∀ a, OnlyReads (next a)) : OnlyReads (first >>= next) := by
  intro fs
  obtain ⟨r, hr⟩ := hfirst fs
  cases r with
  | error error =>
    refine ⟨.error error, fun log => ?_⟩
    rw [outcome_bind, hr]
  | ok a =>
    obtain ⟨r, hr'⟩ := hnext a fs
    refine ⟨r, fun log => ?_⟩
    rw [outcome_bind, hr]
    exact hr' log

theorem onlyReads_loadConfig (path : Option Path) :
    OnlyReads (loadConfig FileSystem.files path) := by
  cases path with
  | none => exact onlyReads_pure _
  | some path =>
    refine onlyReads_bind (onlyReads_openFile path) fun opened => ?_
    split
    · exact onlyReads_pure _
    · exact onlyReads_throw _

/-- A file is opened and decoded, and either may fail with an error of its own. -/
def loadFile {κ : Type} (path : Path) (openError : FileError → ConversionError)
    (decode : Except FileError ByteArray → Except κ α) (readError : κ → ConversionError) :
    InMemory α := do
  match ← ask (FileSystem.files.openFile path) with
  | .error cause => throw (openError cause)
  | .ok content =>
      match decode content with
      | .ok found => return found
      | .error cause => throw (readError cause)

theorem loadConfig_eq_loadFile (path : Path) : loadConfig FileSystem.files (some path)
    = loadFile path (fun cause => .config (.file path cause)) (Config.ofFile path) .config := by
  refine bind_congr fun opened => ?_
  cases opened with
  | error cause => rfl
  | ok content =>
    have hopened : (Except.ok content).bind id = content := rfl
    simp only [hopened]
    cases Config.ofFile path content <;> rfl

theorem loadReport_eq_loadFile (path : Path) : loadReport FileSystem.files path
    = loadFile path (.openReport path) Report.ofFile (.readReport path) := by
  refine bind_congr fun opened => ?_
  cases opened with
  | error cause => rfl
  | ok content =>
    dsimp only
    cases Report.ofFile content <;> rfl

theorem loadDatabase_eq_loadFile (path : Path) : loadDatabase FileSystem.files path
    = loadFile path (fun cause => .readDatabase path (.file path cause)) Database.read
        (.readDatabase path) := by
  refine bind_congr fun opened => ?_
  cases opened with
  | error cause => rfl
  | ok content =>
    dsimp only
    cases Database.read content <;> rfl

section LoadFile

variable {κ : Type} {path : Path} {openError : FileError → ConversionError}
  {decode : Except FileError ByteArray → Except κ α} {readError : κ → ConversionError}

theorem onlyReads_loadFile : OnlyReads (loadFile path openError decode readError) := by
  refine onlyReads_bind (onlyReads_openFile path) fun opened => ?_
  split
  · exact onlyReads_throw _
  · split
    · exact onlyReads_pure _
    · exact onlyReads_throw _

/-- What is loaded from a file is what its content is decoded as. -/
theorem loads_loadFile_iff {a : α} : Loads (loadFile path openError decode readError) fs a
    ↔ ∃ content, fs.openFile path = .ok content ∧ decode content = .ok a := by
  constructor
  · intro h
    obtain ⟨opened, between, fs₁, hask, hdecode⟩ := yields_bind.mp (h [])
    obtain ⟨rfl, hopened⟩ := yields_ask.mp hask
    cases hopened
    cases hopen : fs.openFile path with
    | error cause =>
      simp [hopen] at hdecode
    | ok content =>
      rw [hopen] at hdecode
      cases hfound : decode content with
      | error cause =>
        simp [hfound] at hdecode
      | ok found =>
        simp only [hfound] at hdecode
        obtain ⟨rfl, -, -⟩ := yields_pure.mp hdecode
        exact ⟨content, rfl, hfound⟩
  · intro h log
    obtain ⟨content, hopen, hfound⟩ := h
    have hask : Yields (ask (FileSystem.files.openFile path)) log fs (.ok content) log fs := by
      rw [← hopen]
      rfl
    refine hask.bind ?_
    simp only [hfound]
    rfl

end LoadFile

theorem onlyReads_loadReport (path : Path) : OnlyReads (loadReport FileSystem.files path) :=
  loadReport_eq_loadFile path ▸ onlyReads_loadFile

theorem onlyReads_loadDatabase (path : Path) : OnlyReads (loadDatabase FileSystem.files path) :=
  loadDatabase_eq_loadFile path ▸ onlyReads_loadFile

theorem loads_loadConfig_iff {path : Path} {config : Config} :
    Loads (loadConfig FileSystem.files (some path)) fs config
      ↔ ∃ content, fs.openFile path = .ok content ∧ Config.ofFile path content = .ok config := by
  rw [loadConfig_eq_loadFile]
  exact loads_loadFile_iff

theorem loads_loadReport_iff {path : Path} {report : Report} :
    Loads (loadReport FileSystem.files path) fs report
      ↔ ∃ content, fs.openFile path = .ok content ∧ Report.ofFile content = .ok report := by
  rw [loadReport_eq_loadFile]
  exact loads_loadFile_iff

theorem loads_loadDatabase_iff {path : Path} {entries : List Entry} :
    Loads (loadDatabase FileSystem.files path) fs entries
      ↔ ∃ content, fs.openFile path = .ok content ∧ Database.read content = .ok entries := by
  rw [loadDatabase_eq_loadFile]
  exact loads_loadFile_iff

/-! ### The steps that do more -/

/-- What becomes of the entries that were found. -/
inductive Gathered (fs : FileSystem) (options : Options) (found : List Entry) :
    List Entry → Prop
  | alone (h : options.append = false ∨ fs.isPresent options.output = false) :
      Gathered fs options found found
  | merged {existing : List Entry} (happend : options.append = true)
      (hpresent : fs.isPresent options.output = true)
      (hexisting : Loads (loadDatabase FileSystem.files options.output) fs existing) :
      Gathered fs options found (Entry.merge existing found)

theorem Gathered.unique {options : Options} {found entries entries' : List Entry}
    (h : Gathered fs options found entries) (h' : Gathered fs options found entries') :
    entries = entries' := by
  cases h with
  | alone halone =>
    cases h' with
    | alone => rfl
    | merged happend hpresent => simp [happend, hpresent] at halone
  | merged happend hpresent hexisting =>
    cases h' with
    | alone halone => simp [happend, hpresent] at halone
    | merged _ _ hexisting' => rw [hexisting.unique hexisting']

theorem gathered_of_keepExisting {options : Options} {found entries : List Entry}
    (h : Yields (keepExisting FileSystem.files options found) log fs entries log' fs') :
    Gathered fs options found entries ∧ fs' = fs := by
  unfold keepExisting at h
  by_cases happend : options.append = true
  · simp only [happend, if_true] at h
    obtain ⟨present, between, fs₁, hask, hkeep⟩ := yields_bind.mp h
    obtain ⟨rfl, hpresent⟩ := yields_ask.mp hask
    cases hpresent
    cases hpresent : fs.isPresent options.output with
    | false =>
      rw [hpresent] at hkeep
      obtain ⟨rfl, -, rfl⟩ := yields_pure.mp hkeep
      exact ⟨.alone (.inr hpresent), rfl⟩
    | true =>
      simp only [hpresent, if_true] at hkeep
      obtain ⟨existing, between, fs₁, hload, hmerge⟩ := yields_bind.mp hkeep
      obtain ⟨hexisting, rfl, rfl⟩ := (onlyReads_loadDatabase _).loads hload
      obtain ⟨_, between, fs₁, htell, hmerged⟩ := yields_bind.mp hmerge
      obtain ⟨rfl, rfl⟩ := yields_tell.mp htell
      obtain ⟨rfl, -, rfl⟩ := yields_pure.mp hmerged
      exact ⟨.merged happend hpresent hexisting, rfl⟩
  · rw [Bool.not_eq_true] at happend
    rw [happend] at h
    obtain ⟨rfl, -, rfl⟩ := yields_pure.mp h
    exact ⟨.alone (.inl happend), rfl⟩

theorem yields_keepExisting {options : Options} {found entries : List Entry}
    (h : Gathered fs options found entries) :
    ∃ log', Yields (keepExisting FileSystem.files options found) log fs entries log' fs := by
  have hask : Yields (ask (FileSystem.files.isPresent options.output)) log fs
      (fs.isPresent options.output) log fs := rfl
  unfold keepExisting
  cases h with
  | alone h =>
    refine ⟨log, ?_⟩
    by_cases happend : options.append = true
    · have hpresent : fs.isPresent options.output = false := h.resolve_left (by simp [happend])
      rw [hpresent] at hask
      simp only [happend, if_true]
      exact hask.bind rfl
    · simp only [happend]
      rfl
  | @merged existing happend hpresent hexisting =>
    rw [hpresent] at hask
    simp only [happend, if_true]
    have htell : Yields (tell [.debug "Merging with existing entries"
        [("existing", existing.length)]]) log fs () _ fs := rfl
    exact ⟨_, hask.bind ((hexisting log).bind (htell.bind rfl))⟩

theorem filterAuxM_run {α σ : Type} {keep : α → StateM σ Bool} {p : α → Bool} {s : σ}
    (h : ∀ a, (keep a).run s = (p a, s)) (xs : List α) :
    ∀ kept : List α, (List.filterAuxM keep xs kept).run s
      = ((xs.filter p).reverse ++ kept, s) := by
  induction xs with
  | nil => intro kept; rfl
  | cons x xs ih =>
    intro kept
    rw [List.filterAuxM, StateT.run_bind, h x]
    show (List.filterAuxM keep xs (cond (p x) (x :: kept) kept)).run s = _
    rw [ih]
    cases hx : p x <;> simp [hx]

/-- Looking for sources changes nothing in memory. -/
theorem accepted_run (fs : FileSystem) (filter : SourceFilter) (entries : List Entry) :
    (accepted FileSystem.files filter entries).run fs
      = (entries.filter fun entry => filter.accepts (fs.isPresent entry.file) entry, fs) := by
  have hkeep : ∀ entry : Entry, StateT.run (m := Id) (do
      return filter.accepts (← FileSystem.files.isPresent entry.file) entry) fs
        = (filter.accepts (fs.isPresent entry.file) entry, fs) := fun _ => rfl
  rw [accepted, List.filterM, StateT.run_bind, filterAuxM_run hkeep]
  show ((((entries.filter _).reverse ++ []).reverse), fs) = _
  rw [List.append_nil, List.reverse_reverse]

theorem apply_run (change : FileSystem → Except FileError FileSystem) (fs : FileSystem) :
    (FileSystem.apply change).run fs = match change fs with
      | .ok changed => (.ok (), changed)
      | .error cause => (.error cause, fs) := rfl

/-- The file is created, and then holds the entries that the filter accepts. -/
theorem written_of_save {output : OutputOptions} {path : Path} {entries : List Entry} {n : Nat}
    (h : Yields (save FileSystem.files output path entries) log fs n log' fs') :
    ∃ created written, fs.create path = .ok created
      ∧ written = entries.filter (fun entry =>
          output.filter.accepts (created.isPresent entry.file) entry)
      ∧ created.write path (Database.render output.format written).toUTF8 = .ok fs'
      ∧ n = written.length := by
  obtain ⟨made, between, fs₁, hask, hsave⟩ := yields_bind.mp h
  obtain ⟨rfl, hmade⟩ := yields_ask.mp hask
  replace hmade := (apply_run _ fs).symm.trans hmade
  cases hcreate : fs.create path with
  | error cause =>
    rw [hcreate] at hmade
    cases hmade
    exact absurd hsave not_yields_throw
  | ok created =>
    rw [hcreate] at hmade
    obtain ⟨rfl, rfl⟩ := Prod.mk.inj hmade
    obtain ⟨written, between, fs₁, hask, hwrite⟩ := yields_bind.mp hsave
    obtain ⟨rfl, hwritten⟩ := yields_ask.mp hask
    obtain ⟨rfl, rfl⟩ :=
      Prod.mk.inj ((accepted_run created output.filter entries).symm.trans hwritten)
    refine ⟨created, _, rfl, rfl, ?_⟩
    obtain ⟨saved, between, fs₁, hask, hcount⟩ := yields_bind.mp hwrite
    obtain ⟨rfl, hsaved⟩ := yields_ask.mp hask
    replace hsaved := (apply_run _ created).symm.trans hsaved
    split at hsaved
    · rename_i changed hchanged
      obtain ⟨rfl, rfl⟩ := Prod.mk.inj hsaved
      obtain ⟨rfl, -, rfl⟩ := yields_pure.mp hcount
      exact ⟨hchanged, rfl⟩
    · rename_i cause hcause
      obtain ⟨rfl, rfl⟩ := Prod.mk.inj hsaved
      exact absurd hcount not_yields_throw

/-- What can be created can be written. -/
theorem yields_save {output : OutputOptions} {path : Path} {created : FileSystem}
    (hcreate : fs.create path = .ok created) (entries : List Entry) :
    ∃ fs', Yields (save FileSystem.files output path entries) log fs
      (entries.filter fun entry =>
        output.filter.accepts (created.isPresent entry.file) entry).length log fs' := by
  obtain ⟨changed, hchanged⟩ := FileSystem.exists_write_of_create hcreate
    (Database.render output.format (entries.filter fun entry =>
      output.filter.accepts (created.isPresent entry.file) entry)).toUTF8
  have hmade : Yields (ask (FileSystem.files.create path)) log fs (.ok ()) log created :=
    yields_ask.mpr ⟨rfl, (apply_run _ fs).trans (by rw [hcreate])⟩
  have haccepted : Yields (ask (accepted FileSystem.files output.filter entries)) log created _ log
      created := yields_ask.mpr ⟨rfl, accepted_run created output.filter entries⟩
  have hsaved : Yields (ask (FileSystem.files.write path _)) log created (.ok ()) log changed :=
    yields_ask.mpr ⟨rfl, (apply_run _ created).trans (by rw [hchanged])⟩
  exact ⟨changed, hmade.bind (haccepted.bind (hsaved.bind rfl))⟩

/-! ### The whole -/

/-- The steps of a conversion that succeeds. -/
theorem steps_of_run {options : Options} {configured : Option Path} {n : Nat}
    (h : Yields (run FileSystem.files options configured) log fs n log' fs') :
    ∃ loaded report entries,
      Loads (loadConfig FileSystem.files (options.config <|> configured)) fs loaded
      ∧ Loads (loadReport FileSystem.files options.input) fs report
      ∧ Gathered fs options
          ((Recognizer.ofSelection (loaded.withOptions options).selection).entries report) entries
      ∧ ∃ before after, Yields
          (save FileSystem.files (loaded.withOptions options).output options.output entries)
          before fs n after fs' := by
  obtain ⟨loaded, between, fs₁, hload, hconfigured⟩ := yields_bind.mp h
  obtain ⟨hloaded, rfl, rfl⟩ := (onlyReads_loadConfig _).loads hload
  obtain ⟨report, between, fs₁, hload, hreported⟩ := yields_bind.mp hconfigured
  obtain ⟨hreport, rfl, rfl⟩ := (onlyReads_loadReport _).loads hload
  obtain ⟨_, between, fs₁, htell, htold⟩ := yields_bind.mp hreported
  obtain ⟨rfl, rfl⟩ := yields_tell.mp htell
  obtain ⟨_, between, fs₁, htell, hcounted⟩ := yields_bind.mp htold
  obtain ⟨rfl, rfl⟩ := yields_tell.mp htell
  obtain ⟨entries, between, fs₁, hkeep, hkept⟩ := yields_bind.mp hcounted
  obtain ⟨hgathered, rfl⟩ := gathered_of_keepExisting hkeep
  obtain ⟨written, between', fs₂, hsave, hsaved⟩ := yields_bind.mp hkept
  obtain ⟨_, between'', fs₃, htell, hdone⟩ := yields_bind.mp hsaved
  obtain ⟨rfl, rfl⟩ := yields_tell.mp htell
  obtain ⟨rfl, -, rfl⟩ := yields_pure.mp hdone
  exact ⟨loaded, report, entries, hloaded, hreport, hgathered, _, _, hsave⟩

/-- A conversion succeeds when it can load what it needs and create its database. -/
theorem yields_run {options : Options} {configured : Option Path} {loaded : Config}
    {report : Report} {entries : List Entry} {created : FileSystem}
    (hloaded : Loads (loadConfig FileSystem.files (options.config <|> configured)) fs loaded)
    (hreport : Loads (loadReport FileSystem.files options.input) fs report)
    (hgathered : Gathered fs options
      ((Recognizer.ofSelection (loaded.withOptions options).selection).entries report) entries)
    (hcreate : fs.create options.output = .ok created) :
    ∃ log' fs', Yields (run FileSystem.files options configured) log fs
      (entries.filter fun entry => (loaded.withOptions options).output.filter.accepts
        (created.isPresent entry.file) entry).length log' fs' := by
  have htell : ∀ (log : List LogEvent) (fs : FileSystem) (events : List LogEvent),
      Yields (tell events) log fs () (log ++ events) fs := fun _ _ _ => rfl
  obtain ⟨kept, hkept⟩ := yields_keepExisting hgathered
  obtain ⟨saved, hsaved⟩ := yields_save hcreate entries
  exact ⟨_, saved, (hloaded log).bind ((hreport _).bind ((htell _ fs _).bind
    ((htell _ fs _).bind (hkept.bind (hsaved.bind ((htell _ saved _).bind rfl))))))⟩

end CompileCommands.Conversion
