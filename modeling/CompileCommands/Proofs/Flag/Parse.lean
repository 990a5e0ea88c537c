/-
Command lines put together from flags.

What an argument means at the head of a command line depends on that argument alone: its kind,
and whether it owns the argument after it.  A flag that has the value it needs is therefore
read alike in front of anything, and a command line that is put together from such flags is
cut into the same flags again.  Only the last flag of a command line can lack its value.
-/
import CompileCommands.Flag.Parse

namespace CompileCommands.Flag

/-! ### One argument -/

/-- Does the argument, spelled like this, own the next one? -/
def ownsNext (word : String) : Bool := (table.find? (·.name == word)).any (·.form.takesNext)

/-- What a flag does that starts with the argument. -/
def kindOf (word : String) : FlagKind := (classify [word]).2

/-- All flags of the table are spelled like flags. -/
theorem isSpelledAsFlag_of_mem_table : ∀ definition ∈ table,
    isSpelledAsFlag definition.name = true := by decide

/-- No flag of the table stands for a source. -/
theorem kind_ne_source_of_mem_table : ∀ definition ∈ table, definition.kind ≠ .source := by decide

theorem isSpelledAsFlag_of_ownsNext {word : String} (h : ownsNext word = true) :
    isSpelledAsFlag word = true := by
  obtain ⟨definition, hfind, -⟩ := (Option.any_eq_true _ _).mp h
  have hname : definition.name = word := by simpa using List.find?_some hfind
  rw [← hname]
  exact isSpelledAsFlag_of_mem_table definition (List.mem_of_find?_eq_some hfind)

theorem ownsNext_of_not_isSpelledAsFlag {word : String} (h : isSpelledAsFlag word = false) :
    ownsNext word = false := by
  rw [← Bool.not_eq_true] at h ⊢
  exact fun howns => h (isSpelledAsFlag_of_ownsNext howns)

/-- What does not start with a dash is not spelled like a flag. -/
theorem isSpelledAsFlag_of_head? {word : String} (h : word.toList.head? ≠ some '-') :
    isSpelledAsFlag word = false := by
  rw [isSpelledAsFlag]
  split
  · rename_i hword
    rw [hword] at h
    exact absurd rfl h
  · rfl

/-- What is not spelled like a flag is an input. -/
theorem kindOf_cases_of_not_isSpelledAsFlag {word : String} (h : isSpelledAsFlag word = false) :
    kindOf word = .source ∨ kindOf word = .linkerInput ∨ kindOf word = .other := by
  rw [kindOf, classify, if_neg (by simp [h])]
  cases SourceFile.role word <;> simp

/-- **Only the first argument counts**, but for the number of those that follow. -/
theorem classify_cons (word : String) (rest : List String) :
    classify (word :: rest)
      = (if ownsNext word then min 2 (rest.length + 1) else 1, kindOf word) := by
  by_cases hflag : isSpelledAsFlag word = true
  · rw [kindOf, classify, classify, if_pos hflag, if_pos hflag, lookup, lookup, ownsNext]
    cases hfind : table.find? (·.name == word) with
    | some definition => simp
    | none =>
      cases FlagDefinition.longest (table.filter (·.accepts word)) with
      | some best => simp
      | none => simp
  · have howns : ownsNext word = false :=
      ownsNext_of_not_isSpelledAsFlag (by simpa using hflag)
    rw [kindOf, classify, classify, if_neg hflag, if_neg hflag, howns]
    cases SourceFile.role word <;> rfl

theorem mem_of_longest {definitions : List FlagDefinition} {best : FlagDefinition}
    (h : FlagDefinition.longest definitions = some best) : best ∈ definitions := by
  induction definitions generalizing best with
  | nil => cases h
  | cons first rest ih =>
    rw [FlagDefinition.longest] at h
    cases hrest : FlagDefinition.longest rest with
    | none =>
      rw [hrest] at h
      cases h
      exact List.mem_cons_self
    | some other =>
      simp only [hrest] at h
      split at h
      · cases h
        exact List.mem_cons_self
      · cases h
        exact List.mem_cons_of_mem first (ih hrest)

theorem kind_ne_source_of_lookup {arguments : List String} {count : Nat} {kind : FlagKind}
    (h : lookup table arguments = some (count, kind)) : kind ≠ .source := by
  cases arguments with
  | nil => cases h
  | cons word rest =>
    rw [lookup] at h
    cases hfind : table.find? (·.name == word) with
    | some exact =>
      rw [hfind] at h
      cases h
      exact kind_ne_source_of_mem_table exact (List.mem_of_find?_eq_some hfind)
    | none =>
      rw [hfind] at h
      obtain ⟨best, hbest, hpair⟩ := Option.map_eq_some_iff.mp h
      cases hpair
      exact kind_ne_source_of_mem_table best (List.mem_filter.mp (mem_of_longest hbest)).1

/-- Sources are named like sources, and not spelled like flags. -/
theorem kindOf_eq_source_iff {word : String} :
    kindOf word = .source ↔ isSpelledAsFlag word = false ∧ SourceFile.isSource word = true := by
  rw [kindOf, classify]
  by_cases hflag : isSpelledAsFlag word = true
  · rw [if_pos hflag]
    constructor
    · intro hkind
      cases hlookup : lookup table [word] with
      | none =>
        rw [hlookup] at hkind
        cases hkind
      | some found =>
        rw [hlookup] at hkind
        exact absurd hkind (kind_ne_source_of_lookup hlookup)
    · intro h
      rw [hflag] at h
      cases h.1
  · rw [if_neg hflag, SourceFile.role]
    cases SourceFile.isSource word with
    | true => simp [hflag]
    | false => cases SourceFile.isLinkerInput word <;> simp

theorem ne_of_kindOf_eq_source {source name : String} (hsource : kindOf source = .source)
    (hname : isSpelledAsFlag name = true) : source ≠ name := by
  rintro rfl
  rw [(kindOf_eq_source_iff.mp hsource).1] at hname
  cases hname

/-! ### Cutting -/

@[simp]
theorem parse_alone {word : String} (h : ownsNext word = false) (rest : List String) :
    parse (word :: rest) = ⟨[word], kindOf word⟩ :: parse rest := by
  cases rest with
  | nil => rfl
  | cons next rest =>
    rw [parse, classify_cons, h]
    rfl

@[simp]
theorem parse_valued {word : String} (h : ownsNext word = true) (value : String)
    (rest : List String) :
    parse (word :: value :: rest) = ⟨[word, value], kindOf word⟩ :: parse rest := by
  rw [parse, classify_cons, h]
  simp

/-- A flag whose value should have followed stands for itself. -/
@[simp] theorem parse_lacking (word : String) : parse [word] = [⟨[word], kindOf word⟩] := rfl

/-- The ways to cut off the first flag. -/
@[elab_as_elim]
theorem parse_induction {motive : List String → Prop} (nil : motive [])
    (alone : ∀ word rest, ownsNext word = false → motive rest → motive (word :: rest))
    (valued : ∀ word value rest, ownsNext word = true → motive rest →
      motive (word :: value :: rest))
    (lacking : ∀ word, ownsNext word = true → motive [word]) (words : List String) :
    motive words := by
  match words with
  | [] => exact nil
  | word :: rest =>
    cases howns : ownsNext word with
    | false => exact alone word rest howns (parse_induction nil alone valued lacking rest)
    | true =>
      match rest with
      | [] => exact lacking word howns
      | value :: rest =>
        exact valued word value rest howns (parse_induction nil alone valued lacking rest)

/-- The first argument of a flag says what it does. -/
theorem kind_of_mem_parse {words : List String} {flag : Flag} (h : flag ∈ parse words) :
    flag.kind = kindOf flag.name := by
  induction words using parse_induction with
  | nil => cases h
  | alone word rest howns ih =>
    rw [parse_alone howns] at h
    rcases List.mem_cons.mp h with rfl | hrest
    · rfl
    · exact ih hrest
  | valued word value rest howns ih =>
    rw [parse_valued howns] at h
    rcases List.mem_cons.mp h with rfl | hrest
    · rfl
    · exact ih hrest
  | lacking word =>
    rw [parse_lacking, List.mem_singleton] at h
    rw [h]
    rfl

/-! ### Whole flags -/

/-- A flag that has its value, if it needs one. -/
inductive IsWhole : Flag → Prop
  | alone {word : String} (h : ownsNext word = false) : IsWhole ⟨[word], kindOf word⟩
  | valued {word : String} (h : ownsNext word = true) (value : String) :
      IsWhole ⟨[word, value], kindOf word⟩

/-- A flag whose value should have followed. -/
def lacksValue (flag : Flag) : Bool := flag.arguments.length == 1 && ownsNext flag.name

/-- No value is missing at the end of the command line. -/
def EndsWhole (words : List String) : Prop :=
  ∀ flag, (parse words).getLast? = some flag → flag.lacksValue = false

instance (words : List String) : Decidable (EndsWhole words) :=
  decidable_of_iff ((parse words).getLast?.all fun flag => !flag.lacksValue) (by
    unfold EndsWhole
    cases (parse words).getLast? <;> simp)

namespace IsWhole

variable {flag : Flag}

theorem kind_eq (h : flag.IsWhole) : flag.kind = kindOf flag.name := by
  cases h <;> rfl

/-- A whole flag is read alike in front of anything. -/
@[simp]
theorem parse_append (h : flag.IsWhole) (rest : List String) :
    parse (flag.arguments ++ rest) = flag :: parse rest := by
  cases h with
  | alone h => exact parse_alone h rest
  | valued h value => exact parse_valued h value rest

end IsWhole

/-- **Whole flags are cut out again** of the command line that they are put together to. -/
@[simp]
theorem parse_flatMap {flags : List Flag} (h : ∀ flag ∈ flags, flag.IsWhole)
    (rest : List String) : parse (flags.flatMap arguments ++ rest) = flags ++ parse rest := by
  induction flags with
  | nil => rfl
  | cons flag flags ih =>
    have hflags : ∀ other ∈ flags, other.IsWhole := fun other hother => h other (by simp [hother])
    rw [List.flatMap_cons, List.append_assoc, (h flag (by simp)).parse_append, ih hflags]
    rfl

theorem EndsWhole.of_cons {words rest : List String} {flag : Flag} (h : EndsWhole words)
    (hparse : parse words = flag :: parse rest) : EndsWhole rest := by
  intro last hlast
  refine h last ?_
  rw [hparse, List.getLast?_cons, hlast]
  rfl

/-- **Only the last flag can lack its value.** -/
theorem isWhole_of_mem_parse {words : List String} (h : EndsWhole words) :
    ∀ flag ∈ parse words, flag.IsWhole := by
  induction words using parse_induction with
  | nil =>
    intro flag hflag
    cases hflag
  | alone word rest howns ih =>
    have hparse := parse_alone howns rest
    intro flag hflag
    rw [hparse] at hflag
    rcases List.mem_cons.mp hflag with rfl | hrest
    · exact .alone howns
    · exact ih (h.of_cons hparse) flag hrest
  | valued word value rest howns ih =>
    have hparse := parse_valued howns value rest
    intro flag hflag
    rw [hparse] at hflag
    rcases List.mem_cons.mp hflag with rfl | hrest
    · exact .valued howns value
    · exact ih (h.of_cons hparse) flag hrest
  | lacking word howns =>
    have hlast : ownsNext word = false := h ⟨[word], kindOf word⟩ rfl
    rw [howns] at hlast
    cases hlast

end CompileCommands.Flag
