/-
Command lines put one behind the other.

A command line is a row of whole flags with at most one argument left over behind them: one that
should own a value when there is nothing more to own.  Whole flags are read alike in front of
anything, so cutting a command line depends neither on what it was put together from nor on what
follows, as long as nothing is left over.  An argument that is left over takes the first argument
of what follows for its value, and goes no further.
-/
import Mathlib.Data.List.Nodup
import CompileCommands.Proofs.Flag.Parse

namespace CompileCommands.Flag

/-! ### Missing values -/

/-- No two definitions of the table have one name. -/
theorem nodup_names : (table.map FlagDefinition.name).Nodup := by decide

/-- A definition is found by its name where no other one has it. -/
theorem find?_of_nodup {definitions : List FlagDefinition}
    (hnodup : (definitions.map FlagDefinition.name).Nodup) {definition : FlagDefinition}
    (h : definition ∈ definitions) :
    definitions.find? (·.name == definition.name) = some definition := by
  cases hfind : definitions.find? (·.name == definition.name) with
  | none => exact absurd (beq_self_eq_true _) (List.find?_eq_none.mp hfind definition h)
  | some found =>
    have hname : found.name = definition.name := by simpa using List.find?_some hfind
    rw [List.inj_on_of_nodup_map hnodup (List.mem_of_find?_eq_some hfind) h hname]

/-- The table finds every definition by its name. -/
theorem find?_name {definition : FlagDefinition} (h : definition ∈ table) :
    table.find? (·.name == definition.name) = some definition :=
  find?_of_nodup nodup_names h

theorem ownsNext_iff {word : String} : ownsNext word = true
    ↔ ∃ definition ∈ table, definition.form.takesNext = true ∧ definition.name = word := by
  constructor
  · intro h
    obtain ⟨definition, hfind, htakes⟩ := (Option.any_eq_true _ _).mp h
    have hname : definition.name = word := by simpa using List.find?_some hfind
    exact ⟨definition, List.mem_of_find?_eq_some hfind, htakes, hname⟩
  · intro h
    obtain ⟨definition, hmem, htakes, rfl⟩ := h
    rw [ownsNext, find?_name hmem]
    exact htakes

/-- A flag lacks its value if it is nothing but the name of a flag that takes one. -/
theorem lacksValue_iff {flag : Flag} : flag.lacksValue = true
    ↔ ∃ definition ∈ table, definition.form.takesNext = true
        ∧ flag.arguments = [definition.name] := by
  rw [lacksValue, Bool.and_eq_true, beq_iff_eq, ownsNext_iff]
  constructor
  · intro h
    obtain ⟨hlength, definition, hmem, htakes, hname⟩ := h
    obtain ⟨word, hword⟩ := List.length_eq_one_iff.mp hlength
    refine ⟨definition, hmem, htakes, ?_⟩
    rw [hname, name, hword]
    rfl
  · intro h
    obtain ⟨definition, hmem, htakes, harguments⟩ := h
    refine ⟨by rw [harguments]; rfl, definition, hmem, htakes, ?_⟩
    rw [name, harguments]
    rfl

@[simp]
theorem lacksValue_alone (word : String) (kind : FlagKind) :
    lacksValue ⟨[word], kind⟩ = ownsNext word := rfl

namespace IsWhole

variable {flag : Flag}

theorem lacksValue_eq_false (h : flag.IsWhole) : flag.lacksValue = false := by
  cases h with
  | alone h => simp [h]
  | valued h value => rfl

theorem length_arguments (h : flag.IsWhole) :
    flag.arguments.length = 1 ∨ flag.arguments.length = 2 := by
  cases h with
  | alone h => exact .inl rfl
  | valued h value => exact .inr rfl

end IsWhole

/-! ### Whole flags and what is left over -/

/-- What can be left over behind whole flags. -/
inductive Leftover : List String → Prop
  | nothing : Leftover []
  /-- There is nothing more for the argument to own. -/
  | lacking {word : String} (h : ownsNext word = true) : Leftover [word]

/-- **Every command line is whole flags and a leftover.** -/
theorem exists_whole (words : List String) :
    ∃ (flags : List Flag) (left : List String), (∀ flag ∈ flags, flag.IsWhole) ∧ Leftover left
      ∧ words = flags.flatMap arguments ++ left := by
  induction words using parse_induction with
  | nil => exact ⟨[], [], by simp, .nothing, rfl⟩
  | alone word rest howns ih =>
    obtain ⟨flags, left, hwhole, hleft, rfl⟩ := ih
    exact ⟨⟨[word], kindOf word⟩ :: flags, left, by simpa using ⟨.alone howns, hwhole⟩, hleft, rfl⟩
  | valued word value rest howns ih =>
    obtain ⟨flags, left, hwhole, hleft, rfl⟩ := ih
    exact ⟨⟨[word, value], kindOf word⟩ :: flags, left,
      by simpa using ⟨.valued howns value, hwhole⟩, hleft, rfl⟩
  | lacking word howns => exact ⟨[], [word], by simp, .lacking howns, rfl⟩

/-- Nothing is lost. -/
@[simp]
theorem flatMap_arguments_parse (words : List String) :
    (parse words).flatMap arguments = words := by
  obtain ⟨flags, left, hwhole, hleft, rfl⟩ := exists_whole words
  rw [parse_flatMap hwhole, List.flatMap_append]
  cases hleft with
  | nothing => rfl
  | lacking => rfl

theorem length_of_mem_parse {words : List String} {flag : Flag} (h : flag ∈ parse words) :
    flag.arguments.length = 1 ∨ flag.arguments.length = 2 := by
  obtain ⟨flags, left, hwhole, hleft, rfl⟩ := exists_whole words
  rw [parse_flatMap hwhole] at h
  rcases List.mem_append.mp h with hflag | hflag
  · exact (hwhole flag hflag).length_arguments
  · cases hleft with
    | nothing => cases hflag
    | lacking =>
      rw [parse_lacking, List.mem_singleton] at hflag
      rw [hflag]
      exact .inl rfl

/-- A flag that was cut out of some command line is whole unless it lacks its value. -/
theorem isWhole_of_lacksValue {words : List String} {flag : Flag} (h : flag ∈ parse words)
    (hvalue : flag.lacksValue = false) : flag.IsWhole := by
  obtain ⟨flags, left, hwhole, hleft, rfl⟩ := exists_whole words
  rw [parse_flatMap hwhole] at h
  rcases List.mem_append.mp h with hflag | hflag
  · exact hwhole flag hflag
  · cases hleft with
    | nothing => cases hflag
    | lacking howns =>
      rw [parse_lacking, List.mem_singleton] at hflag
      simp [hflag, howns] at hvalue

/-- In front of the last flag all flags have their values. -/
theorem lacksValue_of_mem_dropLast {words : List String} {flag : Flag}
    (h : flag ∈ (parse words).dropLast) : flag.lacksValue = false := by
  obtain ⟨flags, left, hwhole, hleft, rfl⟩ := exists_whole words
  rw [parse_flatMap hwhole] at h
  cases hleft with
  | nothing =>
    rw [parse, List.append_nil] at h
    exact (hwhole flag ((List.dropLast_sublist flags).subset h)).lacksValue_eq_false
  | lacking =>
    rw [parse_lacking, List.dropLast_concat] at h
    exact (hwhole flag h).lacksValue_eq_false

/-! ### Behind a command line -/

/-- Behind a command line that lacks nothing cutting starts anew. -/
theorem parse_append {front : List String} (h : EndsWhole front) (back : List String) :
    parse (front ++ back) = parse front ++ parse back := by
  have hfront := parse_flatMap (isWhole_of_mem_parse h) back
  simpa using hfront

/-- An argument that lacks its value takes what follows for it. -/
theorem parse_append_of_lacking {front : List String} (h : ¬ EndsWhole front) :
    ∃ flags word, parse front = flags ++ [⟨[word], kindOf word⟩] ∧ ownsNext word = true
      ∧ ∀ value back, parse (front ++ value :: back)
        = flags ++ ⟨[word, value], kindOf word⟩ :: parse back := by
  obtain ⟨flags, left, hwhole, hleft, rfl⟩ := exists_whole front
  cases hleft with
  | nothing =>
    refine absurd (fun flag hflag => ?_) h
    rw [parse_flatMap hwhole, parse, List.append_nil] at hflag
    exact (hwhole flag (List.mem_of_getLast? hflag)).lacksValue_eq_false
  | @lacking word howns =>
    refine ⟨flags, word, by rw [parse_flatMap hwhole, parse_lacking], howns, ?_⟩
    intro value back
    rw [List.append_assoc, parse_flatMap hwhole]
    exact congrArg (flags ++ ·) (parse_valued howns value back)

/-- **Cutting loses nothing and does not look around.**  The flags of a command line are its
arguments again, one or two in each, and only the last of them can lack its value.  Flags that
were cut out anywhere and have their values are cut out again of any command line that they are put
together to. -/
theorem parse_inverts_concatenation :
    (∀ words, (parse words).flatMap arguments = words
      ∧ (∀ flag ∈ parse words, flag.arguments.length = 1 ∨ flag.arguments.length = 2)
      ∧ ∀ flag ∈ (parse words).dropLast, ∀ definition ∈ table,
          definition.form.takesNext = true → flag.arguments ≠ [definition.name])
    ∧ (∀ flags : List Flag,
        (∀ flag ∈ flags, flag.lacksValue = false ∧ ∃ words, flag ∈ parse words) →
          parse (flags.flatMap arguments) = flags)
    ∧ ∀ front back, EndsWhole front → parse (front ++ back) = parse front ++ parse back := by
  refine ⟨fun words => ⟨flatMap_arguments_parse words, fun _ => length_of_mem_parse, ?_⟩, ?_,
    fun front back hfront => parse_append hfront back⟩
  · intro flag hflag definition hmem htakes harguments
    have hlacks : flag.lacksValue = true :=
      lacksValue_iff.mpr ⟨definition, hmem, htakes, harguments⟩
    rw [lacksValue_of_mem_dropLast hflag] at hlacks
    cases hlacks
  · intro flags hflags
    have hwhole : ∀ flag ∈ flags, flag.IsWhole := by
      intro flag hflag
      obtain ⟨hvalue, words, hwords⟩ := hflags flag hflag
      exact isWhole_of_lacksValue hwords hvalue
    have hparse := parse_flatMap hwhole []
    rwa [parse, List.append_nil, List.append_nil] at hparse

/-- Flags of different command lines, with values that look like flags and sources. -/
def strayFlags : List Flag :=
  [⟨["-MF", "-c"], .dependencyRules⟩, ⟨["-Wall"], .other⟩, ⟨["-o", "-I"], .outputFile⟩,
    ⟨["a.c"], .source⟩, ⟨["-MF", "-c"], .dependencyRules⟩]

theorem parse_inverts_concatenation_stray :
    (∀ flag ∈ strayFlags, flag.lacksValue = false ∧ ∃ words, flag ∈ parse words)
      ∧ parse (strayFlags.flatMap arguments) = strayFlags
      ∧ EndsWhole ["-o", "-I"]
      ∧ parse (["-o", "-I"] ++ ["inc", "a.c"]) = parse ["-o", "-I"] ++ parse ["inc", "a.c"] := by
  have hflags : ∀ flag ∈ strayFlags, flag.lacksValue = false ∧ ∃ words, flag ∈ parse words := by
    have hvalues : ∀ flag ∈ strayFlags, flag.lacksValue = false ∧ flag ∈ parse flag.arguments := by
      decide
    exact fun flag hflag => ⟨(hvalues flag hflag).1, flag.arguments, (hvalues flag hflag).2⟩
  have hends : EndsWhole ["-o", "-I"] := by decide
  exact ⟨hflags, parse_inverts_concatenation.2.1 strayFlags hflags, hends,
    parse_inverts_concatenation.2.2 _ _ hends⟩

end CompileCommands.Flag
