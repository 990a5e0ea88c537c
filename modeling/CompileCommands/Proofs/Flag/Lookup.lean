/-
Which definition decides.

A table is searched twice, for the first definition that is spelled like the argument and, when
there is none, for the last of the longest definitions that accept it.  Neither "first" nor "last"
counts for anything as long as no two definitions have one name: then at most one is spelled like
the argument, and of those that accept it no two are equally long, since their names all start the
argument.  So what a table says depends on the definitions in it and not on their order.

`Decides` says the same without a search.  It only asks which definitions there are.
-/
import CompileCommands.Proofs.Flag.Concatenation
import CompileCommands.Proofs.Flag.Places

namespace CompileCommands

namespace FlagDefinition

/-! ### Values that are attached -/

/-- The argument is the flag with a value attached, in the form that the flag has. -/
inductive Attached : FlagDefinition → String → Prop
  /-- A value that is glued to the name is not empty. -/
  | glued {name : String} {kind : FlagKind} {value : String} (h : value ≠ "") :
      Attached ⟨name, .glued, kind⟩ (name ++ value)
  | equals {name : String} {kind : FlagKind} (value : String) :
      Attached ⟨name, .equals, kind⟩ (name ++ "=" ++ value)
  | leading {name : String} {kind : FlagKind} (rest : String) :
      Attached ⟨name, .leading, kind⟩ (name ++ rest)

/-- What starts like a name is the name with something behind it. -/
theorem exists_append_of_prefix {name word : String} (h : name.toList <+: word.toList) :
    ∃ rest, word = name ++ rest := by
  obtain ⟨rest, hrest⟩ := h
  refine ⟨String.ofList rest, String.toList_inj.mp ?_⟩
  rw [String.toList_append, String.toList_ofList, hrest]

theorem accepts_iff_attached {definition : FlagDefinition} {word : String} :
    definition.accepts word = true ↔ definition.Attached word := by
  obtain ⟨name, form, kind⟩ := definition
  constructor
  · intro h
    cases form with
    | none | separate => cases h
    | glued =>
      obtain ⟨hstart, hlonger⟩ := Bool.and_eq_true_iff.mp h
      obtain ⟨value, rfl⟩ := exists_append_of_prefix (List.isPrefixOf_iff_prefix.mp hstart)
      refine .glued ?_
      rintro rfl
      simp at hlonger
    | equals =>
      have hstart : (name ++ "=").toList <+: word.toList := by
        rw [String.toList_append]
        exact List.isPrefixOf_iff_prefix.mp h
      obtain ⟨value, rfl⟩ := exists_append_of_prefix hstart
      exact .equals value
    | leading =>
      obtain ⟨rest, rfl⟩ := exists_append_of_prefix (List.isPrefixOf_iff_prefix.mp h)
      exact .leading rest
  · intro h
    cases h with
    | @glued _ _ value hvalue =>
      have hlonger : 0 < value.toList.length := by
        rw [List.length_pos_iff]
        exact fun hnil => hvalue (String.toList_eq_nil_iff.mp hnil)
      simp [accepts, hlonger]
    | equals value => simp [accepts, List.isPrefixOf_iff_prefix]
    | leading rest => simp [accepts, List.isPrefixOf_iff_prefix]

/-- **No two definitions tie.**  Both names start the argument, so equally long ones are the
same. -/
theorem eq_of_attached {definitions : List FlagDefinition}
    (hnodup : (definitions.map name).Nodup) {a b : FlagDefinition} (ha : a ∈ definitions)
    (hb : b ∈ definitions) {word : String} (haword : a.Attached word) (hbword : b.Attached word)
    (hlength : a.name.length = b.name.length) : a = b := by
  have hastart := Flag.prefix_of_accepts (accepts_iff_attached.mpr haword)
  have hbstart := Flag.prefix_of_accepts (accepts_iff_attached.mpr hbword)
  have hnames : a.name.toList.length = b.name.toList.length := by
    rw [String.length_toList, String.length_toList, hlength]
  have hname : a.name.toList = b.name.toList :=
    (List.prefix_of_prefix_length_le hastart hbstart (Nat.le_of_eq hnames)).eq_of_length hnames
  exact List.inj_on_of_nodup_map hnodup ha hb (String.toList_inj.mp hname)

/-! ### The longest definition -/

theorem length_le_of_longest {definitions : List FlagDefinition} {best : FlagDefinition}
    (h : longest definitions = some best) :
    ∀ definition ∈ definitions, definition.name.length ≤ best.name.length := by
  induction definitions generalizing best with
  | nil => exact fun _ hmem => nomatch hmem
  | cons first rest ih =>
    intro definition hmem
    rw [longest] at h
    cases hrest : longest rest with
    | none =>
      rw [hrest] at h
      cases h
      rcases List.mem_cons.mp hmem with rfl | hmem
      · exact Nat.le_refl _
      · obtain ⟨other, hother⟩ := Flag.exists_longest hmem
        rw [hrest] at hother
        cases hother
    | some other =>
      simp only [hrest] at h
      have hothers : definition ∈ rest → definition.name.length ≤ other.name.length :=
        ih hrest definition
      split at h
      · rename_i hshorter
        cases h
        rcases List.mem_cons.mp hmem with rfl | hmem
        · exact Nat.le_refl _
        · exact Nat.le_trans (hothers hmem) (Nat.le_of_lt hshorter)
      · rename_i hlonger
        cases h
        rcases List.mem_cons.mp hmem with rfl | hmem
        · exact Nat.le_of_not_lt hlonger
        · exact hothers hmem

end FlagDefinition

namespace Flag

/-! ### Decisions -/

/-- A definition decides how many of the arguments belong to the flag at the head, and its kind. -/
inductive Decides (definitions : List FlagDefinition) : List String → Nat × FlagKind → Prop
  /-- A flag that is spelled out owns the next argument. -/
  | valued {definition : FlagDefinition} (hmem : definition ∈ definitions)
      (hform : definition.form = .separate ∨ definition.form = .glued) (value : String)
      (rest : List String) :
      Decides definitions (definition.name :: value :: rest) (2, definition.kind)
  /-- There is nothing more to own. -/
  | lacking {definition : FlagDefinition} (hmem : definition ∈ definitions)
      (hform : definition.form = .separate ∨ definition.form = .glued) :
      Decides definitions [definition.name] (1, definition.kind)
  /-- A flag that is spelled out and owns nothing. -/
  | alone {definition : FlagDefinition} (hmem : definition ∈ definitions)
      (hform : definition.form ≠ .separate ∧ definition.form ≠ .glued) (rest : List String) :
      Decides definitions (definition.name :: rest) (1, definition.kind)
  /-- A flag with its value attached.  No definition is spelled like it, and of those that it could
  be this one is the longest. -/
  | attached {definition : FlagDefinition} {word : String} (hmem : definition ∈ definitions)
      (hnone : ∀ other ∈ definitions, other.name ≠ word) (hword : definition.Attached word)
      (hlongest : ∀ other ∈ definitions, other.Attached word → other ≠ definition →
        other.name.length < definition.name.length) (rest : List String) :
      Decides definitions (word :: rest) (1, definition.kind)

variable {definitions : List FlagDefinition}

/-- Only the definitions count. -/
theorem Decides.of_subset_of_subset {reordered : List FlagDefinition} (h : definitions ⊆ reordered)
    (hback : reordered ⊆ definitions) {arguments : List String} {found : Nat × FlagKind}
    (hfound : Decides definitions arguments found) : Decides reordered arguments found := by
  cases hfound with
  | valued hmem hform value rest => exact .valued (h hmem) hform value rest
  | lacking hmem hform => exact .lacking (h hmem) hform
  | alone hmem hform rest => exact .alone (h hmem) hform rest
  | attached hmem hnone hword hlongest rest =>
    exact .attached (h hmem) (fun other hother => hnone other (hback hother)) hword
      (fun other hother => hlongest other (hback hother)) rest

theorem takesNext_iff {form : ValueForm} :
    form.takesNext = true ↔ form = .separate ∨ form = .glued := by
  cases form <;> simp [ValueForm.takesNext]

/-- A definition that is spelled like the argument. -/
theorem lookup_name (hnodup : (definitions.map FlagDefinition.name).Nodup)
    {definition : FlagDefinition} (hmem : definition ∈ definitions) (rest : List String) :
    lookup definitions (definition.name :: rest)
      = some (if definition.form.takesNext then min 2 (rest.length + 1) else 1,
          definition.kind) := by
  rw [lookup, find?_of_nodup hnodup hmem]

/-- The longest of the definitions that accept the argument. -/
theorem lookup_attached {word : String} (hnone : ∀ other ∈ definitions, other.name ≠ word)
    (rest : List String) :
    lookup definitions (word :: rest)
      = (FlagDefinition.longest (definitions.filter (·.accepts word))).map
          fun best => (1, best.kind) := by
  have hfind : definitions.find? (·.name == word) = none :=
    List.find?_eq_none.mpr fun other hother => by simpa using hnone other hother
  rw [lookup, hfind]

theorem decides_of_lookup (hnodup : (definitions.map FlagDefinition.name).Nodup)
    {arguments : List String} {found : Nat × FlagKind}
    (h : lookup definitions arguments = some found) : Decides definitions arguments found := by
  cases arguments with
  | nil => cases h
  | cons word rest =>
    by_cases hnamed : ∃ definition ∈ definitions, definition.name = word
    · obtain ⟨definition, hmem, rfl⟩ := hnamed
      rw [lookup_name hnodup hmem] at h
      cases h
      by_cases htakes : definition.form.takesNext = true
      · rw [if_pos htakes]
        cases rest with
        | nil => exact .lacking hmem (takesNext_iff.mp htakes)
        | cons value rest =>
          rw [List.length_cons, Nat.min_eq_left (by omega)]
          exact .valued hmem (takesNext_iff.mp htakes) value rest
      · rw [if_neg htakes]
        exact .alone hmem (not_or.mp fun hform => htakes (takesNext_iff.mpr hform)) rest
    · have hnone : ∀ other ∈ definitions, other.name ≠ word := by simpa using hnamed
      rw [lookup_attached hnone] at h
      obtain ⟨best, hbest, rfl⟩ := Option.map_eq_some_iff.mp h
      obtain ⟨hmem, haccepts⟩ := List.mem_filter.mp (mem_of_longest hbest)
      have hword := FlagDefinition.accepts_iff_attached.mp haccepts
      refine .attached hmem hnone hword (fun other hother hattached hne => ?_) rest
      have hle := FlagDefinition.length_le_of_longest hbest other
        (List.mem_filter.mpr ⟨hother, FlagDefinition.accepts_iff_attached.mpr hattached⟩)
      refine Nat.lt_of_le_of_ne hle fun hlength => hne ?_
      exact FlagDefinition.eq_of_attached hnodup hother hmem hattached hword hlength

theorem lookup_of_decides (hnodup : (definitions.map FlagDefinition.name).Nodup)
    {arguments : List String} {found : Nat × FlagKind} (h : Decides definitions arguments found) :
    lookup definitions arguments = some found := by
  cases h with
  | valued hmem hform value rest =>
    rw [lookup_name hnodup hmem, if_pos (takesNext_iff.mpr hform), List.length_cons,
      Nat.min_eq_left (by omega)]
  | lacking hmem hform =>
    rw [lookup_name hnodup hmem, if_pos (takesNext_iff.mpr hform)]
    rfl
  | alone hmem hform rest =>
    rw [lookup_name hnodup hmem, if_neg fun htakes => ?_]
    exact (takesNext_iff.mp htakes).elim hform.1 hform.2
  | @attached definition word hmem hnone hword hlongest rest =>
    have haccepts : definition ∈ definitions.filter (·.accepts word) :=
      List.mem_filter.mpr ⟨hmem, FlagDefinition.accepts_iff_attached.mpr hword⟩
    obtain ⟨best, hbest⟩ := exists_longest haccepts
    obtain ⟨hbestMem, hbestAccepts⟩ := List.mem_filter.mp (mem_of_longest hbest)
    have hle := FlagDefinition.length_le_of_longest hbest definition haccepts
    have hsame : best = definition := by
      by_contra hne
      have hlt := hlongest best hbestMem
        (FlagDefinition.accepts_iff_attached.mp hbestAccepts) hne
      exact absurd hle (Nat.not_le.mpr hlt)
    rw [lookup_attached hnone, hbest, hsame]
    rfl

/-- **What a table says is what one of its definitions decides.** -/
theorem lookup_eq_some_iff (hnodup : (definitions.map FlagDefinition.name).Nodup)
    {arguments : List String} {found : Nat × FlagKind} :
    lookup definitions arguments = some found ↔ Decides definitions arguments found :=
  ⟨decides_of_lookup hnodup, lookup_of_decides hnodup⟩

/-- A table says nothing about what no definition is spelled like or accepts. -/
theorem lookup_eq_none_iff (hnodup : (definitions.map FlagDefinition.name).Nodup) {word : String}
    {rest : List String} : lookup definitions (word :: rest) = none
      ↔ ∀ definition ∈ definitions, definition.name ≠ word ∧ ¬ definition.Attached word := by
  constructor
  · intro h
    have hnone : ∀ definition ∈ definitions, definition.name ≠ word := by
      rintro definition hmem rfl
      rw [lookup_name hnodup hmem] at h
      cases h
    refine fun definition hmem => ⟨hnone definition hmem, fun hword => ?_⟩
    have haccepts : definition ∈ definitions.filter (·.accepts word) :=
      List.mem_filter.mpr ⟨hmem, FlagDefinition.accepts_iff_attached.mpr hword⟩
    obtain ⟨best, hbest⟩ := exists_longest haccepts
    rw [lookup_attached hnone, hbest] at h
    cases h
  · intro h
    have haccepts : definitions.filter (·.accepts word) = [] :=
      List.filter_eq_nil_iff.mpr fun definition hmem haccepted =>
        (h definition hmem).2 (FlagDefinition.accepts_iff_attached.mp haccepted)
    rw [lookup_attached fun definition hmem => (h definition hmem).1, haccepts]
    rfl

/-! ### The table -/

/-- **The order of the table does not matter.**  What it says in any order is what one definition
decides: the one that is spelled like the argument, or else the longest one that it could be with a
value attached.  No two definitions tie, and where there is none the table says nothing. -/
theorem lookup_in_any_order {definitions : List FlagDefinition} (h : definitions.Perm table) :
    (∀ arguments, lookup definitions arguments = lookup table arguments)
    ∧ (∀ arguments found, lookup definitions arguments = some found ↔ Decides table arguments found)
    ∧ (∀ word rest, lookup definitions (word :: rest) = none
        ↔ ∀ definition ∈ table, definition.name ≠ word ∧ ¬ definition.Attached word)
    ∧ ∀ word, ∀ a ∈ table, ∀ b ∈ table, a.Attached word → b.Attached word →
        a.name.length = b.name.length → a = b := by
  have hnodup : (definitions.map FlagDefinition.name).Nodup :=
    (h.map FlagDefinition.name).nodup_iff.mpr nodup_names
  have hdecides : ∀ arguments found,
      lookup definitions arguments = some found ↔ Decides table arguments found := by
    intro arguments found
    rw [lookup_eq_some_iff hnodup]
    exact ⟨.of_subset_of_subset h.subset h.symm.subset, .of_subset_of_subset h.symm.subset h.subset⟩
  have hsame : ∀ arguments, lookup definitions arguments = lookup table arguments := by
    intro arguments
    refine Option.ext fun found => ?_
    rw [hdecides, lookup_eq_some_iff nodup_names]
  refine ⟨hsame, hdecides, fun word rest => ?_, ?_⟩
  · rw [hsame, lookup_eq_none_iff nodup_names]
  · exact fun word a ha b hb haword hbword hlength =>
      FlagDefinition.eq_of_attached nodup_names ha hb haword hbword hlength

/-- The table from behind.  `-undef` could also be `-u` with the value `ndef`, and `-undefined` is;
what `-MF` owns may be spelled like a flag, and `-MDx` is none. -/
theorem lookup_in_any_order_reversed :
    table.reverse.Perm table
      ∧ lookup table.reverse ["-undef", "a.c"] = some (1, .preprocessor)
      ∧ lookup table.reverse ["-undefined", "a.c"] = some (1, .linker)
      ∧ lookup table.reverse ["-MF", "-c"] = some (2, .dependencyRules)
      ∧ lookup table.reverse ["-MF"] = some (1, .dependencyRules)
      ∧ lookup table.reverse ["-MDx"] = none := by
  have hreverse : table.reverse.Perm table := List.reverse_perm table
  have hsame := (lookup_in_any_order hreverse).1
  refine ⟨hreverse, ?_, ?_, ?_, ?_, ?_⟩
  all_goals
    rw [hsame]
    decide

end Flag

end CompileCommands
