/-
Command lines read by their places.

Cutting a command line goes from left to right and forgets where it is.  Which arguments start a
flag can also be said of each place by itself: all those that are not the value of the argument in
front of them, and this in turn depends on whether that one is a value.  The flags of a command
line are those of the arguments that are no values, in their order, so whatever is asked of the
flags is a question about these arguments.
-/
import CompileCommands.Proofs.Flag.Parse
import Mathlib.Data.List.Basic

namespace CompileCommands.Flag

/-! ### Values -/

/-- Is the argument at this place the value of the one in front of it? -/
def isValue (words : List String) : Nat → Bool
  | 0 => false
  | place + 1 => !isValue words place && words[place]?.any ownsNext

/-- The arguments that are no values, with their places. -/
def heads (words : List String) : List (String × Nat) :=
  words.zipIdx.filter fun head => !isValue words head.2

/-- The arguments that are no values. -/
def standing (words : List String) : List String := (heads words).map Prod.fst

/-- The flag that starts with the argument at a place. -/
def flagAt (words : List String) (head : String × Nat) : Flag :=
  ⟨head.1 :: if ownsNext head.1 then words[head.2 + 1]?.toList else [], kindOf head.1⟩

/-- Behind an argument that owns nothing the command line starts anew. -/
theorem isValue_cons {word : String} (h : ownsNext word = false) (rest : List String)
    (place : Nat) : isValue (word :: rest) (place + 1) = isValue rest place := by
  induction place with
  | zero => simp [isValue, h]
  | succ place ih => rw [isValue, ih, isValue, List.getElem?_cons_succ]

/-- Behind a value the command line starts anew. -/
theorem isValue_cons_cons {word : String} (h : ownsNext word = true) (value : String)
    (rest : List String) (place : Nat) :
    isValue (word :: value :: rest) (place + 2) = isValue rest place := by
  induction place with
  | zero => simp [isValue, h]
  | succ place ih =>
    rw [isValue, ih, isValue, List.getElem?_cons_succ, List.getElem?_cons_succ]

/-- An argument so many places further back. -/
def shift (n : Nat) (head : String × Nat) : String × Nat := (head.1, head.2 + n)

theorem zipIdx_eq_map_shift (words : List String) (n : Nat) :
    words.zipIdx n = words.zipIdx.map (shift n) := by
  rw [List.zipIdx_eq_map_add]
  exact List.map_congr_left fun head _ => by rw [shift, Nat.add_comm]

theorem heads_cons {word : String} (h : ownsNext word = false) (rest : List String) :
    heads (word :: rest) = (word, 0) :: (heads rest).map (shift 1) := by
  rw [heads, List.zipIdx_cons, List.filter_cons_of_pos (by simp [isValue]), Nat.zero_add,
    zipIdx_eq_map_shift, List.filter_map, heads]
  simp only [Function.comp_def, shift, isValue_cons h]

theorem heads_cons_cons {word : String} (h : ownsNext word = true) (value : String)
    (rest : List String) :
    heads (word :: value :: rest) = (word, 0) :: (heads rest).map (shift 2) := by
  rw [heads, List.zipIdx_cons, List.filter_cons_of_pos (by simp [isValue]), Nat.zero_add,
    List.zipIdx_cons, List.filter_cons_of_neg (by simp [isValue, h]), zipIdx_eq_map_shift,
    List.filter_map, heads]
  simp only [Function.comp_def, shift, isValue_cons_cons h]

/-- **The flags of a command line are those of the arguments that are no values.** -/
theorem parse_eq_map_heads (words : List String) :
    parse words = (heads words).map (flagAt words) := by
  induction words using parse_induction with
  | nil => rfl
  | alone word rest howns ih =>
    have hword : flagAt (word :: rest) (word, 0) = ⟨[word], kindOf word⟩ := by
      rw [flagAt, howns]
      rfl
    rw [parse_alone howns, heads_cons howns, List.map_cons, List.map_map, ih, hword]
    rfl
  | valued word value rest howns ih =>
    have hword : flagAt (word :: value :: rest) (word, 0) = ⟨[word, value], kindOf word⟩ := by
      rw [flagAt, howns]
      rfl
    rw [parse_valued howns, heads_cons_cons howns, List.map_cons, List.map_map, ih, hword]
    rfl
  | lacking word howns =>
    rw [parse_lacking, heads, List.zipIdx_singleton, List.filter_cons_of_pos rfl, List.map_cons,
      flagAt, howns]
    rfl

theorem map_name_parse (words : List String) : (parse words).map name = standing words := by
  rw [parse_eq_map_heads, List.map_map, standing]
  rfl

/-- What `-o` owns is no flag. -/
example : standing ["-o", "-c", "a.c"] = ["-o", "a.c"] := by decide

/-! ### The definition of a flag -/

theorem exists_longest {definitions : List FlagDefinition} {definition : FlagDefinition}
    (h : definition ∈ definitions) : ∃ best, FlagDefinition.longest definitions = some best := by
  cases definitions with
  | nil => cases h
  | cons first rest =>
    rw [FlagDefinition.longest]
    cases FlagDefinition.longest rest with
    | none => exact ⟨first, rfl⟩
    | some best =>
      dsimp only
      split
      · exact ⟨first, rfl⟩
      · exact ⟨best, rfl⟩

/-- A flag with its value attached starts with its name. -/
theorem prefix_of_accepts {definition : FlagDefinition} {word : String}
    (h : definition.accepts word = true) : definition.name.toList <+: word.toList := by
  unfold FlagDefinition.accepts at h
  cases hform : definition.form with
  | none | separate => simp [hform] at h
  | glued =>
    rw [hform] at h
    exact List.isPrefixOf_iff_prefix.mp (Bool.and_eq_true_iff.mp h).1
  | equals =>
    rw [hform] at h
    exact (List.prefix_append _ _).trans (List.isPrefixOf_iff_prefix.mp h)
  | leading =>
    rw [hform] at h
    exact List.isPrefixOf_iff_prefix.mp h

/-- **A flag has the kind of a definition whose name it starts with**, unless no definition is
spelled like it or accepts it. -/
theorem kindOf_cases {word : String} (h : isSpelledAsFlag word = true) :
    (∃ definition ∈ table, definition.name.toList <+: word.toList
        ∧ kindOf word = definition.kind)
      ∨ kindOf word = .other
        ∧ ∀ definition ∈ table, definition.name ≠ word ∧ definition.accepts word = false := by
  rw [kindOf, classify, if_pos h, lookup]
  cases hexact : table.find? (·.name == word) with
  | some exact =>
    have hname : exact.name = word := by simpa using List.find?_some hexact
    exact .inl ⟨exact, List.mem_of_find?_eq_some hexact, hname ▸ List.prefix_rfl, rfl⟩
  | none =>
    cases hlongest : FlagDefinition.longest (table.filter (·.accepts word)) with
    | some best =>
      obtain ⟨hmem, haccepts⟩ := List.mem_filter.mp (mem_of_longest hlongest)
      exact .inl ⟨best, hmem, prefix_of_accepts haccepts, rfl⟩
    | none =>
      refine .inr ⟨rfl, fun definition hmem => ?_⟩
      refine ⟨by simpa using List.find?_eq_none.mp hexact definition hmem, ?_⟩
      rw [← Bool.not_eq_true]
      intro haccepts
      have hfiltered : definition ∈ table.filter (·.accepts word) :=
        List.mem_filter.mpr ⟨hmem, haccepts⟩
      obtain ⟨best, hbest⟩ := exists_longest hfiltered
      rw [hlongest] at hbest
      cases hbest

/-! ### Outputs -/

/-- In the table nothing but `-o` starts with `-o`, and nothing else names the output. -/
theorem output_of_mem_table : ∀ definition ∈ table,
    ("-o".toList <+: definition.name.toList ↔ definition.name = "-o")
      ∧ (definition.kind = .outputFile ↔ definition.name = "-o")
      ∧ 2 ≤ definition.name.toList.length := by decide

/-- A longer argument than `-o` that starts like it has the output glued to it. -/
theorem length_lt_of_glued {word : String} (h : "-o".toList <+: word.toList) (hne : word ≠ "-o") :
    "-o".toList.length < word.toList.length := by
  refine Nat.lt_of_le_of_ne h.length_le fun hlength => hne ?_
  exact (String.toList_inj.mp (h.eq_of_length hlength)).symm

theorem starts_of_kindOf_eq_outputFile {word : String} (h : kindOf word = .outputFile) :
    "-o".toList <+: word.toList := by
  have hspelled : isSpelledAsFlag word = true := by
    rw [← Bool.not_eq_false]
    intro hnot
    rcases kindOf_cases_of_not_isSpelledAsFlag hnot with hkind | hkind | hkind <;>
      rw [hkind] at h <;> cases h
  rcases kindOf_cases hspelled with ⟨definition, hmem, hname, hkind⟩ | ⟨hother, -⟩
  · rw [hkind, (output_of_mem_table definition hmem).2.1] at h
    rwa [h] at hname
  · rw [hother] at h
    cases h

theorem kindOf_eq_outputFile_of_starts {word : String} (h : "-o".toList <+: word.toList) :
    kindOf word = .outputFile := by
  have hspelled : isSpelledAsFlag word = true := by
    obtain ⟨rest, hrest⟩ := h
    rw [isSpelledAsFlag, ← hrest]
    rfl
  rcases kindOf_cases hspelled with ⟨definition, hmem, hname, hsame⟩ | ⟨-, hnone⟩
  · obtain ⟨hstart, hkind, hlength⟩ := output_of_mem_table definition hmem
    rw [hsame, hkind, ← hstart]
    -- both names start the argument, and `-o` is not the longer one
    rcases List.prefix_or_prefix_of_prefix hname h with hshort | hlong
    · exact hshort.eq_of_length_le hlength ▸ List.prefix_rfl
    · exact hlong
  · obtain ⟨hne, haccepts⟩ := hnone ⟨"-o", .glued, .outputFile⟩ (by decide)
    have hglued : FlagDefinition.accepts ⟨"-o", .glued, .outputFile⟩ word = true :=
      Bool.and_eq_true_iff.mpr ⟨List.isPrefixOf_iff_prefix.mpr h,
        decide_eq_true (length_lt_of_glued h hne.symm)⟩
    rw [haccepts] at hglued
    cases hglued

/-- What starts like `-o` names the output. -/
theorem kindOf_eq_outputFile_iff {word : String} :
    kindOf word = .outputFile ↔ "-o".toList <+: word.toList :=
  ⟨starts_of_kindOf_eq_outputFile, kindOf_eq_outputFile_of_starts⟩

/-- Only `-o` itself owns the output that follows. -/
theorem ownsNext_of_glued {word : String} (h : "-o".toList <+: word.toList) (hne : word ≠ "-o") :
    ownsNext word = false := by
  rw [← Bool.not_eq_true]
  intro howns
  obtain ⟨definition, hfind, -⟩ := (Option.any_eq_true _ _).mp howns
  have hname : definition.name = word := by simpa using List.find?_some hfind
  obtain ⟨hstart, -⟩ := output_of_mem_table definition (List.mem_of_find?_eq_some hfind)
  rw [hname] at hstart
  exact hne (hstart.mp h)

/-- The output that an argument names, behind it or glued to it. -/
def outputAt? (words : List String) (head : String × Nat) : Option String :=
  if head.1 = "-o" then words[head.2 + 1]?
  else if "-o".toList <+: head.1.toList then some (String.ofList (head.1.toList.drop 2))
  else none

/-- The outputs that a command line names, in order. -/
def outputs (words : List String) : List String := (heads words).filterMap (outputAt? words)

theorem value?_flagAt_output (words : List String) (place : Nat) :
    (flagAt words ("-o", place)).value? "-o" = words[place + 1]? := by
  have howns : ownsNext "-o" = true := by decide
  rw [flagAt, howns, if_pos rfl]
  cases words[place + 1]? with
  | none => exact if_neg fun h => absurd h.2 (Nat.lt_irrefl _)
  | some output => rfl

theorem value?_flagAt_glued {word : String} (h : "-o".toList <+: word.toList) (hne : word ≠ "-o")
    (words : List String) (place : Nat) :
    (flagAt words (word, place)).value? "-o" = some (String.ofList (word.toList.drop 2)) := by
  have hlength := length_lt_of_glued h hne
  rw [String.length_toList, String.length_toList] at hlength
  rw [flagAt, ownsNext_of_glued h hne, if_neg Bool.false_ne_true]
  exact if_pos ⟨List.isPrefixOf_iff_prefix.mpr h, hlength⟩

theorem value?_flagAt (words : List String) (head : String × Nat) :
    (if (flagAt words head).kind == .outputFile then (flagAt words head).value? "-o" else none)
      = outputAt? words head := by
  obtain ⟨word, place⟩ := head
  have hkind : ((flagAt words (word, place)).kind == .outputFile) = true
      ↔ "-o".toList <+: word.toList := beq_iff_eq.trans kindOf_eq_outputFile_iff
  unfold outputAt?
  by_cases hstart : "-o".toList <+: word.toList
  · rw [if_pos (hkind.mpr hstart)]
    by_cases hword : word = "-o"
    · rw [if_pos hword, hword, value?_flagAt_output]
    · rw [if_neg hword, if_pos hstart, value?_flagAt_glued hstart hword]
  · have hword : word ≠ "-o" := by
      rintro rfl
      exact hstart List.prefix_rfl
    rw [if_neg fun h => hstart (hkind.mp h), if_neg hword, if_neg hstart]

theorem filterMap_value?_parse (words : List String) :
    ((parse words).filter (·.kind == .outputFile)).filterMap (·.value? "-o") = outputs words := by
  rw [parse_eq_map_heads, List.filterMap_filter, List.filterMap_map, outputs]
  exact List.filterMap_congr fun head _ => value?_flagAt words head

end CompileCommands.Flag
