/-
Merging found entries into a database they may be in already.

Entries are equivalent when they have the same key, so a merge keeps one entry of each class, the
first.  Which key counts is decided by all entries together, and this is why merging once is not
merging for good: an output that was not written is missing the next time, and a database that
was written without a merge may hold an entry twice.

`Settled` says when another merge changes nothing: the database has no two equivalent entries,
and whatever is found is covered by an entry in front of it.
-/
import CompileCommands.Proofs.Database.RoundTrip

namespace CompileCommands.Entry

/-! ### Equivalent entries -/

/-- What a source and an output are compared by. -/
def productKey (entry : Entry) : List Path.Component × Option (List Path.Component) :=
  (entry.file.components, entry.output.map Path.components)

/-- What a source, a directory and the arguments are compared by. -/
def callKey (entry : Entry) :
    List Path.Component × List Path.Component × Option (List String) :=
  (entry.file.components, entry.directory.components, entry.operands?)

@[simp]
theorem sameProduct_iff {a b : Entry} : sameProduct a b = true ↔ a.productKey = b.productKey := by
  have houtput : sameOutput a.output b.output = true
      ↔ a.output.map Path.components = b.output.map Path.components := by
    cases a.output <;> cases b.output <;> simp [sameOutput]
  simp [sameProduct, productKey, houtput]

@[simp] theorem sameCall_iff {a b : Entry} : sameCall a b = true ↔ a.callKey = b.callKey := by
  simp [sameCall, callKey, and_assoc]

theorem equivalence_isEquivalence (entries : List Entry) :
    Equivalence fun a b => equivalence entries a b = true := by
  unfold equivalence
  split
  · simp only [sameProduct_iff]
    exact ⟨fun _ => rfl, Eq.symm, Eq.trans⟩
  · simp only [sameCall_iff]
    exact ⟨fun _ => rfl, Eq.symm, Eq.trans⟩

theorem equivalence_of_outputs {entries : List Entry}
    (h : ∀ entry ∈ entries, entry.output.isSome = true) : equivalence entries = sameProduct := by
  rw [equivalence, if_pos (List.all_eq_true.mpr h)]

/-- An entry stays what it was when its output is left out, as long as outputs are not what is
compared. -/
theorem equivalence_shown {entries : List Entry} {format : EntryFormat} {entry : Entry}
    (h : format.shown entry ∈ entries) : equivalence entries (format.shown entry) entry = true := by
  unfold equivalence
  split
  · rename_i hall
    have houtput : (format.shown entry).output.isSome = true := List.all_eq_true.mp hall _ h
    have hkept : format.shown entry = entry := by
      unfold EntryFormat.shown at houtput ⊢
      cases hdrop : format.dropOutput with
      | true => simp [hdrop] at houtput
      | false => rfl
    rw [hkept, sameProduct_iff]
  · rw [sameCall_iff]
    rfl

/-! ### What a merge adds -/

variable {same : Entry → Entry → Bool} {kept entries : List Entry}

/-- The entries of a list that are added to those that are kept. -/
def fresh (same : Entry → Entry → Bool) (kept : List Entry) : List Entry → List Entry
  | [] => []
  | entry :: rest =>
      if kept.any (same · entry) then fresh same kept rest
      else entry :: fresh same (kept ++ [entry]) rest

theorem keepFirst_eq_append (kept entries : List Entry) :
    keepFirst same kept entries = kept ++ fresh same kept entries := by
  fun_induction keepFirst same kept entries with
  | case1 => simp [fresh]
  | case2 kept entry rest hany ih => rw [fresh, if_pos hany, ih]
  | case3 kept entry rest hany ih =>
    rw [fresh, if_neg hany, ih, List.append_assoc, List.singleton_append]

theorem fresh_append (kept front back : List Entry) :
    fresh same kept (front ++ back)
      = fresh same kept front ++ fresh same (kept ++ fresh same kept front) back := by
  fun_induction fresh same kept front with
  | case1 => simp
  | case2 kept entry rest hany ih => rw [List.cons_append, fresh, if_pos hany, ih]
  | case3 kept entry rest hany ih =>
    rw [List.cons_append, fresh, if_neg hany, ih, List.append_assoc, List.singleton_append,
      List.cons_append]

/-- A merge goes through one database after the other. -/
theorem merge_eq_fresh (left right : List Entry) :
    merge left right = fresh (equivalence (left ++ right)) [] left
      ++ fresh (equivalence (left ++ right)) (fresh (equivalence (left ++ right)) [] left)
          right := by
  rw [merge, keepFirst_eq_append, fresh_append, List.nil_append, List.nil_append]

theorem fresh_sublist (kept entries : List Entry) : (fresh same kept entries).Sublist entries := by
  fun_induction fresh same kept entries with
  | case1 => exact .slnil
  | case2 kept entry rest _ ih => exact ih.cons entry
  | case3 kept entry rest _ ih => exact ih.cons_cons entry

theorem any_eq_false_iff {entry : Entry} :
    ¬ kept.any (same · entry) = true ↔ ∀ k ∈ kept, same k entry = false := by
  simp

/-- All entries are added exactly if none is equivalent to one in front of it. -/
theorem fresh_eq_self_iff : fresh same kept entries = entries
    ↔ (∀ k ∈ kept, ∀ entry ∈ entries, same k entry = false)
      ∧ entries.Pairwise fun a b => same a b = false := by
  fun_induction fresh same kept entries with
  | case1 => simp
  | case2 kept entry rest hany ih =>
    constructor
    · intro h
      have hlength : (fresh same kept rest).length ≤ rest.length :=
        (fresh_sublist kept rest).length_le
      rw [h, List.length_cons] at hlength
      exact absurd hlength (Nat.not_succ_le_self _)
    · intro h
      exact absurd hany (any_eq_false_iff.mpr fun k hk => h.1 k hk entry List.mem_cons_self)
  | case3 kept entry rest hany ih =>
    rw [List.cons.injEq, eq_self, true_and, ih, List.pairwise_cons]
    rw [any_eq_false_iff] at hany
    constructor
    · intro h
      obtain ⟨hkept, hrest⟩ := h
      refine ⟨fun k hk e he => ?_, fun e he => hkept entry (by simp) e he, hrest⟩
      rcases List.mem_cons.mp he with rfl | he
      · exact hany k hk
      · exact hkept k (by simp [hk]) e he
    · intro h
      obtain ⟨hkept, hentry, hrest⟩ := h
      refine ⟨fun k hk e he => ?_, hrest⟩
      rcases List.mem_append.mp hk with hk | hk
      · exact hkept k hk e (List.mem_cons_of_mem _ he)
      · rw [List.mem_singleton.mp hk]
        exact hentry e he

/-- What was added once is added again. -/
@[simp]
theorem fresh_fresh (kept entries : List Entry) :
    fresh same kept (fresh same kept entries) = fresh same kept entries := by
  fun_induction fresh same kept entries with
  | case1 => rfl
  | case2 kept entry rest _ ih => exact ih
  | case3 kept entry rest hany ih => rw [fresh, if_neg hany, ih]

/-- Every entry is covered by one that is kept or added. -/
theorem covered_by_fresh (hsame : Equivalence fun a b => same a b = true) {entry : Entry}
    (h : entry ∈ kept ++ entries) : ∃ k ∈ kept ++ fresh same kept entries, same k entry = true := by
  fun_induction fresh same kept entries with
  | case1 => exact ⟨entry, h, hsame.refl entry⟩
  | case2 kept first rest hany ih =>
    rcases List.mem_append.mp h with hkept | hrest
    · exact ih (List.mem_append_left _ hkept)
    · rcases List.mem_cons.mp hrest with rfl | hrest
      · obtain ⟨k, hk, hsameEntry⟩ := List.any_eq_true.mp hany
        exact ⟨k, List.mem_append_left _ hk, hsameEntry⟩
      · exact ih (List.mem_append_right _ hrest)
  | case3 kept first rest hany ih =>
    have hmem : entry ∈ kept ++ [first] ++ rest := by simpa using h
    simpa using ih hmem

/-- An entry that is added has no equivalent in front of it, kept or not. -/
theorem exists_of_mem_fresh (hsame : Equivalence fun a b => same a b = true) {entry : Entry}
    (h : entry ∈ fresh same kept entries) :
    ∃ before after, entries = before ++ entry :: after
      ∧ ∀ k ∈ kept ++ before, same k entry = false := by
  fun_induction fresh same kept entries with
  | case1 => cases h
  | case2 kept first rest hany ih =>
    obtain ⟨before, after, rfl, hnone⟩ := ih h
    refine ⟨first :: before, after, rfl, fun k hk => ?_⟩
    rcases List.mem_append.mp hk with hk | hk
    · exact hnone k (List.mem_append_left _ hk)
    · rcases List.mem_cons.mp hk with rfl | hk
      · obtain ⟨covering, hcovering, hcovers⟩ := List.any_eq_true.mp hany
        rw [← Bool.not_eq_true]
        intro hentry
        have hboth := hnone covering (List.mem_append_left _ hcovering)
        rw [hsame.trans hcovers hentry] at hboth
        cases hboth
      · exact hnone k (List.mem_append_right _ hk)
  | case3 kept first rest hany ih =>
    rcases List.mem_cons.mp h with rfl | h
    · exact ⟨[], rest, rfl, by simpa using hany⟩
    · obtain ⟨before, after, rfl, hnone⟩ := ih h
      exact ⟨first :: before, after, rfl, by simpa using hnone⟩

theorem mem_fresh_of_uncovered {before : List Entry} {entry : Entry}
    (h : ∀ k ∈ kept ++ before, same k entry = false) (after : List Entry) :
    entry ∈ fresh same kept (before ++ entry :: after) := by
  have hany : ¬ (kept ++ fresh same kept before).any (same · entry) = true := by
    refine any_eq_false_iff.mpr fun k hk => h k ?_
    exact List.mem_append.mpr ((List.mem_append.mp hk).imp_right
      fun hk => (fresh_sublist kept before).subset hk)
  rw [fresh_append, fresh, if_neg hany]
  simp

/-! ### Merging again -/

/-- Merging found entries into written ones changes nothing, when only those of the found
entries are written that are accepted. -/
structure Settled (accepts : Entry → Bool) (written found : List Entry) : Prop where
  /-- No two written entries are equivalent. -/
  distinct : written.Pairwise fun a b => equivalence (written ++ found) a b = false
  /-- A found entry that would be written is equivalent to one in front of it. -/
  covered : ∀ before entry after, found = before ++ entry :: after → accepts entry = true →
    ∃ k ∈ written ++ before, equivalence (written ++ found) k entry = true

variable {accepts : Entry → Bool} {written found : List Entry}

/-- A settled database is merged into itself. -/
theorem Settled.filter_merge (h : Settled accepts written found)
    (haccepted : ∀ entry ∈ written, accepts entry = true) :
    (merge written found).filter accepts = written := by
  have hwritten : fresh (equivalence (written ++ found)) [] written = written :=
    fresh_eq_self_iff.mpr ⟨by simp, h.distinct⟩
  have hfound : (fresh (equivalence (written ++ found)) written found).filter accepts = [] := by
    rw [List.filter_eq_nil_iff]
    intro entry hentry haccepts
    obtain ⟨before, after, hsplit, hnone⟩ :=
      exists_of_mem_fresh (equivalence_isEquivalence _) hentry
    obtain ⟨k, hk, hsame⟩ := h.covered before entry after hsplit haccepts
    rw [hnone k hk] at hsame
    cases hsame
  rw [merge_eq_fresh, hwritten, List.filter_append, List.filter_eq_self.mpr haccepted, hfound,
    List.append_nil]

/-- A database that is merged into itself is settled.  A found entry that is added cannot take
the place of a written one, since it is equivalent to none of them. -/
theorem settled_of_filter_merge (format : EntryFormat)
    (haccepted : ∀ entry ∈ written, accepts entry = true)
    (hshown : ∀ entry ∈ written, format.shown entry = entry)
    (h : ((merge written found).filter accepts).map format.shown = written) :
    Settled accepts written found := by
  have hsame := equivalence_isEquivalence (written ++ found)
  have hfirst : ∀ entry ∈ fresh (equivalence (written ++ found)) [] written, entry ∈ written :=
    fun _ hentry => (fresh_sublist _ _).subset hentry
  rw [merge_eq_fresh, List.filter_append, List.map_append,
    List.filter_eq_self.mpr fun entry hentry => haccepted entry (hfirst entry hentry),
    List.map_congr_left fun entry hentry => hshown entry (hfirst entry hentry), List.map_id'] at h
  have hnothing : (fresh (equivalence (written ++ found))
      (fresh (equivalence (written ++ found)) [] written) found).filter accepts = [] := by
    refine List.eq_nil_iff_forall_not_mem.mpr fun entry hentry => ?_
    have hwritten : format.shown entry ∈ written := by
      rw [← h]
      exact List.mem_append_right _ (List.mem_map_of_mem hentry)
    obtain ⟨before, after, -, hnone⟩ := exists_of_mem_fresh hsame (List.mem_filter.mp hentry).1
    obtain ⟨k, hk, hcovers⟩ := covered_by_fresh hsame (List.mem_append_right [] hwritten)
    have hentrySame := hsame.trans hcovers (equivalence_shown (List.mem_append_left found hwritten))
    rw [hnone k (List.mem_append_left _ hk)] at hentrySame
    cases hentrySame
  rw [hnothing, List.map_nil, List.append_nil] at h
  rw [h] at hnothing
  refine ⟨(fresh_eq_self_iff.mp h).2, fun before entry after hsplit haccepts => ?_⟩
  by_cases hcovered : ∃ k ∈ written ++ before, equivalence (written ++ found) k entry = true
  · exact hcovered
  · have hnone : ∀ k ∈ written ++ before, equivalence (written ++ found) k entry = false := by
      intro k hk
      rw [← Bool.not_eq_true]
      exact fun hkentry => hcovered ⟨k, hk, hkentry⟩
    have hadded := mem_fresh_of_uncovered hnone after
    rw [← hsplit] at hadded
    exact absurd (List.mem_filter.mpr ⟨hadded, haccepts⟩) (by simp [hnothing])

/-- A merged database is settled if every entry on both sides names its output. -/
theorem settled_merge {old : List Entry}
    (h : ∀ entry ∈ old ++ found, entry.output.isSome = true) :
    Settled accepts (merge old found) found := by
  have hmerged : ∀ entry ∈ merge old found ++ found, entry.output.isSome = true := by
    intro entry hentry
    rcases List.mem_append.mp hentry with hmerge | hfound
    · exact h entry (List.mem_append.mpr (mem_of_mem_merge hmerge))
    · exact h entry (List.mem_append_right _ hfound)
  have hmerge : merge old found = fresh sameProduct [] (old ++ found) := by
    rw [merge, keepFirst_eq_append, equivalence_of_outputs h, List.nil_append]
  refine ⟨?_, fun before entry after hsplit _ => ?_⟩
  · rw [equivalence_of_outputs hmerged, hmerge]
    exact (fresh_eq_self_iff.mp (fresh_fresh [] (old ++ found))).2
  · have hentry : entry ∈ [] ++ (old ++ found) := by simp [hsplit]
    have hsame := equivalence_isEquivalence (old ++ found)
    rw [equivalence_of_outputs h] at hsame
    obtain ⟨k, hk, hcovers⟩ := covered_by_fresh hsame hentry
    rw [List.nil_append, ← hmerge] at hk
    rw [equivalence_of_outputs hmerged]
    exact ⟨k, List.mem_append_left _ hk, hcovers⟩

end CompileCommands.Entry
