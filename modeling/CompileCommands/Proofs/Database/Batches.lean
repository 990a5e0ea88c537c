/-
Merging batch after batch.

As long as entries are compared in one way, what was merged before needs no second look: the
entries that were dropped are covered by those that were kept, so merging with the kept ones is
merging with all.  Hence batches that name all outputs can be merged in any grouping.

The way entries are compared is chosen anew by each merge, though.  An entry without an output can
be dropped as the same call as one that has an output, and then the next merge finds outputs
everywhere and compares by them.  This is the only case in which merging a batch again is not
settled beforehand, and it happens once.
-/
import CompileCommands.Proofs.Database.Classes

namespace CompileCommands.Entry

/-! ### Going through entries twice -/

section Fresh

variable {same : Entry → Entry → Bool} {kept other entries : List Entry}

/-- Entries that are covered are not added. -/
theorem fresh_eq_nil (hsame : Equivalence fun a b => same a b = true)
    (h : ∀ entry ∈ entries, ∃ k ∈ kept, same k entry = true) : fresh same kept entries = [] := by
  refine List.eq_nil_iff_forall_not_mem.mpr fun entry hentry => ?_
  obtain ⟨before, after, rfl, hnone⟩ := exists_of_mem_fresh hsame hentry
  obtain ⟨k, hk, hcovers⟩ := h entry (by simp)
  rw [hnone k (List.mem_append_left before hk)] at hcovers
  cases hcovers

/-- Entries can be sifted beforehand by some that are covered. -/
theorem fresh_fresh_of_covered (hsame : Equivalence fun a b => same a b = true)
    (h : ∀ entry ∈ other, ∃ k ∈ kept, same k entry = true) :
    fresh same kept (fresh same other entries) = fresh same kept entries := by
  induction entries generalizing kept other with
  | nil => rfl
  | cons entry rest ih =>
    by_cases hother : other.any (same · entry) = true
    · obtain ⟨covering, hcovering, hcovers⟩ := List.any_eq_true.mp hother
      obtain ⟨k, hk, hkept⟩ := h covering hcovering
      have hany : kept.any (same · entry) = true :=
        List.any_eq_true.mpr ⟨k, hk, hsame.trans hkept hcovers⟩
      rw [fresh, if_pos hother, ih h, fresh, if_pos hany]
    rw [fresh, if_neg hother, fresh, fresh]
    by_cases hany : kept.any (same · entry) = true
    · rw [if_pos hany, if_pos hany]
      refine ih fun covered hcovered => ?_
      rcases List.mem_append.mp hcovered with hcovered | hcovered
      · exact h covered hcovered
      · rw [List.mem_singleton.mp hcovered]
        exact List.any_eq_true.mp hany
    · rw [if_neg hany, if_neg hany]
      congr 1
      refine ih fun covered hcovered => ?_
      rcases List.mem_append.mp hcovered with hcovered | hcovered
      · obtain ⟨k, hk, hcovers⟩ := h covered hcovered
        exact ⟨k, List.mem_append_left _ hk, hcovers⟩
      · exact ⟨covered, List.mem_append_right _ hcovered, hsame.refl covered⟩

/-- What was dropped in front makes no difference. -/
@[simp]
theorem fresh_append_left (front back : List Entry) :
    fresh same [] (fresh same [] front ++ back) = fresh same [] (front ++ back) := by
  simp [fresh_append]

/-- What was dropped behind makes no difference. -/
theorem fresh_append_right (hsame : Equivalence fun a b => same a b = true)
    (front back : List Entry) :
    fresh same [] (front ++ fresh same [] back) = fresh same [] (front ++ back) := by
  rw [fresh_append, fresh_append, fresh_fresh_of_covered hsame (by simp)]

/-- Entries that were gone through add nothing when they come again. -/
theorem fresh_append_self (hsame : Equivalence fun a b => same a b = true)
    (front back : List Entry) :
    fresh same [] (front ++ back ++ back) = fresh same [] (front ++ back) := by
  have hcovered : ∀ entry ∈ back,
      ∃ k ∈ fresh same [] (front ++ back), same k entry = true := by
    intro entry hentry
    have hgone : entry ∈ [] ++ (front ++ back) :=
      List.mem_append_right [] (List.mem_append_right front hentry)
    exact covered_by_fresh hsame hgone
  rw [fresh_append [] (front ++ back), List.nil_append, fresh_eq_nil hsame hcovered,
    List.append_nil]

end Fresh

/-! ### Outputs everywhere -/

variable {a b left right entries : List Entry}

/-- Every entry names its output. -/
def NameOutputs (entries : List Entry) : Prop := ∀ entry ∈ entries, entry.output.isSome = true

@[simp]
theorem nameOutputs_append : NameOutputs (left ++ right) ↔ NameOutputs left ∧ NameOutputs right :=
  List.forall_mem_append

theorem NameOutputs.merge (h : NameOutputs (left ++ right)) : NameOutputs (merge left right) :=
  fun entry hentry => h entry (List.mem_append.mpr (mem_of_mem_merge hentry))

theorem NameOutputs.merge_eq (h : NameOutputs (left ++ right)) :
    Entry.merge left right = fresh sameProduct [] (left ++ right) := by
  rw [merge_eq_fresh_append, equivalence_of_outputs h]

theorem sameProduct_isEquivalence : Equivalence fun a b => sameProduct a b = true := by
  have hsame := equivalence_isEquivalence []
  rwa [equivalence_of_outputs (by simp)] at hsame

/-- Batches are merged one after the other, into what was merged before. -/
theorem foldl_merge {batches : List (List Entry)} (hfront : NameOutputs entries)
    (h : ∀ batch ∈ batches, NameOutputs batch) :
    batches.foldl merge (fresh sameProduct [] entries)
      = fresh sameProduct [] (entries ++ batches.flatten) := by
  induction batches generalizing entries with
  | nil => simp
  | cons batch rest ih =>
    have hbatch : NameOutputs batch := h batch List.mem_cons_self
    have hkept : NameOutputs (fresh sameProduct [] entries) :=
      fun entry hentry => hfront entry ((fresh_sublist [] entries).subset hentry)
    rw [List.foldl_cons, (nameOutputs_append.mpr ⟨hkept, hbatch⟩).merge_eq, fresh_append_left,
      ih (nameOutputs_append.mpr ⟨hfront, hbatch⟩) fun other hother => h other (by simp [hother]),
      List.flatten_cons, List.append_assoc]

/-- **Batches that name all outputs can be merged in any grouping**, and one by one as well as at
once. -/
theorem merge_batches {a b c : List Entry} {batches : List (List Entry)}
    (named : NameOutputs (a ++ b ++ c)) (each : ∀ batch ∈ batches, NameOutputs batch) :
    merge (merge a b) c = merge a (merge b c)
    ∧ batches.foldl merge [] = merge [] batches.flatten := by
  obtain ⟨hfront, hc⟩ := nameOutputs_append.mp named
  obtain ⟨ha, hb⟩ := nameOutputs_append.mp hfront
  have hback : NameOutputs (b ++ c) := nameOutputs_append.mpr ⟨hb, hc⟩
  constructor
  · rw [(nameOutputs_append.mpr ⟨hfront.merge, hc⟩).merge_eq, hfront.merge_eq,
      (nameOutputs_append.mpr ⟨ha, hback.merge⟩).merge_eq, hback.merge_eq, fresh_append_left,
      fresh_append_right sameProduct_isEquivalence, List.append_assoc]
  · have hall : NameOutputs batches.flatten := by
      intro entry hentry
      obtain ⟨batch, hbatch, hmem⟩ := List.mem_flatten.mp hentry
      exact each batch hbatch entry hmem
    have hnone : NameOutputs [] := by simp [NameOutputs]
    rw [NameOutputs.merge_eq (by simpa using hall)]
    exact foldl_merge hnone each

/-- The same call with another output. -/
def renamed : Entry := { built with output := some ⟨"/src/b.o"⟩ }

theorem merge_batches_renamed :
    NameOutputs ([built] ++ [renamed] ++ [built])
      ∧ (∀ batch ∈ [[built], [renamed, built]], NameOutputs batch)
      ∧ merge (merge [built] [renamed]) [built] = merge [built] (merge [renamed] [built])
      ∧ merge [built] (merge [renamed] [built]) = [built, renamed]
      ∧ [[built], [renamed, built]].foldl merge [] = merge [] [built, renamed, built]
      ∧ merge [] [built, renamed, built] = [built, renamed] := by
  have hnamed : NameOutputs ([built] ++ [renamed] ++ [built]) := by
    unfold NameOutputs
    decide
  have heach : ∀ batch ∈ [[built], [renamed, built]], NameOutputs batch := by
    unfold NameOutputs
    decide
  obtain ⟨hgrouped, hone⟩ := merge_batches hnamed heach
  exact ⟨hnamed, heach, hgrouped, by decide, hone, by decide⟩

/-! ### The same batch again -/

/-- While entries are compared as before, another merge of the batch changes nothing. -/
theorem merge_again (h : equivalence (merge a b ++ b) = equivalence (a ++ b)) :
    merge (merge a b) b = merge a b := by
  rw [merge_eq_fresh_append (merge a b), h, merge_eq_fresh_append a, fresh_append_left,
    fresh_append_self (equivalence_isEquivalence _)]

/-- Nothing that names no output is found in a merge unless it was there before. -/
theorem equivalence_merge_append (h : ¬ NameOutputs (merge a b ++ b)) :
    equivalence (merge a b ++ b) = equivalence (a ++ b) := by
  have hbefore : ¬ NameOutputs (a ++ b) := fun hall =>
    h (nameOutputs_append.mpr ⟨hall.merge, (nameOutputs_append.mp hall).2⟩)
  rw [equivalence, equivalence, if_neg fun hall => h (List.all_eq_true.mp hall),
    if_neg fun hall => hbefore (List.all_eq_true.mp hall)]

/-- Where outputs are compared, another merge of the batch changes nothing exactly if outputs tell
the merged entries apart and cover the batch. -/
theorem merge_eq_left_iff (h : NameOutputs (left ++ right)) :
    merge left right = left
      ↔ (left.map productKey).Nodup ∧ ∀ entry ∈ right, entry.productKey ∈ left.map productKey := by
  have hdistinct : ∀ {entries : List Entry},
      fresh sameProduct [] entries = entries ↔ (entries.map productKey).Nodup := by
    intro entries
    rw [fresh_eq_self_iff, List.Nodup, List.pairwise_map]
    simp only [← Bool.not_eq_true, sameProduct_iff]
    simp
  rw [h.merge_eq]
  constructor
  · intro hmerge
    have hleft : fresh sameProduct [] left = left := by
      rw [← hmerge]
      exact fresh_fresh [] _
    refine ⟨hdistinct.mp hleft, fun entry hentry => ?_⟩
    obtain ⟨k, hk, hcovers⟩ := covered_by_fresh sameProduct_isEquivalence
      (List.mem_append_right [] (List.mem_append_right left hentry))
    rw [List.nil_append, hmerge] at hk
    exact List.mem_map.mpr ⟨k, hk, sameProduct_iff.mp hcovers⟩
  · intro hkeys
    obtain ⟨hnodup, hcovered⟩ := hkeys
    rw [fresh_append, hdistinct.mpr hnodup, List.nil_append,
      fresh_eq_nil sameProduct_isEquivalence, List.append_nil]
    intro entry hentry
    obtain ⟨k, hk, hkey⟩ := List.mem_map.mp (hcovered entry hentry)
    exact ⟨k, hk, sameProduct_iff.mpr hkey⟩

/-- **Another merge of the same batch changes nothing** unless it finds outputs everywhere, and
these confuse merged entries or do not cover the batch.  A third merge never changes anything. -/
theorem merge_again_iff (a b : List Entry) :
    (merge (merge a b) b = merge a b
      ↔ (∃ entry ∈ merge a b ++ b, entry.output = none)
        ∨ ((merge a b).map productKey).Nodup
          ∧ ∀ entry ∈ b, entry.productKey ∈ (merge a b).map productKey)
    ∧ (NameOutputs (a ++ b) → merge (merge a b) b = merge a b)
    ∧ merge (merge (merge a b) b) b = merge (merge a b) b := by
  have hmissing : ¬ NameOutputs (merge a b ++ b)
      ↔ ∃ entry ∈ merge a b ++ b, entry.output = none := by
    simp [NameOutputs]
  have hagain : ¬ NameOutputs (merge a b ++ b) → merge (merge a b) b = merge a b :=
    fun h => merge_again (equivalence_merge_append h)
  refine ⟨?_, fun h => ?_, ?_⟩
  · rw [← hmissing]
    by_cases hnamed : NameOutputs (merge a b ++ b)
    · simp only [hnamed, not_true_eq_false, false_or]
      exact merge_eq_left_iff hnamed
    · exact iff_of_true (hagain hnamed) (.inl hnamed)
  · have hmerged : NameOutputs (merge a b ++ b) :=
      nameOutputs_append.mpr ⟨h.merge, (nameOutputs_append.mp h).2⟩
    exact merge_again (by rw [equivalence_of_outputs hmerged, equivalence_of_outputs h])
  · by_cases hnamed : NameOutputs (merge a b ++ b)
    · have hmerged : NameOutputs (merge (merge a b) b ++ b) :=
        nameOutputs_append.mpr ⟨hnamed.merge, (nameOutputs_append.mp hnamed).2⟩
      exact merge_again (by rw [equivalence_of_outputs hmerged, equivalence_of_outputs hnamed])
    · rw [hagain hnamed, hagain hnamed]

theorem merge_again_renamed :
    NameOutputs ([built] ++ [renamed])
      ∧ merge (merge [built] [renamed]) [renamed] = merge [built] [renamed]
      ∧ merge [built] [renamed] = [built, renamed] := by
  have hnamed : NameOutputs ([built] ++ [renamed]) := by
    unfold NameOutputs
    decide
  exact ⟨hnamed, (merge_again_iff [built] [renamed]).2.1 hnamed, by decide⟩

/-- **The same batch may add an entry when it is merged again**: the entry without an output is
gone, and outputs are compared now. -/
theorem merge_again_ne :
    merge (merge [built, bare] [renamed]) [renamed] ≠ merge [built, bare] [renamed] := by
  decide

end CompileCommands.Entry
