/-
What a merge keeps.

A merge compares each entry with those it has kept so far.  These cover all it has gone through,
so the answer is the same as if every entry in front had been looked at: an entry is kept exactly
if no equivalent one stands in front of it.

Entries are equivalent when they have the same key.  The entries that are kept therefore have
every key of the two databases, each key once, and this does not depend on which of the databases
comes first.
-/
import CompileCommands.Proofs.Database.Merge
import Mathlib.Data.List.Induction
import Mathlib.Data.List.Nodup

namespace CompileCommands.Entry

/-! ### Keys -/

/-- What an entry is told apart by among some entries: its source and output where all of them
name their output, and otherwise its source, its directory and its arguments after the compiler. -/
def key (among : List Entry) (entry : Entry) :
    (List Path.Component × Option (List Path.Component))
      ⊕ (List Path.Component × List Path.Component × Option (List String)) :=
  if ∀ other ∈ among, other.output.isSome = true then .inl entry.productKey
  else .inr entry.callKey

@[simp]
theorem equivalence_iff {among : List Entry} {a b : Entry} :
    equivalence among a b = true ↔ key among a = key among b := by
  by_cases hall : ∀ other ∈ among, other.output.isSome = true
  · rw [equivalence_of_outputs hall, sameProduct_iff, key, key, if_pos hall, if_pos hall,
      Sum.inl.injEq]
  · have hcalls : equivalence among = sameCall := by
      rw [equivalence, if_neg fun h => hall (List.all_eq_true.mp h)]
    rw [hcalls, sameCall_iff, key, key, if_neg hall, if_neg hall, Sum.inr.injEq]

/-- Which of two databases comes first does not decide what entries are told apart by. -/
theorem key_append_comm (left right : List Entry) :
    key (left ++ right) = key (right ++ left) := by
  have hall : (∀ other ∈ left ++ right, other.output.isSome = true)
      ↔ ∀ other ∈ right ++ left, other.output.isSome = true := by
    simp only [List.mem_append, or_comm]
  funext entry
  simp only [key, hall]

/-! ### Entries with nothing equivalent in front of them -/

variable {among entries : List Entry}

/-- The entries that have no entry with the same key in front of them. -/
def firsts {κ : Type} [DecidableEq κ] (key : Entry → κ) (entries : List Entry) : List Entry :=
  (entries.zipIdx.filter fun (entry, place) =>
    decide (∀ earlier ∈ entries.take place, key earlier ≠ key entry)).map Prod.fst

/-- The last entry is judged by all others, and none of them by it. -/
theorem firsts_append_singleton {κ : Type} [DecidableEq κ] (key : Entry → κ)
    (front : List Entry) (entry : Entry) :
    firsts key (front ++ [entry])
      = firsts key front ++ if key entry ∈ front.map key then [] else [entry] := by
  have hfront : (front.zipIdx.filter fun (other, place) =>
        decide (∀ earlier ∈ (front ++ [entry]).take place, key earlier ≠ key other))
      = front.zipIdx.filter fun (other, place) =>
        decide (∀ earlier ∈ front.take place, key earlier ≠ key other) := by
    refine List.filter_congr fun (other, place) hfound => ?_
    have hplace : place ≤ front.length := by
      simpa using Nat.le_of_lt (List.snd_lt_of_mem_zipIdx hfound)
    simp only [List.take_append_of_le_length hplace]
  have hlast : (∀ earlier ∈ (front ++ [entry]).take front.length, key earlier ≠ key entry)
      ↔ key entry ∉ front.map key := by
    simp
  rw [firsts, firsts, List.zipIdx_append, List.filter_append, List.map_append, hfront,
    Nat.zero_add, List.zipIdx_singleton, List.filter_singleton]
  congr 1
  dsimp only
  by_cases hkey : key entry ∈ front.map key
  · rw [decide_eq_false fun hfirst => hlast.mp hfirst hkey, if_pos hkey]
    rfl
  · rw [decide_eq_true (hlast.mpr hkey), if_neg hkey]
    rfl

/-- What was added has the keys of all that was gone through. -/
@[simp]
theorem mem_map_key_fresh_iff {k} :
    k ∈ (fresh (equivalence among) [] entries).map (key among) ↔ k ∈ entries.map (key among) := by
  constructor
  · intro h
    exact ((fresh_sublist [] entries).map _).subset h
  · intro h
    obtain ⟨entry, hentry, rfl⟩ := List.mem_map.mp h
    obtain ⟨kept, hkept, hsame⟩ :=
      covered_by_fresh (equivalence_isEquivalence among) (List.mem_append_right [] hentry)
    exact List.mem_map.mpr ⟨kept, hkept, equivalence_iff.mp hsame⟩

/-- Each key is added once. -/
theorem nodup_map_key_fresh (among entries : List Entry) :
    ((fresh (equivalence among) [] entries).map (key among)).Nodup := by
  have hagain : fresh (equivalence among) [] (fresh (equivalence among) [] entries)
      = fresh (equivalence among) [] entries := fresh_fresh [] entries
  refine List.pairwise_map.mpr ((fresh_eq_self_iff.mp hagain).2.imp fun {a b} hab hsame => ?_)
  rw [equivalence_iff.mpr hsame] at hab
  cases hab

/-- **An entry is added exactly if nothing equivalent stands in front of it.** -/
theorem fresh_eq_firsts (among entries : List Entry) :
    fresh (equivalence among) [] entries = firsts (key among) entries := by
  induction entries using List.reverseRecOn with
  | nil => rfl
  | append_singleton front entry ih =>
    have hany : (fresh (equivalence among) [] front).any (equivalence among · entry) = true
        ↔ key among entry ∈ front.map (key among) := by
      rw [← mem_map_key_fresh_iff, List.any_eq_true, List.mem_map]
      simp only [equivalence_iff]
    rw [fresh_append, List.nil_append, firsts_append_singleton, ih]
    congr 1
    rw [← ih, fresh]
    by_cases hkey : key among entry ∈ front.map (key among)
    · rw [if_pos (hany.mpr hkey), if_pos hkey, fresh]
    · rw [if_neg fun h => hkey (hany.mp h), if_neg hkey, fresh]

/-! ### One entry of each class -/

theorem merge_eq_fresh_append (left right : List Entry) :
    merge left right = fresh (equivalence (left ++ right)) [] (left ++ right) := by
  rw [merge, keepFirst_eq_append, List.nil_append]

/-- Databases that are merged in either order have the same keys. -/
theorem perm_map_key_merge (left right : List Entry) :
    ((merge left right).map (key (left ++ right))).Perm
      ((merge right left).map (key (left ++ right))) := by
  have hswapped : (merge right left).map (key (left ++ right))
      = (fresh (equivalence (right ++ left)) [] (right ++ left)).map (key (right ++ left)) := by
    rw [merge_eq_fresh_append, key_append_comm]
  rw [hswapped, merge_eq_fresh_append,
    List.perm_ext_iff_of_nodup (nodup_map_key_fresh _ _) (nodup_map_key_fresh _ _)]
  intro k
  rw [mem_map_key_fresh_iff, mem_map_key_fresh_iff, key_append_comm right left,
    List.map_append, List.map_append, List.mem_append, List.mem_append, or_comm]

/-- **A merge keeps one entry of each class**: the first one, as it is, in the order of the two
databases.  Which classes there are does not depend on that order. -/
theorem merge_keeps_firsts (left right : List Entry) :
    merge left right = firsts (key (left ++ right)) (left ++ right)
    ∧ ((merge left right).map (key (left ++ right))).Nodup
    ∧ (∀ entry ∈ left ++ right, ∃! kept, kept ∈ merge left right
        ∧ key (left ++ right) kept = key (left ++ right) entry)
    ∧ (merge left right).length = (merge right left).length
    ∧ ((merge left right).map (key (left ++ right))).Perm
        ((merge right left).map (key (left ++ right))) := by
  have hkeys : ((merge left right).map (key (left ++ right))).Nodup := by
    rw [merge_eq_fresh_append]
    exact nodup_map_key_fresh _ _
  have hperm := perm_map_key_merge left right
  refine ⟨by rw [merge_eq_fresh_append, fresh_eq_firsts], hkeys, ?_, by simpa using hperm.length_eq,
    hperm⟩
  intro entry hentry
  have hkey : key (left ++ right) entry ∈ (merge left right).map (key (left ++ right)) := by
    rw [merge_eq_fresh_append, mem_map_key_fresh_iff]
    exact List.mem_map_of_mem hentry
  obtain ⟨kept, hkept, hsame⟩ := List.mem_map.mp hkey
  refine ⟨kept, ⟨hkept, hsame⟩, fun other hother => ?_⟩
  exact List.inj_on_of_nodup_map hkeys hother.1 hkept (hother.2.trans hsame.symm)

/-- The entry of a compilation. -/
def built : Entry where
  file := ⟨"/src/a.c"⟩
  directory := ⟨"/src"⟩
  output := some ⟨"/src/a.o"⟩
  arguments := ["cc", "-c", "a.c"]

/-- The same call, written down without its output and with other slashes. -/
def bare : Entry := { built with directory := ⟨"/src/"⟩, output := none }

/-- Where an output is missing, the call counts. -/
theorem merge_keeps_firsts_bare :
    bare ∈ [built] ++ [bare] ∧ merge [built] [bare] = [built]
      ∧ ∃! kept, kept ∈ merge [built] [bare]
        ∧ key ([built] ++ [bare]) kept = key ([built] ++ [bare]) bare := by
  have hbare : bare ∈ [built] ++ [bare] := by simp
  exact ⟨hbare, rfl, (merge_keeps_firsts [built] [bare]).2.2.1 bare hbare⟩

end CompileCommands.Entry
