/-
What a forest holds.

A survey is made a forest by going through the awaited ids.  None of them has an entry, so all
that happens is that each one loses its place and leaves its children among the roots.  What is
left does not depend on the order in which that is done, and every part of it can be said in terms
of the records alone: the entry of an id is the last record with that id, its children are the
records that name it as their parent, and the roots are the records whose parent was not recorded.
Nothing is assumed of the records, so they may repeat ids and form cycles.  No later proof
looks at the maps.
-/
import Mathlib.Data.List.Dedup
import Mathlib.Data.List.Nodup
import CompileCommands.Proofs.Forest.Survey

namespace CompileCommands

/-! ### The order of ids -/

theorem Pid.compare_eq (a b : Pid) : compare a b = compare a.number b.number := rfl

instance : Std.TransOrd Pid where
  eq_swap {a b} := by
    rw [Pid.compare_eq, Pid.compare_eq]
    exact Std.OrientedCmp.eq_swap
  isLE_trans {a b c} hab hbc := by
    rw [Pid.compare_eq] at hab hbc ⊢
    exact Std.TransCmp.isLE_trans hab hbc

instance : Std.LawfulEqOrd Pid where
  eq_of_compare {a b} h := by
    rw [Pid.compare_eq] at h
    cases a
    cases b
    congr
    exact Std.LawfulEqOrd.eq_of_compare h

theorem Pid.number_lt_of_compare {a b : Pid} (h : compare a b = .lt) : a.number < b.number := by
  rw [Pid.compare_eq] at h
  exact Std.compare_eq_lt.mp h

namespace Forest

variable {ε : Type} {id parent : ε → Pid} {records : List ε}

/-! ### Planting -/

/-- The planting has gone through some awaited ids of a survey. -/
structure Planting.Settled (survey : Survey ε) (done : List Pid) (planting : Planting) : Prop where
  /-- The ids that were gone through have lost their place. -/
  offspring : ∀ pid,
    planting.offspring[pid]? = if pid ∈ done then none else survey.offspring[pid]?
  /-- Their children are the roots. -/
  roots : ∀ pid,
    pid ∈ planting.roots ↔ ∃ given ∈ done, pid ∈ (survey.offspring.getD given #[]).toList

namespace Planting

variable {survey : Survey ε} {done : List Pid} {planting : Planting}

theorem settled_nil : Settled survey [] { offspring := survey.offspring } where
  offspring pid := by simp
  roots pid := by simp

/-- An id without an entry loses its place. -/
theorem getElem?_offspring_settle {entries : Std.HashMap Pid ε} {given : Pid}
    (hgiven : given ∉ entries) (pid : Pid) :
    (planting.settle entries given).offspring[pid]?
      = if pid = given then none else planting.offspring[pid]? := by
  have hentry : entries.contains given = false :=
    Std.HashMap.contains_eq_false_iff_not_mem.mpr hgiven
  cases hplace : planting.offspring[given]? with
  | none =>
    by_cases hpid : pid = given
    · simp [Planting.settle, hentry, hplace, hpid]
    · simp [Planting.settle, hentry, hplace, hpid]
  | some children =>
    rw [Planting.settle, hentry, hplace]
    simp [Std.HashMap.getElem?_erase, @eq_comm _ given pid]

/-- Its children are added to the roots. -/
theorem mem_roots_settle {entries : Std.HashMap Pid ε} {given : Pid}
    (hgiven : given ∉ entries) {pid : Pid} :
    pid ∈ (planting.settle entries given).roots
      ↔ pid ∈ planting.roots ∨ pid ∈ (planting.offspring.getD given #[]).toList := by
  have hentry : entries.contains given = false :=
    Std.HashMap.contains_eq_false_iff_not_mem.mpr hgiven
  cases hplace : planting.offspring[given]? with
  | none => simp [Planting.settle, hentry, hplace, Std.HashMap.getD_eq_getD_getElem?]
  | some children =>
    simp [Planting.settle, hentry, hplace, Std.HashMap.getD_eq_getD_getElem?,
      Std.TreeSet.mem_insertMany_list]

/-- One more id without an entry. -/
theorem Settled.settle (h : planting.Settled survey done) {given : Pid}
    (hgiven : given ∉ survey.entries) :
    (planting.settle survey.entries given).Settled survey (done ++ [given]) where
  offspring pid := by
    rw [getElem?_offspring_settle hgiven, h.offspring]
    by_cases hpid : pid = given
    · simp [hpid]
    · simp [hpid]
  roots pid := by
    -- An id that was gone through before has no children left to give.
    have hleft : planting.offspring.getD given #[]
        = if given ∈ done then #[] else survey.offspring.getD given #[] := by
      rw [Std.HashMap.getD_eq_getD_getElem?, h.offspring]
      split
      · rfl
      · rw [Std.HashMap.getD_eq_getD_getElem?]
    rw [mem_roots_settle hgiven, h.roots, hleft]
    simp only [List.mem_append, List.mem_singleton]
    by_cases hdone : given ∈ done
    · simp only [hdone, if_true, List.not_mem_nil, or_false]
      constructor
      · intro ⟨other, hother, hchild⟩
        exact ⟨other, .inl hother, hchild⟩
      · intro ⟨other, hother, hchild⟩
        rcases hother with hother | rfl
        · exact ⟨other, hother, hchild⟩
        · exact ⟨other, hdone, hchild⟩
    · simp only [hdone, if_false, or_and_right, exists_or, exists_eq_left]

theorem Settled.foldl (order : List Pid) : ∀ {done : List Pid} {planting : Planting},
    planting.Settled survey done → (∀ given ∈ order, given ∉ survey.entries) →
      (order.foldl (Planting.settle survey.entries) planting).Settled survey (done ++ order) := by
  induction order with
  | nil =>
    intro done planting h _
    rwa [List.append_nil]
  | cons given order ih =>
    intro done planting h horder
    have hrest := ih (h.settle (horder given (by simp))) fun other hother =>
      horder other (by simp [hother])
    rwa [List.append_assoc, List.singleton_append] at hrest

end Planting

/-! ### Forests -/

/-- The forest is that of the records. -/
structure Shows (id parent : ε → Pid) (records : List ε) (forest : Forest ε) : Prop where
  /-- The entry of an id is the last record that has it. -/
  find : ∀ pid, forest.find? pid = (records.filter fun r => id r = pid).getLast?
  contains : ∀ pid, forest.contains pid = true ↔ ∃ r ∈ records, id r = pid
  /-- The children of a recorded id are the records that name it, in their order. -/
  children : ∀ pid, forest.children? pid
    = if forest.contains pid then some ((records.filter fun r => parent r = pid).map id) else none
  ascending : forest.roots.Pairwise fun a b => a.number < b.number
  /-- A tree starts at every id that has a record whose parent was not recorded. -/
  roots : ∀ pid,
    pid ∈ forest.roots ↔ ∃ r ∈ records, id r = pid ∧ ∀ p ∈ records, id p ≠ parent r

/-- The awaited ids, each of them once. -/
theorem perm_awaited (records : List ε) :
    (survey id parent records).awaited.toList.Perm
      ((records.map parent).filter fun pid => pid ∉ records.map id).dedup := by
  have hnodup : (survey id parent records).awaited.toList.Nodup :=
    Std.HashSet.distinct_toList.imp beq_eq_false_iff_ne.mp
  refine (List.perm_ext_iff_of_nodup hnodup (List.nodup_dedup _)).mpr fun pid => ?_
  rw [Std.HashSet.mem_toList, (tells_survey records).awaited]
  simp

section Order

variable {order : List Pid} (h : order.Perm (survey id parent records).awaited.toList)

include h

theorem mem_order {pid : Pid} :
    pid ∈ order ↔ (∃ r ∈ records, parent r = pid) ∧ ∀ r ∈ records, id r ≠ pid := by
  rw [h.mem_iff, Std.HashSet.mem_toList, (tells_survey records).awaited]

theorem settled_order :
    (order.foldl (Planting.settle (survey id parent records).entries)
      { offspring := (survey id parent records).offspring }).Settled (survey id parent records)
        order := by
  refine Planting.settled_nil.foldl order fun given hgiven hentry => ?_
  obtain ⟨r, hr, hid⟩ := (tells_survey records).mem_entries.mp hentry
  exact ((mem_order h).mp hgiven).2 r hr hid

/-- The recorded ids keep their children, the others lose their place. -/
theorem getElem?_offspring_forest (pid : Pid) :
    ((survey id parent records).forest order).offspring[pid]?
      = if ∃ r ∈ records, id r = pid then some ((survey id parent records).offspring.getD pid #[])
        else none := by
  have htells : (survey id parent records).Tells id parent records := tells_survey records
  have hplace := (settled_order h).offspring pid
  by_cases hpid : ∃ r ∈ records, id r = pid
  · have hkept : pid ∉ order := by
      obtain ⟨r, hr, hid⟩ := hpid
      exact fun hmem => ((mem_order h).mp hmem).2 r hr hid
    rw [if_neg hkept] at hplace
    have hnamed : pid ∈ (survey id parent records).offspring :=
      (htells.mem_offspring pid).mpr (.inl hpid)
    rw [if_pos hpid, ← Std.HashMap.getElem?_eq_some_getD hnamed]
    exact hplace
  · rw [if_neg hpid]
    refine hplace.trans (ite_eq_left_iff.mpr fun hkept => Std.HashMap.getElem?_eq_none ?_)
    intro hmem
    rcases (htells.mem_offspring pid).mp hmem with hrecorded | hnamed
    · exact hpid hrecorded
    · exact hkept ((mem_order h).mpr ⟨hnamed, fun r hr hid => hpid ⟨r, hr, hid⟩⟩)

theorem contains_forest {pid : Pid} :
    ((survey id parent records).forest order).contains pid = true ↔ ∃ r ∈ records, id r = pid := by
  rw [contains, Std.HashMap.contains_eq_isSome_getElem?, getElem?_offspring_forest h]
  by_cases hpid : ∃ r ∈ records, id r = pid
  · simp [hpid]
  · simp [hpid]

theorem children?_forest (pid : Pid) :
    ((survey id parent records).forest order).children? pid
      = if ((survey id parent records).forest order).contains pid then
          some ((records.filter fun r => parent r = pid).map id)
        else none := by
  rw [children?, getElem?_offspring_forest h]
  by_cases hpid : ∃ r ∈ records, id r = pid
  · rw [if_pos hpid, if_pos ((contains_forest h).mpr hpid), Option.map_some,
      (tells_survey records).children]
  · rw [if_neg hpid, if_neg (hpid ∘ (contains_forest h).mp), Option.map_none]

theorem mem_roots_forest {pid : Pid} :
    pid ∈ ((survey id parent records).forest order).roots
      ↔ ∃ r ∈ records, id r = pid ∧ ∀ p ∈ records, id p ≠ parent r := by
  rw [Survey.forest, Std.TreeSet.mem_toList, (settled_order h).roots]
  simp only [(tells_survey records).children, mem_order h, List.mem_map, List.mem_filter,
    decide_eq_true_eq]
  constructor
  · intro ⟨given, ⟨_, hgiven⟩, r, ⟨hr, hparent⟩, hid⟩
    exact ⟨r, hr, hid, fun p hp => hparent ▸ hgiven p hp⟩
  · intro ⟨r, hr, hid, horphan⟩
    exact ⟨parent r, ⟨⟨r, hr, rfl⟩, horphan⟩, r, ⟨hr, rfl⟩, hid⟩

/-- Whatever the order in which the awaited ids are gone through, the forest is that of the
records. -/
theorem shows_forest : Shows id parent records ((survey id parent records).forest order) where
  find pid := (tells_survey records).entries pid
  contains _ := contains_forest h
  children := children?_forest h
  ascending := Std.TreeSet.ordered_toList.imp Pid.number_lt_of_compare
  roots _ := mem_roots_forest h

end Order

/-! ### Nothing but recorded ids -/

/-- Whatever a forest names has an entry. -/
structure Complete (forest : Forest ε) : Prop where
  contains : ∀ pid, forest.contains pid = true ↔ ∃ e, forest.find? pid = some e
  roots : ∀ pid ∈ forest.roots, ∃ e, forest.find? pid = some e
  children : ∀ pid children, forest.children? pid = some children →
    ∀ child ∈ children, ∃ e, forest.find? child = some e

section Shows

variable {forest : Forest ε} (h : Shows id parent records forest)

include h

theorem Shows.exists_find?_iff {pid : Pid} :
    (∃ e, forest.find? pid = some e) ↔ ∃ r ∈ records, id r = pid := by
  rw [← Option.isSome_iff_exists, h.find, List.getLast?_isSome]
  simp

theorem Shows.complete : Complete forest where
  contains pid := (h.contains pid).trans h.exists_find?_iff.symm
  roots pid hpid := by
    obtain ⟨r, hr, hid, -⟩ := (h.roots pid).mp hpid
    exact h.exists_find?_iff.mpr ⟨r, hr, hid⟩
  children pid children hchildren child hchild := by
    rw [h.children] at hchildren
    split at hchildren
    · cases hchildren
      obtain ⟨r, hr, hid⟩ := List.mem_map.mp hchild
      exact h.exists_find?_iff.mpr ⟨r, (List.mem_filter.mp hr).1, hid⟩
    · cases hchildren

/-- A parent that was not recorded has no place. -/
theorem Shows.unrecorded {pid : Pid} (hpid : ∀ r ∈ records, id r ≠ pid) :
    forest.contains pid = false ∧ forest.find? pid = none ∧ forest.children? pid = none := by
  have hcontains : forest.contains pid = false := by
    rw [Bool.eq_false_iff, Ne, h.contains]
    exact fun ⟨r, hr, hid⟩ => hpid r hr hid
  refine ⟨hcontains, ?_, ?_⟩
  · rw [h.find, List.getLast?_eq_none_iff, List.filter_eq_nil_iff]
    exact fun r hr => by simpa using hpid r hr
  · rw [h.children, hcontains]
    rfl

end Shows

/-- **The forest is that of the records, in whatever order the awaited ids are gone through**, and
nothing that was not recorded has a place in it. -/
theorem forest_of_any_order (id parent : ε → Pid) (records : List ε) (order : List Pid)
    (h : order.Perm (survey id parent records).awaited.toList) :
    Shows id parent records ((survey id parent records).forest order)
    ∧ Complete ((survey id parent records).forest order)
    ∧ ∀ pid, (∀ r ∈ records, id r ≠ pid) →
        ((survey id parent records).forest order).contains pid = false
        ∧ ((survey id parent records).forest order).find? pid = none
        ∧ ((survey id parent records).forest order).children? pid = none :=
  ⟨shows_forest h, (shows_forest h).complete, fun _ => (shows_forest h).unrecorded⟩

/-- Ids with the ids of their parents: two parents are never recorded, one is recorded behind its
child, one id comes twice, and one is its own parent. -/
def scattered : List (Pid × Pid) :=
  [(⟨30⟩, ⟨100⟩), (⟨4⟩, ⟨200⟩), (⟨31⟩, ⟨7⟩), (⟨7⟩, ⟨30⟩), (⟨4⟩, ⟨100⟩), (⟨5⟩, ⟨5⟩)]

theorem forest_of_scattered :
    [⟨200⟩, ⟨100⟩].Perm (survey Prod.fst Prod.snd scattered).awaited.toList
    ∧ Shows Prod.fst Prod.snd scattered
        ((survey Prod.fst Prod.snd scattered).forest [⟨200⟩, ⟨100⟩])
    ∧ ((survey Prod.fst Prod.snd scattered).forest [⟨200⟩, ⟨100⟩]).contains ⟨100⟩ = false := by
  have horder : [⟨200⟩, ⟨100⟩].Perm (survey Prod.fst Prod.snd scattered).awaited.toList :=
    .trans (by decide) (perm_awaited scattered).symm
  obtain ⟨hshows, -, hunrecorded⟩ := forest_of_any_order Prod.fst Prod.snd scattered _ horder
  exact ⟨horder, hshows, (hunrecorded ⟨100⟩ (by decide)).1⟩

/-! ### The forest of some records -/

theorem shows_ofRecords : Shows id parent records (ofRecords id parent records) :=
  shows_forest (.refl _)

@[simp]
theorem find?_ofRecords (records : List ε) (pid : Pid) :
    (ofRecords id parent records).find? pid = (records.filter fun r => id r = pid).getLast? :=
  shows_ofRecords.find pid

@[simp]
theorem contains_ofRecords {pid : Pid} :
    (ofRecords id parent records).contains pid = true ↔ ∃ r ∈ records, id r = pid :=
  shows_ofRecords.contains pid

/-- What is found is a record with the id that was looked for. -/
theorem mem_of_find?_ofRecords {pid : Pid} {r : ε}
    (h : (ofRecords id parent records).find? pid = some r) : r ∈ records ∧ id r = pid := by
  rw [find?_ofRecords] at h
  simpa using List.mem_of_getLast? h

/-- Every recorded id has an entry. -/
theorem exists_find?_ofRecords {r : ε} (hr : r ∈ records) :
    ∃ found, (ofRecords id parent records).find? (id r) = some found := by
  rw [← Option.isSome_iff_exists, find?_ofRecords, List.getLast?_isSome]
  exact List.ne_nil_of_mem (List.mem_filter.mpr ⟨hr, by simp⟩)

/-- A record whose id no other record has is found by it. -/
theorem find?_ofRecords_of_nodup (distinct : (records.map id).Nodup) {r : ε} (hr : r ∈ records) :
    (ofRecords id parent records).find? (id r) = some r := by
  obtain ⟨found, hfound⟩ : ∃ found, (ofRecords id parent records).find? (id r) = some found :=
    exists_find?_ofRecords hr
  obtain ⟨hmem, hid⟩ := mem_of_find?_ofRecords hfound
  rw [hfound, List.inj_on_of_nodup_map distinct hmem hr hid]

@[simp]
theorem mem_children_ofRecords {pid child : Pid} :
    child ∈ (ofRecords id parent records).children pid
      ↔ (∃ r ∈ records, id r = pid) ∧ ∃ r ∈ records, parent r = pid ∧ id r = child := by
  have hrecorded : (ofRecords id parent records).contains pid = true
      ↔ ∃ r ∈ records, id r = pid := contains_ofRecords
  rw [children, shows_ofRecords.children, ← hrecorded]
  by_cases hpid : (ofRecords id parent records).contains pid = true
  · simp [hpid, and_assoc]
  · simp [hpid]

@[simp]
theorem mem_roots_ofRecords {pid : Pid} :
    pid ∈ (ofRecords id parent records).roots
      ↔ ∃ r ∈ records, id r = pid ∧ ∀ p ∈ records, id p ≠ parent r :=
  shows_ofRecords.roots pid

theorem nodup_roots_ofRecords : (ofRecords id parent records).roots.Nodup := by
  refine shows_ofRecords.ascending.imp fun {a b} h heq => ?_
  rw [heq] at h
  exact UInt32.lt_irrefl b.number h

end Forest

end CompileCommands
