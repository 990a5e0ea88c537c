/-
Who started whom, and what a walk makes of it.

Ancestry is said of the records themselves and knows nothing of forests: a record is an
ancestor of another when following parents leads from the one to the other, and a record is
rooted when following parents from it leaves the records after finitely many steps.  A record
that is not rooted is caught in a cycle.

Where no two records share an id, these are what the walk turns on: it comes to a record just
when the record is rooted and none of its ancestors succeeds.
-/
import CompileCommands.Proofs.Forest.Growth
import CompileCommands.Proofs.Forest.Walk

namespace CompileCommands.Forest

variable {ε ρ ω : Type}

/-- Following parents from a record leads to an id that no record has. -/
inductive Rooted (id parent : ε → Pid) (records : List ε) : ε → Prop
  | orphan {r : ε} (h : ∀ p ∈ records, id p ≠ parent r) : Rooted id parent records r
  | child {p r : ε} (hp : p ∈ records) (hid : id p = parent r)
      (h : Rooted id parent records p) : Rooted id parent records r

/-- Following parents from the second record leads to the first in one step or more. -/
inductive Ancestor (id parent : ε → Pid) (records : List ε) : ε → ε → Prop
  | direct {p r : ε} (hp : p ∈ records) (hid : id p = parent r) : Ancestor id parent records p r
  | further {a p r : ε} (h : Ancestor id parent records a p) (hp : p ∈ records)
      (hid : id p = parent r) : Ancestor id parent records a r

variable {id parent : ε → Pid} {records : List ε}

/-- The ancestors of a record are its parent and the ancestors of its parent. -/
theorem Ancestor.of_parent (distinct : (records.map id).Nodup) {a p r : ε} (hp : p ∈ records)
    (hid : id p = parent r) (h : Ancestor id parent records a r) :
    a = p ∨ Ancestor id parent records a p := by
  cases h with
  | direct ha haid =>
    exact .inl (List.inj_on_of_nodup_map distinct ha hp (haid.trans hid.symm))
  | further hq hqmem hqid =>
    have hqp : _ = p := List.inj_on_of_nodup_map distinct hqmem hp (hqid.trans hid.symm)
    exact .inr (hqp ▸ hq)

/-- A record is open to a walk when it is rooted and no visit of an ancestor succeeds. -/
structure Open (id parent : ε → Pid) (records : List ε) (visit : ε → Except ρ (List ω))
    (r : ε) : Prop where
  rooted : Rooted id parent records r
  uncovered : ∀ a, Ancestor id parent records a r → ∃ reason, visit a = .error reason

variable {visit : ε → Except ρ (List ω)}

theorem Open.of_orphan {r : ε} (h : ∀ p ∈ records, id p ≠ parent r) :
    Open id parent records visit r where
  rooted := .orphan h
  uncovered a ha := by
    cases ha with
    | direct hp hid => exact absurd hid (h _ hp)
    | further _ hp hid => exact absurd hid (h _ hp)

theorem Open.of_parent (distinct : (records.map id).Nodup) {p r : ε} {reason : ρ}
    (hp : p ∈ records) (hid : id p = parent r) (hopen : Open id parent records visit p)
    (hvisit : visit p = .error reason) : Open id parent records visit r where
  rooted := .child hp hid hopen.rooted
  uncovered a ha := by
    rcases ha.of_parent distinct hp hid with rfl | ha
    · exact ⟨reason, hvisit⟩
    · exact hopen.uncovered a ha

/-- Whatever the walk comes to is open. -/
theorem open_of_reached (distinct : (records.map id).Nodup) {pid : Pid}
    (h : Reached (ofRecords id parent records) visit pid) :
    ∀ r ∈ records, id r = pid → Open id parent records visit r := by
  induction h with
  | root hroot =>
    intro r hr hid
    obtain ⟨q, hq, hqid, horphan⟩ := mem_roots_ofRecords.mp hroot
    have hqr : q = r := List.inj_on_of_nodup_map distinct hq hr (hqid.trans hid.symm)
    exact .of_orphan (hqr ▸ horphan)
  | child _ hfind hvisit hchild ih =>
    intro r hr hid
    obtain ⟨hp, hpid⟩ := mem_of_find?_ofRecords hfind
    obtain ⟨-, q, hq, hqparent, hqid⟩ := mem_children_ofRecords.mp hchild
    have hqr : q = r := List.inj_on_of_nodup_map distinct hq hr (hqid.trans hid.symm)
    subst hqr
    exact .of_parent distinct hp (hpid.trans hqparent.symm) (ih _ hp hpid) hvisit

/-- The walk comes to every open record. -/
theorem reached_of_open (distinct : (records.map id).Nodup) {r : ε} (hr : r ∈ records)
    (hopen : Open id parent records visit r) :
    Reached (ofRecords id parent records) visit (id r) := by
  -- The induction goes down the chain of parents, whose visits all fail.
  obtain ⟨hrooted, huncovered⟩ := hopen
  induction hrooted with
  | @orphan r h => exact .root (mem_roots_ofRecords.mpr ⟨r, hr, rfl, h⟩)
  | @child p r hp hid _ ih =>
    have hreached := ih hp fun a ha => huncovered a (.further ha hp hid)
    obtain ⟨reason, hvisit⟩ := huncovered p (.direct hp hid)
    exact .child hreached (find?_ofRecords_of_nodup distinct hp) hvisit
      (mem_children_ofRecords.mpr ⟨⟨p, hp, rfl⟩, r, hr, hid.symm, rfl⟩)

/-- No record is visited twice, whether ids repeat or not. -/
theorem nodup_visits :
    (((ofRecords id parent records).walk visit).visited.filterMap
      (ofRecords id parent records).find?).Nodup := by
  refine List.Nodup.filterMap ?_ nodup_visited_walk
  intro a b r ha hb
  exact (mem_of_find?_ofRecords ha).2.symm.trans (mem_of_find?_ofRecords hb).2

/-- **Among records with distinct ids a walk visits the open ones, each of them once.** -/
theorem visits_of_distinct (distinct : (records.map id).Nodup) :
    (((ofRecords id parent records).walk visit).visited.filterMap
        (ofRecords id parent records).find?).Nodup
      ∧ ∀ r, r ∈ ((ofRecords id parent records).walk visit).visited.filterMap
            (ofRecords id parent records).find?
          ↔ r ∈ records ∧ Open id parent records visit r := by
  refine ⟨nodup_visits, fun r => ?_⟩
  rw [List.mem_filterMap]
  constructor
  · intro h
    obtain ⟨pid, hpid, hfind⟩ := h
    obtain ⟨hr, hid⟩ := mem_of_find?_ofRecords hfind
    exact ⟨hr, open_of_reached distinct (mem_visited_walk.mp hpid).1 r hr hid⟩
  · intro h
    obtain ⟨hr, hopen⟩ := h
    have hfind : (ofRecords id parent records).find? (id r) = some r :=
      find?_ofRecords_of_nodup distinct hr
    exact ⟨id r, mem_visited_walk.mpr ⟨reached_of_open distinct hr hopen, r, hfind⟩, hfind⟩

/-! ### The order of the records

Nothing above asks where a record stands among the others.
-/

section Reordered

variable {reordered : List ε}

theorem Rooted.of_reordered (h : ∀ r, r ∈ reordered ↔ r ∈ records) {r : ε}
    (hrooted : Rooted id parent reordered r) : Rooted id parent records r := by
  induction hrooted with
  | orphan horphan => exact .orphan fun p hp => horphan p ((h p).mpr hp)
  | child hp hid _ ih => exact .child ((h _).mp hp) hid ih

theorem Ancestor.of_reordered (h : ∀ r, r ∈ reordered ↔ r ∈ records) {a r : ε}
    (hancestor : Ancestor id parent reordered a r) : Ancestor id parent records a r := by
  induction hancestor with
  | direct hp hid => exact .direct ((h _).mp hp) hid
  | further _ hp hid ih => exact .further ih ((h _).mp hp) hid

theorem Open.of_reordered (h : ∀ r, r ∈ reordered ↔ r ∈ records) {r : ε}
    (hopen : Open id parent reordered visit r) : Open id parent records visit r where
  rooted := hopen.rooted.of_reordered h
  uncovered a ha := hopen.uncovered a (ha.of_reordered fun p => (h p).symm)

/-- **The order of the records decides at most the order of the visits.** -/
theorem perm_visits_of_perm (distinct : (records.map id).Nodup) (h : reordered.Perm records) :
    (((ofRecords id parent reordered).walk visit).visited.filterMap
        (ofRecords id parent reordered).find?).Perm
      (((ofRecords id parent records).walk visit).visited.filterMap
        (ofRecords id parent records).find?) := by
  have hdistinct : (reordered.map id).Nodup := (h.map id).nodup_iff.mpr distinct
  refine (List.perm_ext_iff_of_nodup nodup_visits nodup_visits).mpr fun r => ?_
  rw [(visits_of_distinct hdistinct).2, (visits_of_distinct distinct).2, h.mem_iff]
  refine and_congr_right fun _ => ⟨fun hopen => ?_, fun hopen => ?_⟩
  · exact hopen.of_reordered fun p => h.mem_iff
  · exact hopen.of_reordered fun p => h.mem_iff.symm

end Reordered

end CompileCommands.Forest
