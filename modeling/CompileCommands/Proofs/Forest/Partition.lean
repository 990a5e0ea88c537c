/-
Every recorded id has one place.

Where no two records share an id, an id is a root or a child of one other id, and never both.
So there is at most one way down to it.  There is one just when the chain of its parents leaves
the records; a chain that does not has to come back to an id it has passed, since there are
only so many, and the ids of such a cycle are children of each other and of nothing else.
-/
import Mathlib.Data.List.Nodup
import Mathlib.Data.Set.Finite.Basic
import Mathlib.Order.WellFoundedSet
import CompileCommands.Proofs.Forest.Ancestry

namespace CompileCommands.Forest

variable {ε : Type} {id parent : ε → Pid} {records : List ε}

/-! ### Chains of parents -/

theorem Ancestor.mem {a r : ε} (h : Ancestor id parent records a r) : a ∈ records := by
  induction h with
  | direct hp _ => exact hp
  | further _ _ _ ih => exact ih

theorem Ancestor.trans {a b r : ε} (hab : Ancestor id parent records a b)
    (hbr : Ancestor id parent records b r) : Ancestor id parent records a r := by
  induction hbr with
  | direct hp hid => exact .further hab hp hid
  | further _ hp hid ih => exact .further ih hp hid

/-- The chain of parents from a record runs into a cycle. -/
def Caught (id parent : ε → Pid) (records : List ε) (r : ε) : Prop :=
  ∃ a, (a = r ∨ Ancestor id parent records a r) ∧ Ancestor id parent records a a

/-- A chain that leaves the records passes no cycle. -/
theorem Rooted.not_caught (distinct : (records.map id).Nodup) {r : ε}
    (h : Rooted id parent records r) : ¬ Caught id parent records r := by
  induction h with
  | @orphan r horphan =>
    intro ⟨a, ha, hcycle⟩
    have hnone : ∀ b, ¬ Ancestor id parent records b r := by
      intro b hb
      cases hb with
      | direct hp hid => exact horphan _ hp hid
      | further _ hp hid => exact horphan _ hp hid
    rcases ha with rfl | ha
    · exact hnone a hcycle
    · exact hnone a ha
  | @child p r hp hid _ ih =>
    intro ⟨a, ha, hcycle⟩
    have habove : Ancestor id parent records a r := by
      rcases ha with rfl | ha
      · exact hcycle
      · exact ha
    exact ih ⟨a, habove.of_parent distinct hp hid, hcycle⟩

/-- One record is above another whose chain of parents passes no cycle. -/
def Precedes (id parent : ε → Pid) (records : List ε) (a r : ε) : Prop :=
  Ancestor id parent records a r ∧ ¬ Caught id parent records r

instance : IsStrictOrder ε (Precedes id parent records) where
  irrefl a h := h.2 ⟨a, .inl rfl, h.1⟩
  trans _ _ _ hab hbr := ⟨hab.1.trans hbr.1, hbr.2⟩

/-- There are finitely many records, so a chain that passes no cycle leaves them. -/
theorem rooted_of_not_caught {r : ε} (hr : r ∈ records) (h : ¬ Caught id parent records r) :
    Rooted id parent records r := by
  have hfinite : {r | r ∈ records}.WellFoundedOn (Precedes id parent records) :=
    (List.finite_toSet records).wellFoundedOn
  refine hfinite.induction (P := fun r => ¬ Caught id parent records r → Rooted id parent records r)
    hr (fun r _ ih h => ?_) h
  by_cases hparent : ∃ p ∈ records, id p = parent r
  · obtain ⟨p, hp, hid⟩ := hparent
    have habove : Ancestor id parent records p r := .direct hp hid
    have hfree : ¬ Caught id parent records p := by
      intro ⟨a, ha, hcycle⟩
      refine h ⟨a, .inr ?_, hcycle⟩
      rcases ha with rfl | ha
      · exact habove
      · exact ha.trans habove
    exact .child hp hid (ih p hp ⟨habove, h⟩ hfree)
  · exact .orphan fun p hp hid => hparent ⟨p, hp, hid⟩

theorem rooted_iff_not_caught (distinct : (records.map id).Nodup) {r : ε} (hr : r ∈ records) :
    Rooted id parent records r ↔ ¬ Caught id parent records r :=
  ⟨Rooted.not_caught distinct, rooted_of_not_caught hr⟩

/-! ### Places -/

theorem nodup_children_ofRecords (distinct : (records.map id).Nodup) (pid : Pid) :
    ((ofRecords id parent records).children pid).Nodup := by
  rw [children, shows_ofRecords.children]
  split
  · exact distinct.sublist (List.filter_sublist.map id)
  · exact List.nodup_nil

/-- No id is a child of two others. -/
theorem eq_of_mem_children (distinct : (records.map id).Nodup) {a b child : Pid}
    (ha : child ∈ (ofRecords id parent records).children a)
    (hb : child ∈ (ofRecords id parent records).children b) : a = b := by
  obtain ⟨-, q, hq, hqparent, hqid⟩ := mem_children_ofRecords.mp ha
  obtain ⟨-, r, hr, hrparent, hrid⟩ := mem_children_ofRecords.mp hb
  have hqr : q = r := List.inj_on_of_nodup_map distinct hq hr (hqid.trans hrid.symm)
  rw [← hqparent, ← hrparent, hqr]

/-- No root is a child. -/
theorem notMem_children_of_mem_roots (distinct : (records.map id).Nodup) {above pid : Pid}
    (hroot : pid ∈ (ofRecords id parent records).roots) :
    pid ∉ (ofRecords id parent records).children above := by
  intro hchild
  obtain ⟨r, hr, hrid, horphan⟩ := mem_roots_ofRecords.mp hroot
  obtain ⟨⟨p, hp, hpid⟩, q, hq, hqparent, hqid⟩ := mem_children_ofRecords.mp hchild
  have hqr : q = r := List.inj_on_of_nodup_map distinct hq hr (hqid.trans hrid.symm)
  exact horphan p hp (by rw [hpid, ← hqparent, hqr])

/-- The ids in the order of their places: the roots, and the children of every id. -/
def places (forest : Forest ε) : List Pid :=
  forest.roots ++ forest.offspring.keys.flatMap forest.children

theorem mem_places_ofRecords {pid : Pid} :
    pid ∈ (ofRecords id parent records).places ↔ ∃ r ∈ records, id r = pid := by
  rw [places, List.mem_append, List.mem_flatMap]
  constructor
  · intro hplace
    rcases hplace with hroot | ⟨above, -, hchild⟩
    · obtain ⟨r, hr, hid, -⟩ := mem_roots_ofRecords.mp hroot
      exact ⟨r, hr, hid⟩
    · obtain ⟨-, r, hr, -, hid⟩ := mem_children_ofRecords.mp hchild
      exact ⟨r, hr, hid⟩
  · intro ⟨r, hr, hid⟩
    by_cases hparent : ∃ p ∈ records, id p = parent r
    · refine .inr ⟨parent r, ?_, mem_children_ofRecords.mpr ⟨hparent, r, hr, rfl, hid⟩⟩
      exact Std.HashMap.mem_keys.mpr (contains_ofRecords.mpr hparent)
    · exact .inl (mem_roots_ofRecords.mpr ⟨r, hr, hid, fun p hp h => hparent ⟨p, hp, h⟩⟩)

/-- Every recorded id has one place. -/
theorem perm_places_ofRecords (distinct : (records.map id).Nodup) :
    (ofRecords id parent records).places.Perm (records.map id) := by
  have hnodup : (ofRecords id parent records).places.Nodup := by
    refine List.nodup_append'.mpr ⟨nodup_roots_ofRecords, ?_, ?_⟩
    · refine List.nodup_flatMap.mpr ⟨fun pid _ => nodup_children_ofRecords distinct pid, ?_⟩
      refine Std.HashMap.nodup_keys.imp fun hne child ha hb => ?_
      exact hne (eq_of_mem_children distinct ha hb)
    · intro pid hroot hplace
      obtain ⟨above, -, hchild⟩ := List.mem_flatMap.mp hplace
      exact notMem_children_of_mem_roots distinct hroot hchild
  refine (List.perm_ext_iff_of_nodup hnodup distinct).mpr fun pid => ?_
  rw [mem_places_ofRecords, List.mem_map]

/-! ### Ways -/

/-- A way down to an id: it starts at a root and goes on to a child every time. -/
inductive Way (forest : Forest ε) : List Pid → Pid → Prop
  | root {pid : Pid} (h : pid ∈ forest.roots) : Way forest [pid] pid
  | child {way : List Pid} {pid child : Pid} (h : Way forest way pid)
      (hchild : child ∈ forest.children pid) : Way forest (way ++ [child]) child

/-- There is a way to the ids whose chain of parents leaves the records. -/
theorem exists_way_iff {pid : Pid} :
    (∃ way, (ofRecords id parent records).Way way pid)
      ↔ ∃ r ∈ records, id r = pid ∧ Rooted id parent records r := by
  constructor
  · intro ⟨way, h⟩
    induction h with
    | root hroot =>
      obtain ⟨r, hr, hid, horphan⟩ := mem_roots_ofRecords.mp hroot
      exact ⟨r, hr, hid, .orphan horphan⟩
    | child _ hchild ih =>
      obtain ⟨p, hp, hpid, hrooted⟩ := ih
      obtain ⟨-, r, hr, hparent, hid⟩ := mem_children_ofRecords.mp hchild
      exact ⟨r, hr, hid, .child hp (hpid.trans hparent.symm) hrooted⟩
  · intro ⟨r, hr, hid, hrooted⟩
    subst hid
    induction hrooted with
    | @orphan r horphan => exact ⟨_, .root (mem_roots_ofRecords.mpr ⟨r, hr, rfl, horphan⟩)⟩
    | @child p r hp hid _ ih =>
      obtain ⟨way, hway⟩ := ih hp
      exact ⟨_, hway.child (mem_children_ofRecords.mpr ⟨⟨p, hp, rfl⟩, r, hr, hid.symm, rfl⟩)⟩

/-- There are no two ways to one id. -/
theorem Way.unique (distinct : (records.map id).Nodup) {way : List Pid} {pid : Pid}
    (h : (ofRecords id parent records).Way way pid) :
    ∀ {other}, (ofRecords id parent records).Way other pid → way = other := by
  induction h with
  | root hroot =>
    intro other hother
    cases hother with
    | root => rfl
    | child _ hchild => exact absurd hchild (notMem_children_of_mem_roots distinct hroot)
  | child _ hchild ih =>
    intro other hother
    cases hother with
    | root hroot => exact absurd hchild (notMem_children_of_mem_roots distinct hroot)
    | child h hchild' =>
      cases eq_of_mem_children distinct hchild hchild'
      rw [ih h]

/-! ### The whole forest -/

/-- A forest that has one place for every record. -/
structure Partition (id parent : ε → Pid) (records : List ε) (forest : Forest ε) : Prop where
  /-- Every recorded id, and no other, occurs once among the roots and all the children. -/
  once : forest.places.Perm (records.map id)
  /-- There is a way to an id exactly if following parents from it leaves the records. -/
  reachable : ∀ pid,
    (∃ way, forest.Way way pid) ↔ ∃ r ∈ records, id r = pid ∧ Rooted id parent records r
  /-- What does not leave the records is caught in a cycle. -/
  uncaught : ∀ r ∈ records, Rooted id parent records r ↔ ¬ Caught id parent records r
  /-- There is at most one way to an id, and so from one root only. -/
  unique : ∀ pid way other, forest.Way way pid → forest.Way other pid → way = other
  /-- Without cycles, a walk on which every visit fails visits each record once. -/
  exhaustive : (∀ r ∈ records, ¬ Ancestor id parent records r r) →
    ∀ {ρ ω : Type} (visit : ε → Except ρ (List ω)), (∀ e, ∃ reason, visit e = .error reason) →
      ((forest.walk visit).visited.filterMap forest.find?).Perm records

/-- **The forest of records with distinct ids is a partition.** -/
theorem partition_of_distinct (id parent : ε → Pid) (records : List ε)
    (distinct : (records.map id).Nodup) :
    Partition id parent records (ofRecords id parent records) where
  once := perm_places_ofRecords distinct
  reachable _ := exists_way_iff
  uncaught _ hr := rooted_iff_not_caught distinct hr
  unique _ _ _ hway hother := hway.unique distinct hother
  exhaustive hacyclic ρ ω visit hfails := by
    have hrecords : records.Nodup := .of_map id distinct
    refine (List.perm_ext_iff_of_nodup (visits_of_distinct distinct).1 hrecords).mpr fun r => ?_
    rw [(visits_of_distinct distinct).2]
    refine ⟨And.left, fun hr => ⟨hr, rooted_of_not_caught hr ?_, fun a _ => hfails a⟩⟩
    intro ⟨a, ha, hcycle⟩
    exact hacyclic a hcycle.mem hcycle

/-- A chain of three, recorded from the bottom to the top. -/
def chained : List (Pid × Pid) := [(⟨32⟩, ⟨31⟩), (⟨31⟩, ⟨30⟩), (⟨30⟩, ⟨1⟩)]

/-- The chain, a record that is its own parent, and two that are each other's. -/
def tangled : List (Pid × Pid) := chained ++ [(⟨5⟩, ⟨5⟩), (⟨6⟩, ⟨7⟩), (⟨7⟩, ⟨6⟩)]

theorem rooted_of_mem_chained :
    ∀ r ∈ chained, Rooted Prod.fst Prod.snd chained r := by
  have htop : Rooted Prod.fst Prod.snd chained (⟨30⟩, ⟨1⟩) := .orphan (by decide)
  have hmiddle : Rooted Prod.fst Prod.snd chained (⟨31⟩, ⟨30⟩) := .child (by decide) rfl htop
  have hbottom : Rooted Prod.fst Prod.snd chained (⟨32⟩, ⟨31⟩) := .child (by decide) rfl hmiddle
  intro r hr
  simp only [chained, List.mem_cons, List.not_mem_nil, or_false] at hr
  rcases hr with rfl | rfl | rfl
  · exact hbottom
  · exact hmiddle
  · exact htop

theorem partition_of_tangled :
    ((tangled.map Prod.fst).Nodup
      ∧ Partition Prod.fst Prod.snd tangled (ofRecords Prod.fst Prod.snd tangled)
      ∧ ¬ ∃ way, (ofRecords Prod.fst Prod.snd tangled).Way way ⟨6⟩)
    ∧ (chained.map Prod.fst).Nodup
      ∧ (∀ r ∈ chained, ¬ Ancestor Prod.fst Prod.snd chained r r)
      ∧ (((ofRecords Prod.fst Prod.snd chained).walk fun _ => (.error () : Except Unit (List Unit))
          ).visited.filterMap (ofRecords Prod.fst Prod.snd chained).find?).Perm chained := by
  have hpartition := partition_of_distinct Prod.fst Prod.snd tangled (by decide)
  have hdown : Ancestor Prod.fst Prod.snd tangled (⟨6⟩, ⟨7⟩) (⟨7⟩, ⟨6⟩) :=
    .direct (by decide) rfl
  have hcycle : Ancestor Prod.fst Prod.snd tangled (⟨6⟩, ⟨7⟩) (⟨6⟩, ⟨7⟩) :=
    .further hdown (by decide) rfl
  have hacyclic : ∀ r ∈ chained, ¬ Ancestor Prod.fst Prod.snd chained r r := fun r hr hself =>
    (rooted_of_mem_chained r hr).not_caught (by decide) ⟨r, .inl rfl, hself⟩
  refine ⟨⟨by decide, hpartition, fun hway => ?_⟩, by decide, hacyclic, ?_⟩
  · obtain ⟨r, hr, hid, hrooted⟩ := (hpartition.reachable _).mp hway
    have honly : ∀ r ∈ tangled, r.1 = ⟨6⟩ → r = (⟨6⟩, ⟨7⟩) := by decide
    cases honly r hr hid
    exact (hpartition.uncaught _ hr).mp hrooted ⟨_, .inl rfl, hcycle⟩
  · exact (partition_of_distinct Prod.fst Prod.snd chained (by decide)).exhaustive hacyclic _
      fun _ => ⟨(), rfl⟩

end CompileCommands.Forest
