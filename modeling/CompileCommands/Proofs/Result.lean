/-
What a sequence of steps establishes that may fail.

A sequence that succeeds has succeeded at every step, so a hypothesis about the whole is taken
apart into hypotheses about the steps, in their order.
-/
import Mathlib.Data.List.Forall2

namespace CompileCommands

variable {α β ε : Type}

theorem bind_eq_ok_iff {first : Except ε α} {next : α → Except ε β} {b : β} :
    first >>= next = .ok b ↔ ∃ a, first = .ok a ∧ next a = .ok b := by
  cases first with
  | error cause =>
    refine ⟨fun h => ?_, fun h => ?_⟩
    · cases h
    · obtain ⟨a, ha, -⟩ := h
      cases ha
  | ok a =>
    refine ⟨fun h => ⟨a, rfl, h⟩, fun h => ?_⟩
    obtain ⟨a', ha, hb⟩ := h
    cases ha
    exact hb

theorem bind_eq_error_iff {first : Except ε α} {next : α → Except ε β} {error : ε} :
    first >>= next = .error error
      ↔ first = .error error ∨ ∃ a, first = .ok a ∧ next a = .error error := by
  cases first with
  | error cause =>
    refine ⟨fun h => .inl (Except.error.inj h ▸ rfl), fun h => ?_⟩
    rcases h with h | ⟨a, ha, -⟩
    · rw [Except.error.inj h]
      rfl
    · cases ha
  | ok a =>
    refine ⟨fun h => .inr ⟨a, rfl, h⟩, fun h => ?_⟩
    rcases h with h | ⟨a', ha, herror⟩
    · cases h
    · cases ha
      exact herror

theorem map_eq_ok_iff {f : α → β} {first : Except ε α} {b : β} :
    f <$> first = .ok b ↔ ∃ a, first = .ok a ∧ f a = b := by
  cases first with
  | error cause =>
    refine ⟨fun h => ?_, fun h => ?_⟩
    · cases h
    · obtain ⟨a, ha, -⟩ := h
      cases ha
  | ok a =>
    refine ⟨fun h => ⟨a, rfl, Except.ok.inj h⟩, fun h => ?_⟩
    obtain ⟨a', ha, hb⟩ := h
    cases ha
    rw [← hb]
    rfl

/-- The steps of a list succeed if each of them does, and give the list of what comes of them. -/
theorem mapM_eq_ok_iff {f : α → Except ε β} {xs : List α} {ys : List β} :
    xs.mapM f = .ok ys ↔ List.Forall₂ (fun x y => f x = .ok y) xs ys := by
  induction xs generalizing ys with
  | nil =>
    rw [List.mapM_nil, List.forall₂_nil_left_iff]
    exact ⟨fun h => (Except.ok.inj h).symm, fun h => h ▸ rfl⟩
  | cons x xs ih =>
    rw [List.mapM_cons, bind_eq_ok_iff, List.forall₂_cons_left_iff]
    constructor
    · intro h
      obtain ⟨y, hy, hothers⟩ := h
      obtain ⟨rest, hrest, hys⟩ := bind_eq_ok_iff.mp hothers
      exact ⟨y, rest, hy, ih.mp hrest, (Except.ok.inj hys).symm⟩
    · intro h
      obtain ⟨y, rest, hy, hrest, rfl⟩ := h
      exact ⟨y, hy, bind_eq_ok_iff.mpr ⟨rest, ih.mpr hrest, rfl⟩⟩

theorem exists_mapM_eq_ok_iff {f : α → Except ε β} {xs : List α} :
    (∃ ys, xs.mapM f = .ok ys) ↔ ∀ x ∈ xs, ∃ y, f x = .ok y := by
  induction xs with
  | nil => exact ⟨fun _ x hx => (List.not_mem_nil hx).elim, fun _ => ⟨[], rfl⟩⟩
  | cons x xs ih =>
    rw [List.forall_mem_cons, ← ih]
    simp only [mapM_eq_ok_iff, List.forall₂_cons_left_iff]
    constructor
    · intro h
      obtain ⟨ys, y, rest, hy, hrest, -⟩ := h
      exact ⟨⟨y, hy⟩, rest, hrest⟩
    · intro h
      obtain ⟨⟨y, hy⟩, rest, hrest⟩ := h
      exact ⟨y :: rest, y, rest, hy, hrest, rfl⟩

/-- The steps of a list fail as the first of them fails that does. -/
theorem mapM_eq_error_iff {f : α → Except ε β} {xs : List α} {error : ε} :
    xs.mapM f = .error error
      ↔ ∃ before x after, xs = before ++ x :: after ∧ (∀ y ∈ before, ∃ z, f y = .ok z)
        ∧ f x = .error error := by
  induction xs with
  | nil =>
    constructor
    · intro h
      cases h
    · intro h
      obtain ⟨before, x, after, hxs, -⟩ := h
      exact absurd hxs.symm (List.append_ne_nil_of_right_ne_nil before (List.cons_ne_nil x after))
  | cons x xs ih =>
    rw [List.mapM_cons, bind_eq_error_iff]
    constructor
    · intro h
      rcases h with hfirst | ⟨y, hy, hrest⟩
      · exact ⟨[], x, xs, rfl, by simp, hfirst⟩
      · rcases bind_eq_error_iff.mp hrest with hrest | ⟨ys, -, hdone⟩
        · obtain ⟨before, x', after, rfl, hbefore, herror⟩ := ih.mp hrest
          refine ⟨x :: before, x', after, rfl, fun z hz => ?_, herror⟩
          rcases List.mem_cons.mp hz with rfl | hz
          · exact ⟨y, hy⟩
          · exact hbefore z hz
        · cases hdone
    · intro h
      obtain ⟨before, x', after, hxs, hbefore, herror⟩ := h
      cases before with
      | nil =>
        cases hxs
        exact .inl herror
      | cons first before =>
        cases hxs
        obtain ⟨y, hy⟩ := hbefore x (by simp)
        refine .inr ⟨y, hy, bind_eq_error_iff.mpr (.inl (ih.mpr ?_))⟩
        exact ⟨before, x', after, rfl, fun z hz => hbefore z (by simp [hz]), herror⟩

/-- Whatever comes of the steps of a list comes of one of them. -/
theorem mem_of_mapM_eq_ok {f : α → Except ε β} {xs : List α} {ys : List β}
    (h : xs.mapM f = .ok ys) : ∀ y ∈ ys, ∃ x ∈ xs, f x = .ok y := by
  induction xs generalizing ys with
  | nil =>
    intro y hy
    cases h
    cases hy
  | cons x xs ih =>
    intro y hy
    rw [List.mapM_cons] at h
    obtain ⟨first, hfirst, hothers⟩ := bind_eq_ok_iff.mp h
    obtain ⟨rest, hrest, hys⟩ := bind_eq_ok_iff.mp hothers
    cases hys
    rcases List.mem_cons.mp hy with rfl | hy
    · exact ⟨x, by simp, hfirst⟩
    · obtain ⟨x', hx', hy⟩ := ih hrest y hy
      exact ⟨x', by simp [hx'], hy⟩

/-- Steps that all succeed give the list of what comes of each. -/
theorem mapM_eq_ok_of_forall {f : α → Except ε β} {g : α → β} {xs : List α}
    (h : ∀ x ∈ xs, f x = .ok (g x)) : xs.mapM f = .ok (xs.map g) := by
  induction xs with
  | nil => rfl
  | cons x xs ih =>
    rw [List.mapM_cons, h x (by simp), ih fun y hy => h y (by simp [hy])]
    rfl

/-- Steps that can fail in one way only fail in this way if one of them does. -/
theorem mapM_eq_error {f : α → Except ε β} {error : ε} {xs : List α}
    (h : ∀ x ∈ xs, (∃ y, f x = .ok y) ∨ f x = .error error)
    (hfails : ∃ x ∈ xs, f x = .error error) : xs.mapM f = .error error := by
  induction xs with
  | nil =>
    obtain ⟨x, hx, -⟩ := hfails
    cases hx
  | cons x xs ih =>
    rw [List.mapM_cons]
    rcases h x (by simp) with ⟨y, hy⟩ | herror
    · have hrest : xs.mapM f = .error error := by
        refine ih (fun x' hx' => h x' (by simp [hx'])) ?_
        obtain ⟨x', hx', herror⟩ := hfails
        rcases List.mem_cons.mp hx' with rfl | hx'
        · rw [hy] at herror
          cases herror
        · exact ⟨x', hx', herror⟩
      rw [hy, hrest]
      rfl
    · rw [herror]
      rfl

end CompileCommands
