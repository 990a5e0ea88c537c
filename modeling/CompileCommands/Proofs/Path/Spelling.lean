/-
The spellings of one path.

Some letters of a path can be left out: a slash next to a slash, a `.` behind a slash, and a slash
at the end.  Paths that become one path in this way are the same, and no others are.

Leaving out keeps the components because a path can be cut at any slash, and what stands on one side
of the cut means what it means beside any other text.  For the converse every path is shortened as
far as possible, to a spelling that its components determine.
-/
import Mathlib.Logic.Relation
import CompileCommands.Path
import CompileCommands.Proofs.Text.Pieces

namespace CompileCommands.Path

/-! ### Leaving out -/

/-- The second text is the first without letters that mean nothing in a path. -/
inductive Shortens : List Char → List Char → Prop
  /-- One of two slashes. -/
  | slash (front back : List Char) :
      Shortens (front ++ ['/', '/'] ++ back) (front ++ ['/'] ++ back)
  /-- A `.` between slashes. -/
  | inner (front back : List Char) :
      Shortens (front ++ ['/', '.', '/'] ++ back) (front ++ ['/'] ++ back)
  /-- A `.` behind the last slash. -/
  | final (front : List Char) : Shortens (front ++ ['/', '.']) (front ++ ['/'])
  /-- A slash at the end, unless it is the whole path. -/
  | trailing (front : List Char) (ne_nil : front ≠ []) : Shortens (front ++ ['/']) front

/-- Two paths that can be shortened to one. -/
def Respells (p q : Path) : Prop :=
  Relation.Join (Relation.ReflTransGen Shortens) p.text.toList q.text.toList

/-! ### What is left out means nothing -/

/-- The path with the given letters. -/
def ofLetters (letters : List Char) : Path := ⟨String.ofList letters⟩

@[simp]
theorem toList_text_ofLetters (letters : List Char) : (ofLetters letters).text.toList = letters :=
  String.toList_ofList

@[simp] theorem ofLetters_toList (p : Path) : ofLetters p.text.toList = p := by
  rw [ofLetters, String.ofList_toList]

/-- The components of a text, wherever it stands in a path. -/
def stepsOf (text : List Char) : List Component :=
  (Text.pieces '/' text).filterMap Component.ofPiece?

/-- The start of a path is decided before its first slash. -/
theorem leading_append_slash (front back : List Char) :
    (ofLetters (front ++ '/' :: back)).leading = (ofLetters (front ++ ['/'])).leading := by
  have habsolute : (ofLetters (front ++ '/' :: back)).isAbsolute
      = (ofLetters (front ++ ['/'])).isAbsolute := by
    cases front <;> simp [isAbsolute]
  simp only [leading, habsolute, toList_text_ofLetters, Text.head?_pieces_append]

/-- A slash at the end decides nothing, unless it is the whole path. -/
theorem leading_trailing {front : List Char} (h : front ≠ []) :
    (ofLetters (front ++ ['/'])).leading = (ofLetters front).leading := by
  have habsolute : (ofLetters (front ++ ['/'])).isAbsolute = (ofLetters front).isAbsolute := by
    obtain ⟨c, rest, rfl⟩ := List.exists_cons_of_ne_nil h
    simp [isAbsolute]
  simp only [leading, habsolute, toList_text_ofLetters, Text.head?_pieces_append]

/-- A path is cut at a slash. -/
@[simp]
theorem components_append_slash (front back : List Char) :
    (ofLetters (front ++ '/' :: back)).components
      = (ofLetters (front ++ ['/'])).leading ++ stepsOf front ++ stepsOf back := by
  rw [components, leading_append_slash, toList_text_ofLetters, Text.pieces_append,
    List.filterMap_append, List.append_assoc]
  rfl

theorem components_eq_of_shortens {text shorter : List Char} (h : Shortens text shorter) :
    (ofLetters text).components = (ofLetters shorter).components := by
  -- Both texts are cut at the slash that stays, and have the same steps on either side of it.
  cases h with
  | slash front back =>
    simp only [List.append_assoc, List.cons_append, List.nil_append]
    rw [components_append_slash, components_append_slash]
    rfl
  | inner front back =>
    simp only [List.append_assoc, List.cons_append, List.nil_append]
    rw [components_append_slash, components_append_slash]
    rfl
  | final front =>
    rw [components_append_slash, components_append_slash]
    rfl
  | trailing _ ne_nil =>
    have hempty : stepsOf [] = [] := rfl
    rw [components_append_slash, leading_trailing ne_nil, hempty, List.append_nil, components,
      toList_text_ofLetters]
    rfl

theorem components_eq_of_respells {p q : Path} (h : p.Respells q) :
    p.components = q.components := by
  have hshorter : ∀ {text shorter : List Char}, Relation.ReflTransGen Shortens text shorter →
      (ofLetters text).components = (ofLetters shorter).components := by
    intro text shorter hsteps
    induction hsteps with
    | refl => rfl
    | tail _ hstep ih => exact ih.trans (components_eq_of_shortens hstep)
  obtain ⟨shortest, hp, hq⟩ := h
  rw [← ofLetters_toList p, ← ofLetters_toList q, hshorter hp, hshorter hq]

/-! ### The shortest spelling -/

/-- How a component is written.  No letters stand for the root, only the slash behind them. -/
def Component.letters : Component → List Char
  | root => []
  | here => ['.']
  | up => ['.', '.']
  | name text => text.toList

/-- Steps written behind the start of a path. -/
def behind (steps : List (List Char)) : List Char := steps.flatMap ('/' :: ·)

/-- A path of a start and steps behind it.  The root alone is written as a slash. -/
def spell (start : List Char) (steps : List Component) : List Char :=
  if start = [] ∧ steps = [] then ['/'] else start ++ behind (steps.map Component.letters)

/-- The shortest text with the given components. -/
def shortest : List Component → List Char
  | [] => []
  | first :: steps => spell first.letters steps

theorem intercalate_slash (piece : List Char) (more : List (List Char)) :
    ['/'].intercalate (piece :: more) = piece ++ behind more := by
  induction more generalizing piece with
  | nil => simp [behind]
  | cons next more ih => rw [List.intercalate_cons_cons, ih]; simp [behind]

/-- The letters of a path are its first piece and the pieces behind it. -/
theorem toList_text_of_pieces {p : Path} {head : List Char} {more : List (List Char)}
    (h : Text.pieces '/' p.text.toList = head :: more) : p.text.toList = head ++ behind more := by
  rw [← intercalate_slash, ← h, Text.intercalate_pieces]

theorem letters_of_ofPiece? {piece : List Char} {component : Component}
    (h : Component.ofPiece? piece = some component) : component.letters = piece := by
  unfold Component.ofPiece? at h
  split at h
  · cases h
  · split at h
    · rename_i hup
      cases h
      exact hup.symm
    · cases h
      exact String.toList_ofList

theorem ofPiece?_eq_none_iff {piece : List Char} :
    Component.ofPiece? piece = none ↔ piece = [] ∨ piece = ['.'] := by
  unfold Component.ofPiece?
  split
  · simp_all
  · split <;> simp_all

/-- A piece without a component is left out where a slash follows. -/
theorem shortens_of_slash_follows {piece : List Char} (h : Component.ofPiece? piece = none)
    (front back : List Char) :
    Shortens (front ++ '/' :: piece ++ '/' :: back) (front ++ '/' :: back) := by
  rcases ofPiece?_eq_none_iff.mp h with rfl | rfl
  · simpa using Shortens.slash front back
  · simpa using Shortens.inner front back

/-- A piece without a component is left out at the end, with the slash before it if that is not the
whole path. -/
theorem shortens_at_end {piece : List Char} (h : Component.ofPiece? piece = none)
    (front : List Char) :
    Relation.ReflTransGen Shortens (front ++ '/' :: piece) (spell front []) := by
  have hslash : Relation.ReflTransGen Shortens (front ++ ['/']) (spell front []) := by
    by_cases hfront : front = []
    · rw [hfront]
      exact .refl
    · have hspell : spell front [] = front := by simp [spell, hfront, behind]
      rw [hspell]
      exact .single (.trailing front hfront)
  rcases ofPiece?_eq_none_iff.mp h with rfl | rfl
  · exact hslash
  · exact .head (.final front) hslash

/-- Behind any start, the steps of a path are shortened to their components. -/
theorem shortens_to_spell (start : List Char) {steps : List (List Char)}
    (h : start ≠ [] ∨ steps ≠ []) :
    Relation.ReflTransGen Shortens (start ++ behind steps)
      (spell start (steps.filterMap Component.ofPiece?)) := by
  induction steps generalizing start with
  | nil =>
    have hspell : spell start [] = start ++ behind [] := by simp_all [spell]
    rw [List.filterMap_nil, hspell]
  | cons step steps ih =>
    cases hstep : Component.ofPiece? step with
    | some component =>
      -- The step stays, and is part of the start for the steps behind it.
      have htail := ih (start ++ '/' :: step) (.inl (by simp))
      rw [List.filterMap_cons_some hstep]
      simpa [spell, behind, letters_of_ofPiece? hstep] using htail
    | none =>
      rw [List.filterMap_cons_none hstep]
      cases steps with
      | nil => simpa [behind] using shortens_at_end hstep start
      | cons next more =>
        refine .head ?_ (ih start (.inr (List.cons_ne_nil next more)))
        simpa [behind] using shortens_of_slash_follows hstep start (next ++ behind more)

/-- The first piece of a path is its first component, if there is a component. -/
theorem components_of_pieces {p : Path} {head : List Char} {more : List (List Char)}
    (hpieces : Text.pieces '/' p.text.toList = head :: more) (h : head ≠ [] ∨ more ≠ []) :
    ∃ first : Component, first.letters = head
      ∧ p.components = first :: more.filterMap Component.ofPiece? := by
  have htext : p.text.toList = head ++ behind more := toList_text_of_pieces hpieces
  by_cases hroot : head = []
  · -- What stands behind the first slash is all that is written.
    obtain ⟨next, rest, rfl⟩ := List.exists_cons_of_ne_nil (h.resolve_left (by simpa))
    have habsolute : p.isAbsolute = true := by simp [isAbsolute, htext, hroot, behind]
    refine ⟨.root, hroot.symm, ?_⟩
    rw [components, leading, if_pos habsolute, hpieces, hroot]
    rfl
  · have habsolute : p.isAbsolute = false := by
      have hslash := Text.notMem_of_mem_pieces head (hpieces ▸ List.mem_cons_self)
      obtain ⟨c, rest, rfl⟩ := List.exists_cons_of_ne_nil hroot
      have hc : c ≠ '/' := fun hc => hslash (hc ▸ List.mem_cons_self)
      simpa [isAbsolute, htext] using hc
    cases hfirst : Component.ofPiece? head with
    | none =>
      have hhere : head = ['.'] := (ofPiece?_eq_none_iff.mp hfirst).resolve_left hroot
      refine ⟨.here, hhere.symm, ?_⟩
      rw [components, leading, if_neg (by simp [habsolute]), hpieces,
        List.filterMap_cons_none hfirst, List.head?_cons, if_pos (by rw [hhere])]
      rfl
    | some first =>
      have hhere : head ≠ ['.'] := fun e => by simp [ofPiece?_eq_none_iff.mpr (.inr e)] at hfirst
      refine ⟨first, letters_of_ofPiece? hfirst, ?_⟩
      rw [components, leading, if_neg (by simp [habsolute]), hpieces,
        List.filterMap_cons_some hfirst, List.head?_cons, if_neg (by simpa using hhere)]
      rfl

/-- Every path is shortened to a spelling that depends on its components alone. -/
theorem shortens_to_shortest (p : Path) :
    Relation.ReflTransGen Shortens p.text.toList (shortest p.components) := by
  obtain ⟨head, more, hpieces⟩ :=
    List.exists_cons_of_ne_nil (Text.pieces_ne_nil '/' p.text.toList)
  have htext : p.text.toList = head ++ behind more := toList_text_of_pieces hpieces
  by_cases hempty : head = [] ∧ more = []
  · have hp : p = ofLetters [] := by rw [← ofLetters_toList p, htext, hempty.1, hempty.2]; rfl
    rw [hp]
    exact .refl
  · have hne : head ≠ [] ∨ more ≠ [] := by tauto
    obtain ⟨first, hfirst, hcomponents⟩ := components_of_pieces hpieces hne
    rw [htext, hcomponents, shortest, hfirst]
    exact shortens_to_spell head hne

theorem same_iff_respells {p q : Path} : p.same q = true ↔ p.Respells q := by
  rw [same_iff]
  refine ⟨fun h => ⟨shortest p.components, shortens_to_shortest p, ?_⟩, components_eq_of_respells⟩
  rw [h]
  exact shortens_to_shortest q

end CompileCommands.Path
