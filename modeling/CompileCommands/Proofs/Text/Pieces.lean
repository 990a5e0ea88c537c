/-
A text and its pieces determine each other.

Cutting a text loses nothing, since the pieces with the separator between them are the text again,
and no piece holds the separator.  So there is one way to cut a text: pieces without the separator
are what cutting gives for the text that is put together from them.
-/
import Mathlib.Data.List.Basic
import CompileCommands.Text.Pieces

namespace CompileCommands.Text

variable {separator : Char}

@[simp]
theorem intercalate_pieces (separator : Char) (text : List Char) :
    [separator].intercalate (pieces separator text) = text := by
  fun_induction pieces separator text with
  | case1 => rfl
  | case2 rest ih => rw [List.intercalate_cons_of_ne_nil (pieces_ne_nil separator rest), ih]; rfl
  | case3 c rest _ hnone => exact absurd hnone (pieces_ne_nil separator rest)
  | case4 c rest _ piece more hpieces ih =>
    rw [hpieces] at ih
    cases more with
    | nil =>
      rw [List.intercalate_singleton] at ih
      rw [List.intercalate_singleton, ih]
    | cons next more =>
      rw [List.intercalate_cons_cons] at ih
      rw [List.intercalate_cons_cons, List.cons_append, List.cons_append, ih]

/-- The first piece is decided before the first separator. -/
@[simp]
theorem head?_pieces_append (separator : Char) (front back : List Char) :
    (pieces separator (front ++ separator :: back)).head? = (pieces separator front).head? := by
  rw [pieces_append, List.head?_append_of_ne_nil _ (pieces_ne_nil separator front)]

theorem notMem_of_mem_pieces {text : List Char} :
    ∀ piece ∈ pieces separator text, separator ∉ piece := by
  fun_induction pieces separator text with
  | case1 => simp
  | case2 rest ih => simpa using ih
  | case3 c rest _ hnone => exact absurd hnone (pieces_ne_nil separator rest)
  | case4 c rest hc piece more hpieces ih =>
    rw [hpieces] at ih
    intro p hp
    rcases List.mem_cons.mp hp with rfl | hp
    · simp [Ne.symm hc, ih piece List.mem_cons_self]
    · exact ih p (List.mem_cons_of_mem piece hp)

theorem pieces_intercalate {parts : List (List Char)} (hne : parts ≠ [])
    (hparts : ∀ part ∈ parts, separator ∉ part) :
    pieces separator ([separator].intercalate parts) = parts := by
  induction parts with
  | nil => exact absurd rfl hne
  | cons part parts ih =>
    have hpart : separator ∉ part := hparts part List.mem_cons_self
    by_cases hlast : parts = []
    · rw [hlast, List.intercalate_singleton, pieces_of_notMem hpart]
    · rw [List.intercalate_cons_of_ne_nil hlast, List.append_assoc, List.singleton_append,
        pieces_append_separator hpart, ih hlast fun p hp => hparts p (List.mem_cons_of_mem part hp)]

end CompileCommands.Text
