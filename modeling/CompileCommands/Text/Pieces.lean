/-
Cutting a text at a separator.

`pieces` keeps everything between two separators, empty pieces included, so a text
is determined by its pieces: paths are read as pieces between slashes, version
numbers as pieces between dots.
-/
namespace CompileCommands.Text

/-- The parts of a text between the occurrences of `separator`; there is one more part
than there are separators. -/
def pieces (separator : Char) : List Char → List (List Char)
  | [] => [[]]
  | c :: rest =>
      if c = separator then [] :: pieces separator rest
      else match pieces separator rest with
        | [] => [[c]]
        | piece :: more => (c :: piece) :: more

@[simp]
theorem pieces_ne_nil (separator : Char) (text : List Char) : pieces separator text ≠ [] := by
  cases text with
  | nil => simp [pieces]
  | cons c rest =>
    unfold pieces
    split
    · simp
    · split <;> simp

/-- A text without the separator is a single piece. -/
@[simp]
theorem pieces_of_notMem {separator : Char} {text : List Char} (h : separator ∉ text) :
    pieces separator text = [text] := by
  induction text with
  | nil => rfl
  | cons c rest ih =>
    have hc : c ≠ separator := fun e => h (by simp [e])
    have hr : separator ∉ rest := fun m => h (by simp [m])
    simp [pieces, hc, ih hr]

/-- Two texts with the separator between them are cut apart there. -/
@[simp]
theorem pieces_append (separator : Char) (front back : List Char) :
    pieces separator (front ++ separator :: back)
      = pieces separator front ++ pieces separator back := by
  induction front with
  | nil => simp [pieces]
  | cons c front ih =>
    by_cases hc : c = separator
    · simp [pieces, hc, ih]
    · obtain ⟨piece, more, hfront⟩ := List.exists_cons_of_ne_nil (pieces_ne_nil separator front)
      simp [pieces, hc, ih, hfront]

/-- Cutting a text that starts with a piece and a separator cuts off that piece. -/
theorem pieces_append_separator {separator : Char} {piece : List Char} (h : separator ∉ piece)
    (rest : List Char) :
    pieces separator (piece ++ separator :: rest) = piece :: pieces separator rest := by
  rw [pieces_append, pieces_of_notMem h]
  rfl

/-- The text before and after the last `mark`, when there is one. -/
def cutAtLast (mark : Char) : List Char → Option (List Char × List Char)
  | [] => none
  | c :: rest =>
      match cutAtLast mark rest with
      | some (before, after) => some (c :: before, after)
      | none => if c = mark then some ([], rest) else none

/-- Does `needle` occur somewhere in the text? -/
def occursIn (needle : List Char) : List Char → Bool
  | [] => needle.isEmpty
  | c :: rest => needle.isPrefixOf (c :: rest) || occursIn needle rest

end CompileCommands.Text
