/-
Paths seen from a directory.

A relative path is spelled out behind its directory and a slash, and an absolute one stays as it
is.  In both cases the steps of the path come last, so the joined path names the same file as
the path does, and it starts at the root wherever the directory does.
-/
import CompileCommands.SourceFile

namespace CompileCommands.Path

/-! ### Spelling -/

@[simp]
theorem join_of_isAbsolute {p : Path} (h : p.isAbsolute = true) (directory : Path) :
    directory.join p = p := by
  simp [join, h]

/-- A joined path is spelled like the path, or ends like the path behind a slash. -/
theorem join_cases (directory p : Path) :
    directory.join p = p
      ∨ ∃ front, (directory.join p).text.toList = front ++ '/' :: p.text.toList := by
  by_cases hstays : (p.isAbsolute || directory.isEmpty) = true
  · exact .inl (by rw [join, if_pos hstays])
  · right
    rw [join, if_neg hstays]
    by_cases hslash : (directory.text.toList.getLast? == some '/') = true
    · obtain ⟨front, hfront⟩ := List.getLast?_eq_some_iff.mp (beq_iff_eq.mp hslash)
      exact ⟨front, by rw [if_pos hslash, String.toList_append, hfront]; simp⟩
    · exact ⟨directory.text.toList, by rw [if_neg hslash]; simp⟩

theorem isEmpty_eq_false_iff {p : Path} : p.isEmpty = false ↔ p.text ≠ "" :=
  String.isEmpty_eq_false_iff

@[simp] theorem isEmpty_of_isAbsolute {p : Path} (h : p.isAbsolute = true) : p.isEmpty = false := by
  rw [isEmpty_eq_false_iff]
  intro htext
  rw [isAbsolute, htext] at h
  cases h

@[simp]
theorem isAbsolute_join {directory : Path} (h : directory.isAbsolute = true) (p : Path) :
    (directory.join p).isAbsolute = true := by
  by_cases hp : p.isAbsolute = true
  · simp [hp]
  · have hhead : directory.text.toList.head? = some '/' := by simpa [isAbsolute] using h
    obtain ⟨rest, hrest⟩ := List.head?_eq_some_iff.mp hhead
    rw [join, if_neg (by simp [hp, isEmpty_of_isAbsolute h])]
    split <;> simp [isAbsolute, hrest]

/-- No path seen from a directory is empty, not even the empty one. -/
theorem isEmpty_join {directory : Path} (h : directory.isEmpty = false) (p : Path) :
    (directory.join p).isEmpty = false := by
  have htext : directory.text ≠ "" := isEmpty_eq_false_iff.mp h
  by_cases habsolute : p.isAbsolute = true
  · simp [habsolute]
  · rw [isEmpty_eq_false_iff, join, if_neg (by simp [habsolute, h])]
    by_cases hslash : (directory.text.toList.getLast? == some '/') = true
    · rw [if_pos hslash]
      intro hnil
      exact htext (String.append_eq_empty_iff.mp hnil).1
    · rw [if_neg hslash]
      intro hnil
      exact htext (String.append_eq_empty_iff.mp (String.append_eq_empty_iff.mp hnil).1).1

/-! ### File names -/

/-- The start of a path names nothing. -/
theorem getLast?_leading_ne_name (p : Path) (name : String) :
    p.leading.getLast? ≠ some (.name name) := by
  unfold leading
  split
  · simp
  · split <;> simp

/-- The file name is the last step of the path. -/
theorem fileName?_eq_some_iff {p : Path} {name : String} :
    p.fileName? = some name
      ↔ ((Text.pieces '/' p.text.toList).filterMap Component.ofPiece?).getLast?
        = some (.name name) := by
  rw [fileName?, components, List.getLast?_append]
  cases hlast : ((Text.pieces '/' p.text.toList).filterMap Component.ofPiece?).getLast? with
  | some component => cases component <;> simp
  | none =>
    have hleading := getLast?_leading_ne_name p
    rw [Option.none_or]
    split
    · rename_i text htext
      exact absurd htext (hleading text)
    · simp

/-- A joined path has the file name of the path. -/
theorem fileName?_join {p : Path} {name : String} (h : p.fileName? = some name)
    (directory : Path) : (directory.join p).fileName? = some name := by
  rcases join_cases directory p with hstays | ⟨front, hfront⟩
  · rw [hstays]
    exact h
  · rw [fileName?_eq_some_iff] at h ⊢
    rw [hfront, Text.pieces_append, List.filterMap_append, List.getLast?_append, h]
    rfl

end CompileCommands.Path

namespace CompileCommands.SourceFile

/-! ### Sources -/

/-- A source is one wherever it is seen from. -/
theorem isSource_join {source : String} (h : isSource source = true) (directory : Path) :
    isSource (directory.join ⟨source⟩).text = true := by
  cases hname : (Path.mk source).fileName? with
  | none =>
    rw [isSource, Path.extension?, hname] at h
    cases h
  | some name =>
    have hextension : (directory.join ⟨source⟩).extension? = (Path.mk source).extension? := by
      rw [Path.extension?, Path.extension?, hname, Path.fileName?_join hname]
    rw [isSource, hextension]
    exact h

theorem ne_empty_of_isSource {source : String} (h : isSource source = true) : source ≠ "" := by
  rintro rfl
  cases h

end CompileCommands.SourceFile
