/-
Lines that go on behind a backslash.

A backslash at the end of a physical line continues it on the next one: both characters are left
out.  In a word and between double quotes the reader comes out of the two characters just as it went
in, so nothing changes.  Between words it comes out inside a word that has no letters yet.  If
letters follow, they make up the word that they would have made up anyway; if a separator or the
end of the line follows, an empty word has been read that nobody wrote.
-/
import CompileCommands.Proofs.Shell.Scan

namespace CompileCommands.Shell

/-- A line can be continued here: neither between single quotes, where a backslash means itself, nor
right behind a backslash, which protects the other one. -/
def Place.isContinuable : Place → Bool
  | between | word | double => true
  | single | escaped | doubleEscaped => false

/-! ### Inside a word -/

/-- The scan comes out as it went in. -/
theorem Scan.run_continued {scan : Scan} (h : scan.place = .word ∨ scan.place = .double) :
    scan.run ['\\', '\n'] = scan := by
  obtain ⟨place, letters, words⟩ := scan
  rcases h with rfl | rfl
  · rfl
  · rfl

theorem split_continued_inside {front : String}
    (h : placeAfter front.toList = .word ∨ placeAfter front.toList = .double) (rest : String) :
    split (front ++ "\\\n" ++ rest) = split (front ++ rest) := by
  rw [← Scan.place_start] at h
  have hscan : Scan.start.run (front ++ "\\\n" ++ rest).toList
      = Scan.start.run (front ++ rest).toList := by
    simp only [String.toList_append, Scan.run_append]
    exact congrArg (Scan.run · rest.toList) (Scan.run_continued h)
  rw [split_eq_scan, split_eq_scan, hscan]

/-! ### Between words -/

/-- Letters make up the same word whether it was begun or not. -/
theorem wordsFrom_word_nil_of_letter {rest : List Char} (h : ¬ EndsWord rest) :
    wordsFrom (.word []) rest = wordsFrom .between rest := by
  cases rest with
  | nil => exact absurd endsWord_nil h
  | cons c rest =>
    have hsep : isSeparator c = false := by simpa using h
    rw [wordsFrom.eq_def, wordsFrom.eq_def .between]
    simp only [hsep, Bool.false_eq_true, if_false]
    rfl

theorem split_continued_start (rest : String) :
    split ("\\\n" ++ rest)
      = if EndsWord rest.toList then ("" :: ·) <$> split rest else split rest := by
  have hline : wordsFrom .between ("\\\n" ++ rest).toList = wordsFrom (.word []) rest.toList := by
    rw [String.toList_append]
    exact wordsFrom_continued (by simp) rest.toList
  rw [split, hline]
  split
  · rename_i hends
    rw [wordsFrom_endsWord hends, split]
    cases wordsFrom .between rest.toList with
    | error cause => rfl
    | ok words => rfl
  · rename_i hends
    rw [wordsFrom_word_nil_of_letter hends, split]

/-- **A continued line has the words of the line that it continues**, except that an empty word
comes in where the line is continued between words and no letter follows. -/
theorem split_continued_iff (front rest : String)
    (h : (placeAfter front.toList).isContinuable = true) :
    (split (front ++ "\\\n" ++ rest) = split (front ++ rest)
      ↔ ¬ (placeAfter front.toList = .between ∧ EndsWord rest.toList
          ∧ ∃ words, split rest = .ok words))
    ∧ (placeAfter front.toList = .between → EndsWord rest.toList →
        ∃ before, split front = .ok before
          ∧ split (front ++ rest) = (before ++ ·) <$> split rest
          ∧ split (front ++ "\\\n" ++ rest) = (before ++ "" :: ·) <$> split rest) := by
  by_cases hbetween : placeAfter front.toList = .between
  · obtain ⟨before, hfront, hback⟩ := split_append_of_between hbetween
    have hcontinued := hback ("\\\n" ++ rest)
    rw [← String.append_assoc, split_continued_start] at hcontinued
    rw [hback, hcontinued]
    by_cases hends : EndsWord rest.toList
    · rw [if_pos hends]
      cases hrest : split rest with
      | error cause =>
        refine ⟨by simp [Functor.map, Except.map], fun _ _ => ⟨before, hfront, rfl, rfl⟩⟩
      | ok words =>
        refine ⟨?_, fun _ _ => ⟨before, hfront, rfl, rfl⟩⟩
        simp [Functor.map, Except.map, hbetween, hends]
    · rw [if_neg hends]
      exact ⟨by simp [hends], fun _ hend => absurd hend hends⟩
  · have hinside : placeAfter front.toList = .word ∨ placeAfter front.toList = .double := by
      cases hplace : placeAfter front.toList with
      | between => exact absurd hplace hbetween
      | word => exact .inl rfl
      | double => exact .inr rfl
      | single | escaped | doubleEscaped =>
        rw [hplace] at h
        cases h
    refine ⟨?_, fun hplace => absurd hplace hbetween⟩
    simp [split_continued_inside hinside, hbetween]

theorem split_continued_quoted :
    (placeAfter "gcc \"-DX=1".toList).isContinuable = true
      ∧ split ("gcc \"-DX=1" ++ "\\\n" ++ " 2\" a.c") = .ok ["gcc", "-DX=1 2", "a.c"] := by
  have hcontinuable : (placeAfter "gcc \"-DX=1".toList).isContinuable = true := by decide
  have hplace : placeAfter "gcc \"-DX=1".toList ≠ .between := by decide
  have hline : split ("gcc \"-DX=1" ++ " 2\" a.c") = .ok ["gcc", "-DX=1 2", "a.c"] := by cbv
  refine ⟨hcontinuable, ?_⟩
  rw [(split_continued_iff "gcc \"-DX=1" " 2\" a.c" hcontinuable).1.mpr fun h => hplace h.1, hline]

/-- **A line that is continued between two blanks has a word too many.** -/
theorem split_continued_blank :
    (placeAfter "gcc ".toList).isContinuable = true
      ∧ split ("gcc " ++ " -c") = .ok ["gcc", "-c"]
      ∧ split ("gcc " ++ "\\\n" ++ " -c") = .ok ["gcc", "", "-c"] :=
  ⟨by decide, by cbv, by cbv⟩

end CompileCommands.Shell
