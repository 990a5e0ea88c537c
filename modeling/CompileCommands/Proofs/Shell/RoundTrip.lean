/-
What is written as a command line is read back.

A quoted word is read from any cursor outside quotes and leaves the reader inside the word,
with all its characters.  The two forms of a word need different walks.  A plain word is
taken letter by letter; this works because no plain character means anything to the reader.
A word between single quotes is taken inside the quotes, and each single quote of the word
sends the reader out of them, past a backslash, and back in.

The rest follows the recursion of `joinChars`: the blank behind a word completes it.
-/
import CompileCommands.Proofs.Shell.Reader

namespace CompileCommands.Shell

/-! ### Plain characters -/

/-- No plain character separates words, opens a quote or protects another character. -/
theorem not_special_of_isPlain {c : Char} (hc : isPlain c = true) :
    isSeparator c = false ∧ c ≠ '\'' ∧ c ≠ '"' ∧ c ≠ '\\' := by
  refine ⟨?_, ?_, ?_, ?_⟩
  · rw [Bool.eq_false_iff]
    intro hsep
    simp only [isSeparator, Bool.or_eq_true, decide_eq_true_eq] at hsep
    rcases hsep with (rfl | rfl) | rfl <;> exact absurd hc (by decide)
  · rintro rfl
    exact absurd hc (by decide)
  · rintro rfl
    exact absurd hc (by decide)
  · rintro rfl
    exact absurd hc (by decide)

theorem wordsFrom_plainChar {cursor : Cursor} (h : cursor.IsOutside) {c : Char}
    (hc : isPlain c = true) (rest : List Char) :
    wordsFrom cursor (c :: rest) = wordsFrom (.word (c :: cursor.letters)) rest := by
  obtain ⟨hsep, hsingle, hdouble, hback⟩ := not_special_of_isPlain hc
  exact wordsFrom_letter h hsep hsingle hdouble hback rest

theorem wordsFrom_plain (word rest : List Char) (hword : ∀ c ∈ word, isPlain c = true) :
    ∀ letters : List Char,
      wordsFrom (.word letters) (word ++ rest)
        = wordsFrom (.word (word.reverse ++ letters)) rest := by
  induction word with
  | nil => intro letters; rfl
  | cons c word ih =>
    intro letters
    have hword' : ∀ d ∈ word, isPlain d = true := fun d hd => hword d (by simp [hd])
    rw [List.cons_append, wordsFrom_plainChar (by simp) (hword c (by simp)), ih hword']
    simp

/-! ### Quoted words -/

/-- A single quote takes the reader through three cursors and leaves it between quotes again. -/
@[simp]
theorem wordsFrom_quoteChar (c : Char) (letters rest : List Char) :
    wordsFrom (.single letters) (quoteChar c ++ rest)
      = wordsFrom (.single (c :: letters)) rest := by
  by_cases hc : c = '\''
  · simp [quoteChar, hc]
  · simp [quoteChar, hc]

@[simp]
theorem wordsFrom_quoteChars (word rest : List Char) :
    ∀ letters : List Char,
      wordsFrom (.single letters) (word.flatMap quoteChar ++ rest)
        = wordsFrom (.single (word.reverse ++ letters)) rest := by
  induction word with
  | nil => intro letters; rfl
  | cons c word ih =>
    intro letters
    simp [ih]

/-- A quoted word is read into the open word, however much of that there is already. -/
@[simp]
theorem wordsFrom_quote {cursor : Cursor} (h : cursor.IsOutside) (word rest : List Char) :
    wordsFrom cursor (quote word ++ rest)
      = wordsFrom (.word (word.reverse ++ cursor.letters)) rest := by
  unfold quote
  by_cases hplain : word ≠ [] ∧ word.all isPlain = true
  · rw [if_pos hplain]
    obtain ⟨hne, hall⟩ := hplain
    have hword : ∀ c ∈ word, isPlain c = true := List.all_eq_true.mp hall
    cases word with
    | nil => exact absurd rfl hne
    | cons c word =>
      rw [List.cons_append, wordsFrom_plainChar h (hword c (by simp)),
        wordsFrom_plain word rest fun d hd => hword d (by simp [hd])]
      simp
  · rw [if_neg hplain]
    simp [h]

/-! ### Lists of words -/

theorem wordsFrom_joinChars (words : List (List Char)) :
    wordsFrom .between (joinChars words) = .ok words := by
  fun_induction joinChars words with
  | case1 => exact wordsFrom_end .between
  | case2 word =>
    have hread := wordsFrom_quote Cursor.isOutside_between word []
    simpa using hread
  | case3 word rest _ ih =>
    rw [wordsFrom_quote Cursor.isOutside_between, wordsFrom_separator (by simp) rfl, ih]
    simp [Functor.map, Except.map]

theorem split_join (words : List String) : split (join words) = .ok words := by
  have hread : wordsFrom .between (join words).toList = .ok (words.map String.toList) := by
    rw [join, String.toList_ofList, wordsFrom_joinChars]
  rw [split, hread]
  simp [Functor.map, Except.map, Function.comp_def]

/-- **A written command line is read back as the words it was written from**, so that
different lists of words are never written alike. -/
theorem split_inverts_join :
    (∀ words : List String, split (join words) = .ok words) ∧ Function.Injective join := by
  refine ⟨split_join, ?_⟩
  intro left right heq
  have hright : split (join left) = .ok right := by rw [heq, split_join]
  rw [split_join] at hright
  exact Except.ok.inj hright

end CompileCommands.Shell
