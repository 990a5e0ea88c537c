/-
The reader of command lines, one character at a time.

`wordsFrom` looks at one character, or at two behind a backslash, and goes on from another
cursor.  Each of its steps is an equation here, so that a proof about a line walks
along the line and never opens the definition.

Between two words and inside one the reader treats a character alike, but for the letters
it already holds.  `IsOutside` covers both, and the equations outside quotes are stated
for every such cursor.
-/
import CompileCommands.Shell

namespace CompileCommands.Shell

/-- The reader stands outside quotes. -/
def Cursor.IsOutside : Cursor → Prop
  | between | word _ => True
  | single _ | double _ => False

@[simp] theorem Cursor.isOutside_between : Cursor.between.IsOutside := trivial

@[simp] theorem Cursor.isOutside_word (letters : List Char) : (Cursor.word letters).IsOutside :=
  trivial

@[simp] theorem Cursor.letters_between : Cursor.between.letters = [] := rfl

@[simp]
theorem Cursor.letters_word (letters : List Char) : (Cursor.word letters).letters = letters := rfl

@[simp] theorem Cursor.completed_between : Cursor.between.completed = [] := rfl

@[simp] theorem Cursor.completed_word (letters : List Char) :
    (Cursor.word letters).completed = [letters.reverse] := rfl

@[simp] theorem Cursor.finish_between : Cursor.between.finish = .ok [] := rfl

@[simp] theorem Cursor.finish_word (letters : List Char) :
    (Cursor.word letters).finish = .ok [letters.reverse] := rfl

theorem Cursor.isOutside_of_ne {cursor : Cursor}
    (hsingle : ∀ letters, cursor = .single letters → False)
    (hdouble : ∀ letters, cursor = .double letters → False) : cursor.IsOutside := by
  cases cursor with
  | between | word => trivial
  | single letters => exact hsingle letters rfl
  | double letters => exact hdouble letters rfl

section Outside

variable {cursor : Cursor}

/-! ### Outside quotes -/

theorem wordsFrom_outside (h : cursor.IsOutside) {c : Char} (hback : c ≠ '\\') (rest : List Char) :
    wordsFrom cursor (c :: rest)
      = if isSeparator c then (cursor.completed ++ ·) <$> wordsFrom .between rest
        else if c = '\'' then wordsFrom (.single cursor.letters) rest
        else if c = '"' then wordsFrom (.double cursor.letters) rest
        else wordsFrom (.word (c :: cursor.letters)) rest := by
  cases cursor with
  | single | double => exact h.elim
  | between | word => rw [wordsFrom.eq_def]; simp [hback]

@[simp]
theorem wordsFrom_separator (h : cursor.IsOutside) {c : Char} (hc : isSeparator c = true)
    (rest : List Char) :
    wordsFrom cursor (c :: rest) = (cursor.completed ++ ·) <$> wordsFrom .between rest := by
  have hback : c ≠ '\\' := by
    rintro rfl
    cases hc
  rw [wordsFrom_outside h hback, if_pos hc]

@[simp]
theorem wordsFrom_openSingle (h : cursor.IsOutside) (rest : List Char) :
    wordsFrom cursor ('\'' :: rest) = wordsFrom (.single cursor.letters) rest := by
  have hsep : ¬ isSeparator '\'' = true := by decide
  rw [wordsFrom_outside h (by decide), if_neg hsep, if_pos rfl]

@[simp]
theorem wordsFrom_openDouble (h : cursor.IsOutside) (rest : List Char) :
    wordsFrom cursor ('"' :: rest) = wordsFrom (.double cursor.letters) rest := by
  have hsep : ¬ isSeparator '"' = true := by decide
  rw [wordsFrom_outside h (by decide), if_neg hsep, if_neg (by decide), if_pos rfl]

/-- A backslash protects the next character. -/
@[simp]
theorem wordsFrom_escaped (h : cursor.IsOutside) {d : Char} (hd : d ≠ '\n') (rest : List Char) :
    wordsFrom cursor ('\\' :: d :: rest) = wordsFrom (.word (d :: cursor.letters)) rest := by
  have hsep : isSeparator '\\' = false := rfl
  cases cursor with
  | single | double => exact h.elim
  | between | word => rw [wordsFrom.eq_def]; simp [hsep, hd]

/-- A backslash at the end of a physical line begins a word, although it adds nothing to it. -/
@[simp]
theorem wordsFrom_continued (h : cursor.IsOutside) (rest : List Char) :
    wordsFrom cursor ('\\' :: '\n' :: rest) = wordsFrom (.word cursor.letters) rest := by
  have hsep : isSeparator '\\' = false := rfl
  cases cursor with
  | single | double => exact h.elim
  | between | word => rw [wordsFrom.eq_def]; simp [hsep]

/-- Any other character is a letter of the open word. -/
theorem wordsFrom_letter (h : cursor.IsOutside) {c : Char} (hsep : isSeparator c = false)
    (hsingle : c ≠ '\'') (hdouble : c ≠ '"') (hback : c ≠ '\\') (rest : List Char) :
    wordsFrom cursor (c :: rest) = wordsFrom (.word (c :: cursor.letters)) rest := by
  rw [wordsFrom_outside h hback, if_neg (by simp [hsep]), if_neg hsingle, if_neg hdouble]

end Outside

/-! ### Between single quotes -/

theorem wordsFrom_single (letters : List Char) (c : Char) (rest : List Char) :
    wordsFrom (.single letters) (c :: rest)
      = if c = '\'' then wordsFrom (.word letters) rest
        else wordsFrom (.single (c :: letters)) rest := by
  rw [wordsFrom.eq_def]

@[simp]
theorem wordsFrom_closeSingle (letters rest : List Char) :
    wordsFrom (.single letters) ('\'' :: rest) = wordsFrom (.word letters) rest := by
  rw [wordsFrom_single, if_pos rfl]

@[simp]
theorem wordsFrom_insideSingle {c : Char} (hc : c ≠ '\'') (letters rest : List Char) :
    wordsFrom (.single letters) (c :: rest) = wordsFrom (.single (c :: letters)) rest := by
  rw [wordsFrom_single, if_neg hc]

/-! ### Between double quotes -/

@[simp]
theorem wordsFrom_closeDouble (letters rest : List Char) :
    wordsFrom (.double letters) ('"' :: rest) = wordsFrom (.word letters) rest := by
  rw [wordsFrom.eq_def]
  exact if_pos rfl

@[simp]
theorem wordsFrom_insideDouble {c : Char} (hquote : c ≠ '"') (hback : c ≠ '\\')
    (letters rest : List Char) :
    wordsFrom (.double letters) (c :: rest) = wordsFrom (.double (c :: letters)) rest := by
  rw [wordsFrom.eq_def]
  simp [hquote, hback]

/-- A backslash goes where the character behind it is one that it can protect. -/
@[simp]
theorem wordsFrom_protected {d : Char} (hd : isProtected d = true) (letters rest : List Char) :
    wordsFrom (.double letters) ('\\' :: d :: rest) = wordsFrom (.double (d :: letters)) rest := by
  have hnewline : d ≠ '\n' := by
    rintro rfl
    cases hd
  rw [wordsFrom.eq_def]
  simp [hd, hnewline]

/-- In front of any other character it is a letter like others. -/
@[simp]
theorem wordsFrom_unprotected {d : Char} (hd : isProtected d = false) (hnewline : d ≠ '\n')
    (letters rest : List Char) :
    wordsFrom (.double letters) ('\\' :: d :: rest)
      = wordsFrom (.double (d :: '\\' :: letters)) rest := by
  rw [wordsFrom.eq_def]
  simp [hd, hnewline]

/-! ### The end of a word -/

/-- No letter follows: the line ends, or a separator is next. -/
def EndsWord (rest : List Char) : Prop := ∀ c ∈ rest.head?, isSeparator c = true

instance (rest : List Char) : Decidable (EndsWord rest) :=
  inferInstanceAs (Decidable (∀ c ∈ rest.head?, isSeparator c = true))

@[simp] theorem endsWord_nil : EndsWord [] := fun _ hc => nomatch hc

@[simp]
theorem endsWord_cons (c : Char) (rest : List Char) :
    EndsWord (c :: rest) ↔ isSeparator c = true := by
  simp [EndsWord]

@[simp]
theorem wordsFrom_end (cursor : Cursor) : wordsFrom cursor [] = cursor.finish := by
  rw [wordsFrom.eq_def]

/-- Where no letter follows, the open word is complete. -/
@[simp]
theorem wordsFrom_endsWord {rest : List Char} (h : EndsWord rest) (letters : List Char) :
    wordsFrom (.word letters) rest = (letters.reverse :: ·) <$> wordsFrom .between rest := by
  cases rest with
  | nil => rfl
  | cons c rest =>
    have hsep : isSeparator c = true := by simpa using h
    rw [wordsFrom_separator (by simp) hsep, wordsFrom_separator (by simp) hsep]
    cases wordsFrom .between rest with
    | error cause => rfl
    | ok words => rfl

end CompileCommands.Shell
