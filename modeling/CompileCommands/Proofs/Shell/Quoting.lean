/-
Command lines in any spelling.

A word can be written in many ways.  It is made of pieces that stand side by side, and each piece
may protect its characters in a manner of its own, or not at all.  What a piece means is said here
piece by piece, without a reader and without a cursor, and a line is some words with separators
around them.

The reader takes a piece from any cursor outside quotes, and comes out inside the word with the
letters that the piece means.  So it does not matter which pieces stand side by side, and a word is
read by induction on its pieces.  The lines that `join` writes are lines of this kind.
-/
import CompileCommands.Proofs.Shell.RoundTrip

namespace CompileCommands.Shell

/-! ### Between double quotes -/

/-- What may stand between double quotes. -/
inductive QuotedPiece
  /-- Any character but a double quote and a backslash means itself. -/
  | raw (c : Char) (hquote : c ≠ '"') (hback : c ≠ '\\')
  /-- A double quote, a backslash, a dollar sign or a backtick behind a backslash. -/
  | shielded (c : Char) (h : isProtected c = true)
  /-- Any other character behind a backslash, which stands for itself. -/
  | behindBackslash (c : Char) (h : isProtected c = false) (hnewline : c ≠ '\n')

namespace QuotedPiece

def written : QuotedPiece → List Char
  | raw c _ _ => [c]
  | shielded c _ => ['\\', c]
  | behindBackslash c _ _ => ['\\', c]

def meaning : QuotedPiece → List Char
  | raw c _ _ => [c]
  | shielded c _ => [c]
  | behindBackslash c _ _ => ['\\', c]

end QuotedPiece

/-! ### Words -/

/-- The characters that mean something outside quotes. -/
def isSpecial (c : Char) : Bool := isSeparator c || c = '\'' || c = '"' || c = '\\'

/-- A piece of a word. -/
inductive Piece
  /-- A character that means itself. -/
  | plain (c : Char) (h : isSpecial c = false)
  /-- A character behind a backslash. -/
  | escaped (c : Char) (h : c ≠ '\n')
  /-- A text between single quotes. -/
  | single (text : List Char) (h : '\'' ∉ text)
  /-- A text between double quotes. -/
  | double (text : List QuotedPiece)

namespace Piece

def written : Piece → List Char
  | plain c _ => [c]
  | escaped c _ => ['\\', c]
  | single text _ => '\'' :: text ++ ['\'']
  | double text => '"' :: text.flatMap QuotedPiece.written ++ ['"']

def meaning : Piece → List Char
  | plain c _ => [c]
  | escaped c _ => [c]
  | single text _ => text
  | double text => text.flatMap QuotedPiece.meaning

end Piece

/-- A word in some spelling.  Without a piece there is no word, but a piece may be two quotes with
nothing between them. -/
structure Spelling where
  pieces : List Piece
  ne_nil : pieces ≠ []

namespace Spelling

def written (spelling : Spelling) : List Char := spelling.pieces.flatMap Piece.written

def meaning (spelling : Spelling) : List Char := spelling.pieces.flatMap Piece.meaning

/-- The word. -/
def word (spelling : Spelling) : String := String.ofList spelling.meaning

end Spelling

/-! ### Lines -/

/-- The line consists of the words: separators may stand anywhere around a word, and between two
words there is at least one. -/
inductive Writes : List Spelling → List Char → Prop
  | nil : Writes [] []
  | separator {words : List Spelling} {c : Char} {line : List Char} (hc : isSeparator c = true)
      (h : Writes words line) : Writes words (c :: line)
  | word {words : List Spelling} {line : List Char} (spelling : Spelling) (hends : EndsWord line)
      (h : Writes words line) : Writes (spelling :: words) (spelling.written ++ line)

/-! ### Reading a piece -/

@[simp]
theorem wordsFrom_single_text {text : List Char} (htext : '\'' ∉ text) (rest : List Char) :
    ∀ letters : List Char,
      wordsFrom (.single letters) (text ++ rest)
        = wordsFrom (.single (text.reverse ++ letters)) rest := by
  induction text with
  | nil => intro letters; rfl
  | cons c text ih =>
    intro letters
    have hc : c ≠ '\'' := fun heq => htext (heq ▸ List.mem_cons_self)
    have hrest : '\'' ∉ text := fun hmem => htext (List.mem_cons_of_mem c hmem)
    simp [hc, ih hrest]

@[simp]
theorem wordsFrom_quotedPiece (piece : QuotedPiece) (letters rest : List Char) :
    wordsFrom (.double letters) (piece.written ++ rest)
      = wordsFrom (.double (piece.meaning.reverse ++ letters)) rest := by
  cases piece with
  | raw c hquote hback => exact wordsFrom_insideDouble hquote hback letters rest
  | shielded c h => exact wordsFrom_protected h letters rest
  | behindBackslash c h hnewline => exact wordsFrom_unprotected h hnewline letters rest

@[simp]
theorem wordsFrom_double_text (text : List QuotedPiece) (rest : List Char) :
    ∀ letters : List Char,
      wordsFrom (.double letters) (text.flatMap QuotedPiece.written ++ rest)
        = wordsFrom (.double ((text.flatMap QuotedPiece.meaning).reverse ++ letters)) rest := by
  induction text with
  | nil => intro letters; rfl
  | cons piece text ih =>
    intro letters
    simp [ih]

/-- The reader takes a piece from any cursor outside quotes, and comes out inside the word. -/
@[simp]
theorem wordsFrom_piece {cursor : Cursor} (h : cursor.IsOutside) (piece : Piece)
    (rest : List Char) :
    wordsFrom cursor (piece.written ++ rest)
      = wordsFrom (.word (piece.meaning.reverse ++ cursor.letters)) rest := by
  cases piece with
  | plain c hc =>
    simp only [isSpecial, Bool.or_eq_false_iff, decide_eq_false_iff_not] at hc
    obtain ⟨⟨⟨hsep, hsingle⟩, hdouble⟩, hback⟩ := hc
    exact wordsFrom_letter h hsep hsingle hdouble hback rest
  | escaped c hc => exact wordsFrom_escaped h hc rest
  | single text htext => simp [Piece.written, Piece.meaning, h, htext]
  | double text => simp [Piece.written, Piece.meaning, h]

/-! ### Reading a line -/

@[simp]
theorem wordsFrom_pieces (pieces : List Piece) (rest : List Char) :
    ∀ letters : List Char,
      wordsFrom (.word letters) (pieces.flatMap Piece.written ++ rest)
        = wordsFrom (.word ((pieces.flatMap Piece.meaning).reverse ++ letters)) rest := by
  induction pieces with
  | nil => intro letters; rfl
  | cons piece pieces ih =>
    intro letters
    simp [ih]

/-- The first piece begins the word, and the others go on with it. -/
@[simp]
theorem wordsFrom_spelling (spelling : Spelling) (rest : List Char) :
    wordsFrom .between (spelling.written ++ rest)
      = wordsFrom (.word spelling.meaning.reverse) rest := by
  obtain ⟨pieces, hne⟩ := spelling
  cases pieces with
  | nil => exact absurd rfl hne
  | cons piece pieces => simp [Spelling.written, Spelling.meaning]

theorem wordsFrom_of_writes {words : List Spelling} {line : List Char} (h : Writes words line) :
    wordsFrom .between line = .ok (words.map Spelling.meaning) := by
  induction h with
  | nil => rfl
  | separator hc _ ih =>
    rw [wordsFrom_separator (by simp) hc, ih]
    rfl
  | word spelling hends _ ih =>
    rw [wordsFrom_spelling, wordsFrom_endsWord hends, ih, List.reverse_reverse]
    rfl

/-! ### Lines that are written by joining -/

theorem isSpecial_of_isPlain {c : Char} (hc : isPlain c = true) : isSpecial c = false := by
  obtain ⟨hsep, hsingle, hdouble, hback⟩ := not_special_of_isPlain hc
  simp [isSpecial, hsep, hsingle, hdouble, hback]

/-- The spelling of a word between single quotes begins with a quoted piece.  It is this piece that
takes in one more character in front. -/
theorem exists_pieces_quoted (word : List Char) :
    ∃ text htext others,
      (Piece.single text htext :: others).flatMap Piece.written
          = '\'' :: word.flatMap quoteChar ++ ['\'']
        ∧ (Piece.single text htext :: others).flatMap Piece.meaning = word := by
  induction word with
  | nil => exact ⟨[], by simp, [], rfl, rfl⟩
  | cons c word ih =>
    obtain ⟨text, htext, others, hwritten, hmeaning⟩ := ih
    by_cases hc : c = '\''
    · refine ⟨[], by simp, .escaped '\'' (by decide) :: .single text htext :: others, ?_, ?_⟩
      · rw [List.flatMap_cons, List.flatMap_cons, hwritten, hc]
        simp [Piece.written, quoteChar]
      · rw [List.flatMap_cons, List.flatMap_cons, hmeaning, hc]
        rfl
    · have hfront : '\'' ∉ c :: text := by simp [htext, Ne.symm hc]
      refine ⟨c :: text, hfront, others, ?_, ?_⟩
      · simpa [Piece.written, quoteChar, hc] using hwritten
      · simpa [Piece.meaning] using hmeaning

theorem exists_spelling_quote (word : List Char) :
    ∃ spelling : Spelling, spelling.written = quote word ∧ spelling.meaning = word := by
  by_cases hplain : word ≠ [] ∧ word.all isPlain = true
  · obtain ⟨hne, hall⟩ := hplain
    have hword : ∀ c ∈ word, isPlain c = true := List.all_eq_true.mp hall
    let pieces := word.attach.map fun c => Piece.plain c.1 (isSpecial_of_isPlain (hword c.1 c.2))
    refine ⟨⟨pieces, by simpa [pieces] using hne⟩, ?_, ?_⟩
    · rw [quote, if_pos ⟨hne, hall⟩, Spelling.written, List.flatMap_map]
      simp [Piece.written, ← List.map_eq_flatMap]
    · rw [Spelling.meaning, List.flatMap_map]
      simp [Piece.meaning, ← List.map_eq_flatMap]
  · obtain ⟨text, htext, others, hwritten, hmeaning⟩ := exists_pieces_quoted word
    refine ⟨⟨_, List.cons_ne_nil _ others⟩, ?_, hmeaning⟩
    rw [quote, if_neg hplain]
    exact hwritten

theorem exists_writes_joinChars (words : List (List Char)) :
    ∃ spellings : List Spelling, spellings.map Spelling.meaning = words
      ∧ Writes spellings (joinChars words) := by
  fun_induction joinChars words with
  | case1 => exact ⟨[], rfl, .nil⟩
  | case2 word =>
    obtain ⟨spelling, hwritten, hmeaning⟩ := exists_spelling_quote word
    refine ⟨[spelling], by rw [List.map_singleton, hmeaning], ?_⟩
    have hwrites : Writes [spelling] (spelling.written ++ []) :=
      .word spelling endsWord_nil .nil
    rwa [List.append_nil, hwritten] at hwrites
  | case3 word rest _ ih =>
    obtain ⟨spelling, hwritten, hmeaning⟩ := exists_spelling_quote word
    obtain ⟨spellings, hmeanings, hrest⟩ := ih
    refine ⟨spelling :: spellings, by rw [List.map_cons, hmeaning, hmeanings], ?_⟩
    rw [← hwritten]
    exact .word spelling (by simp [isSeparator]) (.separator rfl hrest)

/-- **A line is read as the words that it writes, however each of them is spelled**, and the lines
that `join` writes are among these lines. -/
theorem split_of_writes :
    (∀ (words : List Spelling) (line : String), Writes words line.toList →
      split line = .ok (words.map Spelling.word))
    ∧ ∀ words : List String, ∃ spellings : List Spelling,
        spellings.map Spelling.word = words ∧ Writes spellings (join words).toList := by
  refine ⟨fun words line h => ?_, fun words => ?_⟩
  · rw [split, wordsFrom_of_writes h]
    exact congrArg Except.ok List.map_map
  · obtain ⟨spellings, hmeanings, hwrites⟩ := exists_writes_joinChars (words.map String.toList)
    refine ⟨spellings, ?_, by rwa [join, String.toList_ofList]⟩
    calc spellings.map Spelling.word
        = (spellings.map Spelling.meaning).map String.ofList := List.map_map.symm
      _ = words := by simp [hmeanings, Function.comp_def]

/-- A word of three pieces, one that needs a backslash for a blank and holds a dollar sign, a double
quote and a backslash between double quotes, and an empty one. -/
def mixedSpellings : List Spelling := [
  ⟨[.plain 'g' rfl, .double [.raw 'c' (by decide) (by decide)], .single ['c'] (by decide)],
    by simp⟩,
  ⟨[.plain '-' rfl, .escaped ' ' (by decide), .double [.raw '$' (by decide) (by decide),
    .shielded '"' rfl, .behindBackslash 'x' rfl (by decide)]], by simp⟩,
  ⟨[.double []], by simp⟩]

def mixedLine : String := "\tg\"c\"'c' -\\ \"$\\\"\\x\"\n  \"\" "

theorem split_of_writes_mixedLine :
    Writes mixedSpellings mixedLine.toList
      ∧ split mixedLine = .ok ["gcc", "- $\"\\x", ""] := by
  have hwrites : Writes mixedSpellings mixedLine.toList :=
    .separator rfl <| .word _ ((endsWord_cons _ _).mpr rfl) <| .separator rfl <|
      .word _ ((endsWord_cons _ _).mpr rfl) <| .separator rfl <| .separator rfl <| .separator rfl <|
      .word _ ((endsWord_cons _ _).mpr rfl) <| .separator rfl .nil
  exact ⟨hwrites, split_of_writes.1 mixedSpellings mixedLine hwrites⟩

end CompileCommands.Shell
