/-
Command lines read one character at a time.

Behind a backslash the reader takes two characters at once, so a line cannot be cut just anywhere
and read on from there.  A scan takes every character by itself, because it has a place of its own
right behind a backslash.  It keeps the words that it has completed and goes through the line from
left to right, so that where it stands behind a piece of a line depends on that piece alone, and
what follows is scanned from there.  Scanning a line to its end gives the words that the reader
finds.
-/
import CompileCommands.Proofs.Result
import CompileCommands.Proofs.Shell.Reader

namespace CompileCommands.Shell

/-! ### Places -/

/-- Where a line stands between two of its characters. -/
inductive Place
  /-- Outside quotes, with no word begun. -/
  | between
  /-- Outside quotes, in a word. -/
  | word
  | single
  | double
  /-- Outside quotes, right behind a backslash. -/
  | escaped
  /-- Between double quotes, right behind a backslash. -/
  | doubleEscaped
  deriving DecidableEq, Repr

namespace Place

/-- The place behind one more character. -/
def next (c : Char) : Place → Place
  | between | word =>
      if isSeparator c then between
      else if c = '\'' then single
      else if c = '"' then double
      else if c = '\\' then escaped
      else word
  | single => if c = '\'' then word else single
  | double => if c = '"' then word else if c = '\\' then doubleEscaped else double
  | escaped => word
  | doubleEscaped => double

/-- What a character adds to the open word, the last letter first. -/
def added (c : Char) : Place → List Char
  | between | word => if c = '\'' ∨ c = '"' ∨ c = '\\' then [] else [c]
  | single => if c = '\'' then [] else [c]
  | double => if c = '"' ∨ c = '\\' then [] else [c]
  | escaped => if c = '\n' then [] else [c]
  | doubleEscaped => if c = '\n' then [] else if isProtected c then [c] else [c, '\\']

/-- Separators separate at this place. -/
def isOutside : Place → Bool
  | between | word => true
  | single | double | escaped | doubleEscaped => false

/-- Only a separator leads between words. -/
theorem next_eq_between_iff {place : Place} {c : Char} :
    place.next c = .between ↔ (place.isOutside && isSeparator c) = true := by
  cases place with
  | between | word | single | double => grind [next, isOutside]
  | escaped | doubleEscaped => simp [next, isOutside]

end Place

/-- The place behind the characters of a line. -/
def placeAfter (line : List Char) : Place := line.foldl (fun place c => place.next c) .between

/-! ### Scans -/

/-- A scan that has come to a place of a line. -/
structure Scan where
  place : Place
  /-- The characters of the open word, the last one first. -/
  letters : List Char
  /-- The words in front of it. -/
  words : List (List Char)

namespace Scan

/-- The words, with the open one if there is one. -/
def closed (scan : Scan) : List (List Char) :=
  if scan.place = .between then scan.words else scan.words ++ [scan.letters.reverse]

/-- One more character. -/
def step (scan : Scan) (c : Char) : Scan :=
  if scan.place.isOutside && isSeparator c then ⟨.between, [], scan.closed⟩
  else ⟨scan.place.next c, scan.place.added c ++ scan.letters, scan.words⟩

/-- All characters of a line. -/
def run (scan : Scan) (line : List Char) : Scan := line.foldl step scan

/-- The words at the end of the line. -/
def finish (scan : Scan) : Except SplitError (List (List Char)) :=
  match scan.place with
  | .between | .word => .ok scan.closed
  | .single => .error .unterminatedSingleQuote
  | .double | .doubleEscaped => .error .unterminatedDoubleQuote
  | .escaped => .error .trailingBackslash

/-- The words are complete outside quotes. -/
theorem finish_eq_ok_iff {scan : Scan} {words : List (List Char)} :
    scan.finish = .ok words ↔ scan.place.isOutside = true ∧ scan.closed = words := by
  unfold finish
  cases scan.place with
  | between | word => simp [Place.isOutside]
  | single | double | escaped | doubleEscaped => simp [Place.isOutside]

@[simp]
theorem run_cons (scan : Scan) (c : Char) (line : List Char) :
    scan.run (c :: line) = (scan.step c).run line := rfl

@[simp]
theorem run_append (scan : Scan) (front back : List Char) :
    scan.run (front ++ back) = (scan.run front).run back :=
  List.foldl_append

@[simp]
theorem place_step (scan : Scan) (c : Char) : (scan.step c).place = scan.place.next c := by
  unfold step
  split
  · rename_i h
    exact (Place.next_eq_between_iff.mpr h).symm
  · rfl

/-- Between two words no word is open. -/
theorem letters_step {scan : Scan} {c : Char} (h : (scan.step c).place = .between) :
    (scan.step c).letters = [] := by
  rw [place_step, Place.next_eq_between_iff] at h
  rw [step, if_pos h]

theorem place_run (scan : Scan) (line : List Char) :
    (scan.run line).place = line.foldl (fun place c => place.next c) scan.place := by
  induction line generalizing scan with
  | nil => rfl
  | cons c line ih => simp [ih]

/-! ### The reader as a scan -/

/-- The scan that stands where the reader does, behind some words. -/
def ofCursor (words : List (List Char)) : Cursor → Scan
  | .between => ⟨.between, [], words⟩
  | .word letters => ⟨.word, letters, words⟩
  | .single letters => ⟨.single, letters, words⟩
  | .double letters => ⟨.double, letters, words⟩

variable {cursor : Cursor}

@[simp]
theorem finish_ofCursor (cursor : Cursor) (words : List (List Char)) :
    (ofCursor words cursor).finish = (words ++ ·) <$> cursor.finish := by
  cases cursor with
  | between => exact congrArg Except.ok (List.append_nil words).symm
  | word | single | double => rfl

@[simp]
theorem step_separator (h : cursor.IsOutside) {c : Char} (hsep : isSeparator c = true)
    (words : List (List Char)) :
    (ofCursor words cursor).step c = ofCursor (words ++ cursor.completed) .between := by
  cases cursor with
  | between | word => simp [step, ofCursor, closed, hsep, Cursor.completed, Place.isOutside]
  | single | double => exact h.elim

@[simp]
theorem step_outside (h : cursor.IsOutside) {c : Char} (hsep : ¬ isSeparator c = true)
    (words : List (List Char)) :
    (ofCursor words cursor).step c
      = ⟨Place.word.next c, Place.word.added c ++ cursor.letters, words⟩ := by
  have hstep : ¬ (true && isSeparator c) = true := by simpa using hsep
  cases cursor with
  | between | word => exact if_neg hstep
  | single | double => exact h.elim

/-- Behind complete words a separator leads to where a line starts. -/
theorem run_separator {scan : Scan} {words : List (List Char)} (h : scan.finish = .ok words)
    {c : Char} (hsep : isSeparator c = true) : scan.run [c] = ofCursor words .between := by
  obtain ⟨houtside, hclosed⟩ := finish_eq_ok_iff.mp h
  have hends : (scan.place.isOutside && isSeparator c) = true := by rw [houtside, hsep]; rfl
  show scan.step c = ⟨.between, [], words⟩
  rw [step, if_pos hends, hclosed]

/-- **A scan gives the words that the reader finds.** -/
theorem finish_run_ofCursor (cursor : Cursor) (line : List Char) (words : List (List Char)) :
    ((ofCursor words cursor).run line).finish = (words ++ ·) <$> wordsFrom cursor line := by
  fun_induction wordsFrom cursor line generalizing words with
  | case1 cursor => exact finish_ofCursor cursor words
  -- Between single quotes.
  | case2 rest letters ih => rw [← ih]; rfl
  | case3 c rest letters hquote ih =>
    rw [← ih]
    simp [step, ofCursor, Place.isOutside, Place.next, Place.added, hquote]
  -- Between double quotes, where a backslash makes two steps of the scan.
  | case4 rest letters ih => rw [← ih]; rfl
  | case5 letters => rfl
  | case6 letters rest _ ih => rw [← ih]; rfl
  | case7 letters d rest hnewline hprotected _ ih =>
    rw [← ih]
    simp [step, ofCursor, Place.isOutside, Place.next, Place.added, hnewline, hprotected]
  | case8 letters d rest hnewline hprotected _ ih =>
    rw [← ih]
    simp [step, ofCursor, Place.isOutside, Place.next, Place.added, hnewline, hprotected]
  | case9 c rest letters hquote hback ih =>
    rw [← ih]
    simp [step, ofCursor, Place.isOutside, Place.next, Place.added, hquote, hback]
  -- Outside quotes.
  | case10 c rest outside hsingle hdouble hsep ih =>
    rw [run_cons, step_separator (Cursor.isOutside_of_ne hsingle hdouble) hsep, ih]
    simp only [Functor.map_map, List.append_assoc]
  | case11 rest outside hsingle hdouble hsep ih =>
    rw [← ih, run_cons, step_outside (Cursor.isOutside_of_ne hsingle hdouble) hsep]
    rfl
  | case12 rest outside hsingle hdouble hsep _ ih =>
    rw [← ih, run_cons, step_outside (Cursor.isOutside_of_ne hsingle hdouble) hsep]
    rfl
  | case13 outside hsingle hdouble hsep =>
    rw [run_cons, step_outside (Cursor.isOutside_of_ne hsingle hdouble) hsep]
    rfl
  | case14 outside hsingle hdouble rest hsep _ _ ih =>
    rw [← ih, run_cons, step_outside (Cursor.isOutside_of_ne hsingle hdouble) hsep]
    rfl
  | case15 outside hsingle hdouble d rest hnewline hsep _ _ ih =>
    rw [← ih, run_cons, step_outside (Cursor.isOutside_of_ne hsingle hdouble) hsep]
    simp [step, ofCursor, Place.isOutside, Place.next, Place.added, hnewline, isSeparator]
  | case16 c rest outside hsingle hdouble hsep hquote hquotes hback ih =>
    rw [← ih, run_cons, step_outside (Cursor.isOutside_of_ne hsingle hdouble) hsep]
    simp [ofCursor, Place.next, Place.added, hsep, hquote, hquotes, hback]

/-! ### Scans from the start of a line -/

/-- The start of a line. -/
def start : Scan := ofCursor [] .between

@[simp]
theorem place_start (line : List Char) : (start.run line).place = placeAfter line :=
  place_run start line

theorem letters_start {line : List Char} (h : placeAfter line = .between) :
    (start.run line).letters = [] := by
  rw [← place_start] at h
  rcases List.eq_nil_or_concat line with rfl | ⟨front, c, rfl⟩
  · rfl
  · rw [List.concat_eq_append, run_append] at h ⊢
    exact letters_step h

end Scan

/-! ### Cutting a line -/

/-- The words of a line, as a scan finds them. -/
theorem split_eq_scan (line : String) :
    split line = (·.map String.ofList) <$> (Scan.start.run line.toList).finish := by
  rw [Scan.start, Scan.finish_run_ofCursor, split]
  cases wordsFrom .between line.toList with
  | error cause => rfl
  | ok words => rfl

/-- A scan that comes out between two words has the words that it has, whatever follows. -/
theorem split_append_of_run {front : String} {words : List (List Char)}
    (h : Scan.start.run front.toList = Scan.ofCursor words .between) (rest : String) :
    split (front ++ rest) = (words.map String.ofList ++ ·) <$> split rest := by
  rw [split_eq_scan, String.toList_append, Scan.run_append, h, Scan.finish_run_ofCursor, split]
  cases wordsFrom .between rest.toList with
  | error cause => rfl
  | ok found => exact congrArg Except.ok List.map_append

/-- **Between two words the line starts anew**, behind the words that it has already. -/
theorem split_append_of_between {front : String} (h : placeAfter front.toList = .between) :
    ∃ before, split front = .ok before
      ∧ ∀ rest, split (front ++ rest) = (before ++ ·) <$> split rest := by
  obtain ⟨words, hscan⟩ : ∃ words, Scan.start.run front.toList = Scan.ofCursor words .between := by
    refine ⟨(Scan.start.run front.toList).words, ?_⟩
    rw [Scan.ofCursor, ← h, ← Scan.place_start, ← Scan.letters_start h]
  refine ⟨words.map String.ofList, ?_, split_append_of_run hscan⟩
  rw [split_eq_scan, hscan]
  rfl

/-- **Behind a separator outside quotes the line starts anew.**  Where the line in front of the
separator can be split, its words come first, and what follows is split as if it stood alone, or
fails as it fails alone. -/
theorem split_append_separator {front : String} {words : List String}
    (h : split front = .ok words) {c : Char} (hc : c ∈ [' ', '\t', '\n']) (rest : String) :
    split (front ++ String.singleton c ++ rest) = (words ++ ·) <$> split rest := by
  have hsep : isSeparator c = true := by simpa [isSeparator, or_assoc] using hc
  rw [split_eq_scan] at h
  obtain ⟨found, hfinish, rfl⟩ := map_eq_ok_iff.mp h
  refine split_append_of_run ?_ rest
  rw [String.toList_append, String.toList_singleton, Scan.run_append]
  exact Scan.run_separator hfinish hsep

/-- The line in front ends with an empty word, which a continued line has begun. -/
theorem split_append_separator_continued :
    split "gcc '-DX=a b' \\\n" = .ok ["gcc", "-DX=a b", ""]
      ∧ split ("gcc '-DX=a b' \\\n" ++ String.singleton '\t' ++ " \"a b\".c")
        = .ok ["gcc", "-DX=a b", "", "a b.c"]
      ∧ split ("gcc '-DX=a b' \\\n" ++ String.singleton '\n' ++ "a.c \"oops")
        = .error .unterminatedDoubleQuote := by
  have hfront : split "gcc '-DX=a b' \\\n" = .ok ["gcc", "-DX=a b", ""] := by cbv
  have hsource : split " \"a b\".c" = .ok ["a b.c"] := by cbv
  have hopen : split "a.c \"oops" = .error .unterminatedDoubleQuote := by cbv
  refine ⟨hfront, ?_, ?_⟩
  · rw [split_append_separator hfront (by decide), hsource]
    rfl
  · rw [split_append_separator hfront (by decide), hopen]
    rfl

end CompileCommands.Shell
