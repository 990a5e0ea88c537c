/-
Written strings are read back.

A character is written as itself, behind a backslash, or as a code point in four digits.
Whichever it is, the machine that reads strings comes back to its plain state with that
character added.  A reader that skips a string does not hear of the code points, but it goes
through the same states, so both find the same end.
-/
import CompileCommands.Json.Reading
import CompileCommands.Json.Value

namespace CompileCommands.Json

/-! ### Steps of the machine -/

theorem scanText_step {pairing : Bool} {state next : TextState} {c : Option Char}
    {added : List (Option Char)} (h : textStep pairing state c = .ok (some (next, added)))
    (before rest : List (Option Char)) :
    scanText pairing state before (c :: rest) = scanText pairing next (added ++ before) rest := by
  rw [scanText, h]

@[simp]
theorem scanText_close (pairing : Bool) (before rest : List (Option Char)) :
    scanText pairing .plain before (some '"' :: rest) = .ok (before.reverse, rest) := by
  rw [scanText, textStep, if_pos rfl]

@[simp]
theorem textStep_backslash (pairing : Bool) :
    textStep pairing .plain (some '\\') = .ok (some (.escape, [])) := by
  simp [textStep]

theorem textStep_plain {c : Char} (hquote : c ≠ '"') (hback : c ≠ '\\') (hcontrol : ¬ c.toNat < 32)
    (pairing : Bool) : textStep pairing .plain (some c) = .ok (some (.plain, [some c])) := by
  simp [textStep, hquote, hback, hcontrol]

theorem textStep_short {letter meant : Char} (h : shortEscape? letter = some meant)
    (hu : letter ≠ 'u') (pairing : Bool) :
    textStep pairing .escape (some letter) = .ok (some (.plain, [some meant])) := by
  simp [textStep, hu, h]

/-! ### Code points -/

@[simp] theorem hexValue?_hexDigit : ∀ n < 16, hexValue? (Value.hexDigit n) = some n := by decide

@[simp] theorem utf8Size_hexDigit : ∀ n < 16, (Value.hexDigit n).utf8Size = 1 := by decide

/-- A digit that more digits have to follow. -/
theorem textStep_digit {owed value n : Nat} (hn : n < 16) (howed : 1 < owed) (pairing : Bool)
    (high : Option Nat) :
    textStep pairing (.hex owed (some value) high) (some (Value.hexDigit n))
      = .ok (some (.hex (owed - 1) (some (value * 16 + n)) high, [])) := by
  have hmore : ¬ owed ≤ 1 := by omega
  simp [textStep, Text.byteSize, hn, hmore]

/-- The last digit of a code point that needs no second half. -/
theorem textStep_lastDigit {value n : Nat} (hn : n < 16) (hsmall : value * 16 + n < 0xD800)
    (pairing : Bool) :
    textStep pairing (.hex 1 (some value) none) (some (Value.hexDigit n))
      = .ok (some (.plain, if pairing then [some (Char.ofNat (value * 16 + n))] else [])) := by
  have hlow : isLowSurrogate (value * 16 + n) = false := by
    rw [isLowSurrogate, decide_eq_false (by omega), Bool.false_and]
  have hhigh : isHighSurrogate (value * 16 + n) = false := by
    rw [isHighSurrogate, decide_eq_false (by omega), Bool.false_and]
  cases pairing <;>
    simp [textStep, Text.byteSize, hn, closeHex, hlow, hhigh, Functor.map, Except.map]

/-! ### Characters -/

/-- A short escape takes the machine to the character it stands for. -/
theorem scanText_short {letter meant : Char} (h : shortEscape? letter = some meant)
    (hu : letter ≠ 'u') (pairing : Bool) (before rest : List (Option Char)) :
    scanText pairing .plain before (some '\\' :: some letter :: rest)
      = scanText pairing .plain (some meant :: before) rest := by
  rw [scanText_step (textStep_backslash pairing), scanText_step (textStep_short h hu pairing)]
  rfl

theorem scanText_codePoint {n : Nat} (hn : n < 32) (pairing : Bool)
    (before rest : List (Option Char)) :
    scanText pairing .plain before
        (some '\\' :: some 'u' :: some '0' :: some '0' :: some (Value.hexDigit (n / 16))
          :: some (Value.hexDigit (n % 16)) :: rest)
      = scanText pairing .plain
          ((if pairing then [some (Char.ofNat n)] else []) ++ before) rest := by
  have hopen : textStep pairing .escape (some 'u') = .ok (some (.hex 4 (some 0) none, [])) := by
    simp [textStep]
  have hzero : some '0' = some (Value.hexDigit 0) := rfl
  rw [scanText_step (textStep_backslash pairing), scanText_step hopen, hzero,
    scanText_step (textStep_digit (by omega) (by omega) pairing none),
    scanText_step (textStep_digit (by omega) (by omega) pairing none),
    scanText_step (textStep_digit (by omega) (by omega) pairing none),
    scanText_step (textStep_lastDigit (by omega) (by omega) pairing)]
  rw [show (((0 * 16 + 0) * 16 + 0) * 16 + n / 16) * 16 + n % 16 = n by omega]
  rfl

/-- A character is written behind a backslash, as a code point, or as itself. -/
theorem escape_cases (c : Char) :
    (∃ letter, Value.escape c = ['\\', letter] ∧ shortEscape? letter = some c ∧ letter ≠ 'u')
      ∨ (c.toNat < 32 ∧ Value.escape c
          = ['\\', 'u', '0', '0', Value.hexDigit (c.toNat / 16), Value.hexDigit (c.toNat % 16)])
      ∨ (c ≠ '"' ∧ c ≠ '\\' ∧ ¬ c.toNat < 32 ∧ Value.escape c = [c]) := by
  by_cases hshort : c ∈ ['"', '\\', '\x08', '\t', '\n', '\x0c', '\r']
  · left
    simp only [List.mem_cons, List.not_mem_nil, or_false] at hshort
    rcases hshort with rfl | rfl | rfl | rfl | rfl | rfl | rfl <;>
      exact ⟨_, rfl, rfl, by decide⟩
  · right
    simp only [List.mem_cons, List.not_mem_nil, or_false, not_or] at hshort
    obtain ⟨hquote, hback, hbackspace, htab, hnewline, hfeed, hreturn⟩ := hshort
    unfold Value.escape
    rw [if_neg hquote, if_neg hback, if_neg hbackspace, if_neg htab, if_neg hnewline,
      if_neg hfeed, if_neg hreturn]
    by_cases hcontrol : c.toNat < 32
    · exact .inl ⟨hcontrol, if_pos hcontrol⟩
    · exact .inr ⟨hquote, hback, hcontrol, if_neg hcontrol⟩

/-- However a character is written, it is heard when it is wanted. -/
theorem scanText_escape (pairing : Bool) (c : Char) :
    ∃ heard, (pairing = true → heard = [some c]) ∧ ∀ before rest,
      scanText pairing .plain before ((Value.escape c).map some ++ rest)
        = scanText pairing .plain (heard ++ before) rest := by
  rcases escape_cases c with ⟨letter, hescape, hshort, hu⟩ | ⟨hcontrol, hescape⟩
    | ⟨hquote, hback, hcontrol, hescape⟩
  · rw [hescape]
    exact ⟨[some c], fun _ => rfl, scanText_short hshort hu pairing⟩
  · rw [hescape]
    refine ⟨if pairing then [some (Char.ofNat c.toNat)] else [], ?_,
      scanText_codePoint hcontrol pairing⟩
    rintro rfl
    rw [if_pos rfl, Char.ofNat_toNat]
  · rw [hescape]
    exact ⟨[some c], fun _ => rfl, fun before rest =>
      scanText_step (textStep_plain hquote hback hcontrol pairing) before rest⟩

/-! ### Strings -/

theorem scanText_escaped (pairing : Bool) (text : List Char) (rest : List (Option Char)) :
    ∃ heard, (pairing = true → heard = text.map some) ∧ ∀ before,
      scanText pairing .plain before ((text.flatMap Value.escape).map some ++ some '"' :: rest)
        = .ok (before.reverse ++ heard, rest) := by
  induction text with
  | nil =>
    exact ⟨[], fun _ => rfl, fun before => by simp⟩
  | cons c text ih =>
    obtain ⟨first, hfirst, hstep⟩ := scanText_escape pairing c
    obtain ⟨others, hothers, htext⟩ := ih
    refine ⟨first.reverse ++ others, ?_, fun before => ?_⟩
    · intro hpairing
      rw [hfirst hpairing, hothers hpairing]
      rfl
    · rw [List.flatMap_cons, List.map_append, List.append_assoc, hstep, htext]
      simp

@[simp]
theorem wellEncoded_map_some (text : List Char) :
    wellEncoded (text.map some) = .ok (String.ofList text) := by
  have hall : (text.map some).mapM id = some text := by
    induction text with
    | nil => rfl
    | cons c text ih => rw [List.map_cons, List.mapM_cons, ih]; rfl
  rw [wellEncoded, hall]

/-- The characters of a string as they stand in a text, behind the opening quote. -/
@[simp]
theorem readText_quoted (text : String) (rest : List (Option Char)) :
    readText ((text.toList.flatMap Value.escape).map some ++ some '"' :: rest)
      = (⟨.ok text, none⟩, rest) := by
  obtain ⟨wanted, hwanted, hread⟩ := scanText_escaped true text.toList rest
  obtain ⟨ignored, -, hskip⟩ := scanText_escaped false text.toList rest
  rw [readText, hread, hskip, hwanted rfl]
  simp [bind, Except.bind]

end CompileCommands.Json
