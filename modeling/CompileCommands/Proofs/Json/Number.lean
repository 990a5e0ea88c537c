/-
Written whole numbers are read back.

A whole number is written by its digits and a sign.  The reader cuts the digits off the text,
which works wherever the text behind them could not go on a number, and then values them one
by one as long as they fit into 64 bits.  Digits that are known to end below that bound fit
all along, since the value only grows.
-/
import CompileCommands.Json.Number
import CompileCommands.Json.Reading

namespace CompileCommands.Json

/-! ### Digits of a number -/

theorem isDigit_of_mem_toDigits {n : Nat} {c : Char} (h : c ∈ Nat.toDigits 10 n) :
    c.isDigit = true :=
  Nat.isDigit_of_mem_toDigits (by decide) (by decide) h

/-- Only nought starts with a zero. -/
theorem toDigits_ne_zero_cons {n : Nat} (hn : 0 < n) (rest : List Char) :
    Nat.toDigits 10 n ≠ '0' :: rest := by
  induction n using Nat.strongRecOn generalizing rest with
  | ind n ih =>
    by_cases hsmall : n < 10
    · rw [Nat.toDigits_of_lt_base hsmall]
      intro h
      have hzero : n.digitChar = '0' := (List.cons.inj h).1
      rw [Nat.digitChar_eq_zero] at hzero
      omega
    · rw [Nat.toDigits_of_base_le (by decide) (by omega)]
      cases hdigits : Nat.toDigits 10 (n / 10) with
      | nil => exact absurd hdigits Nat.toDigits_ne_nil
      | cons c digits =>
        intro h
        have hzero : c = '0' := (List.cons.inj h).1
        exact ih (n / 10) (by omega) (by omega) digits (by rw [hdigits, hzero])

/-- A whole number is written by its digits, behind a minus sign when it is negative. -/
theorem toList_toString (n : Int) :
    (toString n).toList
      = if n < 0 then '-' :: Nat.toDigits 10 n.natAbs else Nat.toDigits 10 n.natAbs := by
  cases n with
  | ofNat m =>
    rw [if_neg (by simp)]
    exact Nat.toList_repr
  | negSucc m =>
    rw [if_pos (Int.negSucc_lt_zero m)]
    show ("-" ++ (m + 1).repr).toList = _
    rw [String.toList_append, Nat.toList_repr]
    rfl

/-! ### Cutting digits off a text -/

/-- A text that cannot go on a number. -/
def EndsNumber (rest : List (Option Char)) : Prop :=
  ∀ c after, rest = some c :: after → c.isDigit = false ∧ c ≠ '.' ∧ c ≠ 'e' ∧ c ≠ 'E'

@[simp] theorem endsNumber_nil : EndsNumber [] := by
  intro c after h
  cases h

theorem spanDigits_digits (digits : List Char) {rest : List (Option Char)}
    (hdigits : ∀ c ∈ digits, c.isDigit = true) (hrest : EndsNumber rest) :
    spanDigits (digits.map some ++ rest) = (digits, rest) := by
  induction digits with
  | nil =>
    match rest with
    | [] => rfl
    | none :: _ => rfl
    | some c :: after =>
      have hc := (hrest c after rfl).1
      simp [spanDigits, hc]
  | cons c digits ih =>
    have hc := hdigits c (by simp)
    rw [List.map_cons, List.cons_append, spanDigits, if_pos hc,
      ih fun d hd => hdigits d (by simp [hd])]

theorem someDigits_digits (atEnd : Flaw) {digits : List Char} {rest : List (Option Char)}
    (hne : digits ≠ []) (hdigits : ∀ c ∈ digits, c.isDigit = true) (hrest : EndsNumber rest) :
    someDigits atEnd (digits.map some ++ rest) = .ok (digits, rest) := by
  rw [someDigits, spanDigits_digits digits hdigits hrest]
  cases digits with
  | nil => exact absurd rfl hne
  | cons c digits => rfl

theorem wholeDigits_toDigits (atEnd : Flaw) (n : Nat) {rest : List (Option Char)}
    (hrest : EndsNumber rest) :
    wholeDigits atEnd ((Nat.toDigits 10 n).map some ++ rest) = .ok (Nat.toDigits 10 n, rest) := by
  rw [wholeDigits, someDigits_digits atEnd Nat.toDigits_ne_nil
    (fun c hc => isDigit_of_mem_toDigits hc) hrest]
  by_cases hn : n = 0
  · subst hn
    rfl
  · cases hdigits : Nat.toDigits 10 n with
    | nil => rfl
    | cons c digits =>
      have hc : c ≠ '0' := by
        rintro rfl
        exact toDigits_ne_zero_cons (Nat.pos_of_ne_zero hn) digits hdigits
      simp only [bind, Except.bind]
      split
      · rename_i heq
        exact absurd (List.cons.inj (Prod.mk.inj heq).1).1 hc
      · rfl

theorem fractionDigits_none (atEnd : Flaw) {rest : List (Option Char)} (hrest : EndsNumber rest) :
    fractionDigits atEnd rest = .ok ([], rest) := by
  unfold fractionDigits
  split
  · exact absurd rfl (hrest '.' _ rfl).2.1
  · rfl

theorem powerDigits_none (atEnd : Flaw) {rest : List (Option Char)} (hrest : EndsNumber rest) :
    powerDigits atEnd rest = .ok (none, rest) := by
  unfold powerDigits
  split
  · rename_i c after
    obtain ⟨-, -, hlower, hupper⟩ := hrest c after rfl
    rw [if_neg (by simp [hlower, hupper])]
  · rfl
  · rfl

theorem numeral_toDigits (atEnd : Flaw) (n : Nat) {rest : List (Option Char)}
    (hrest : EndsNumber rest) :
    numeral atEnd ((Nat.toDigits 10 n).map some ++ rest)
      = .ok (⟨Nat.toDigits 10 n, [], none⟩, rest) := by
  rw [numeral, wholeDigits_toDigits atEnd n hrest]
  simp only [bind, Except.bind, fractionDigits_none atEnd hrest, powerDigits_none atEnd hrest]
  rfl

/-! ### Values -/

theorem le_ofDigitChars (digits : List Char) (value : Nat) :
    value ≤ Nat.ofDigitChars 10 digits value := by
  induction digits generalizing value with
  | nil => simp
  | cons c digits ih =>
    rw [Nat.ofDigitChars_cons]
    have := ih (10 * value + (c.toNat - '0'.toNat))
    omega

theorem absorb_eq_ofDigitChars (digits : List Char) (value : Nat)
    (h : Nat.ofDigitChars 10 digits value < twoTo 64) :
    absorb value digits = (Nat.ofDigitChars 10 digits value, []) := by
  induction digits generalizing value with
  | nil => simp [absorb]
  | cons c digits ih =>
    rw [Nat.ofDigitChars_cons] at h ⊢
    have hstep : value * 10 + digitValue c = 10 * value + (c.toNat - '0'.toNat) := by
      rw [Nat.mul_comm]
      rfl
    have hle := le_ofDigitChars digits (10 * value + (c.toNat - '0'.toNat))
    rw [absorb, hstep, if_pos (by omega), ih _ h]

/-- A whole number as it is read. -/
def Number.ofInt (n : Int) : Number :=
  if n < 0 then .negative n.natAbs else .natural n.natAbs

/-- The whole numbers that are read as such. -/
def FitsNumber (n : Int) : Prop := -(twoTo 63 : Int) ≤ n ∧ n < (twoTo 64 : Int)

theorem fitsNumber_word (n : UInt32) : FitsNumber (Int.ofNat n.toNat) := by
  have hlt := n.toNat_lt
  have h63 : twoTo 63 = 9223372036854775808 := by decide
  have h64 : twoTo 64 = 18446744073709551616 := by decide
  rw [FitsNumber, Int.ofNat_eq_natCast]
  omega

theorem fitsNumber_integer (n : Int32) : FitsNumber n.toInt := by
  have hle := n.le_toInt
  have hlt := n.toInt_lt
  have h63 : twoTo 63 = 9223372036854775808 := by decide
  have h64 : twoTo 64 = 18446744073709551616 := by decide
  rw [FitsNumber]
  omega

theorem value_toDigits {n : Int} (h : FitsNumber n) :
    (Numeral.mk (Nat.toDigits 10 n.natAbs) [] none).value (decide (n < 0))
      = .ok (Number.ofInt n) := by
  obtain ⟨hlow, hhigh⟩ := h
  have h63 : twoTo 63 = 9223372036854775808 := by decide
  have h64 : twoTo 64 = 18446744073709551616 := by decide
  have habsorb : absorb 0 (Nat.toDigits 10 n.natAbs) = (n.natAbs, []) := by
    rw [absorb_eq_ofDigitChars _ _ (by rw [Nat.ofDigitChars_ten_toDigits]; omega),
      Nat.ofDigitChars_ten_toDigits]
  by_cases hneg : n < 0
  · have hne : n ≠ 0 := by omega
    have hsmall : ¬ twoTo 63 < n.natAbs := by omega
    simp [Numeral.value, habsorb, Number.ofInt, hneg, hne, hsmall]
  · simp [Numeral.value, habsorb, Number.ofInt, hneg]

/-- The digits of a number behind its sign. -/
theorem readNumber_toDigits {n : Int} (h : FitsNumber n) {rest : List (Option Char)}
    (hrest : EndsNumber rest) :
    readNumber (decide (n < 0)) ((Nat.toDigits 10 n.natAbs).map some ++ rest)
      = (⟨.ok (Number.ofInt n), none⟩, rest) := by
  rw [readNumber, numeral_toDigits _ _ hrest, numeral_toDigits _ _ hrest]
  simp only [bind, Except.bind, value_toDigits h]

end CompileCommands.Json
