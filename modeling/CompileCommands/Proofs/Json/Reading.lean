/-
A text that spells a value is read as that value.

The induction follows the spelling.  A list is read as its first item and the phrase that
is left behind it, so the three readers of values, items and members need one statement each,
and `Phrase.Reads` says which.  From there on nothing but the tree of a value matters: the
bytes of any text that spells the value, with blanks around it, are decoded like the tree.
-/
import CompileCommands.Json.Decode
import CompileCommands.Proofs.Json.Spelling
import CompileCommands.Proofs.Text.Utf8

namespace CompileCommands.Json

/-- The reader of a phrase takes exactly the text and gives the tree of the phrase. -/
def Phrase.Reads : Phrase → List Char → Prop
  | .value v, text => ∀ steps rest, 3 * text.length ≤ steps → EndsNumber rest →
      readValue steps (text.map some ++ rest) = (v.reading, rest)
  | .items vs, text => ∀ steps rest, 3 * text.length ≤ steps →
      readNextItem steps (text.map some ++ rest) = (readingItems vs, rest)
  | .members fields, text => ∀ steps rest, 3 * text.length ≤ steps →
      readNextMember steps (text.map some ++ rest) = (readingMembers fields, rest)

/-! ### Single values -/

theorem reads_number {n : Int} (h : FitsNumber n) :
    (Phrase.value (.number n)).Reads (toString n).toList := by
  intro steps rest hsteps hrest
  have hread := readNumber_toDigits h hrest
  rw [toList_toString] at hsteps ⊢
  by_cases hneg : n < 0
  · rw [if_pos hneg] at hsteps ⊢
    rw [decide_eq_true hneg] at hread
    obtain ⟨k, rfl⟩ : ∃ k, steps = k + 1 :=
      ⟨steps - 1, by rw [List.length_cons] at hsteps; omega⟩
    rw [List.map_cons, List.cons_append, readValue_minus, hread, Value.reading]
  · rw [if_neg hneg] at hsteps ⊢
    rw [decide_eq_false hneg] at hread
    cases hdigits : Nat.toDigits 10 n.natAbs with
    | nil => exact absurd hdigits Nat.toDigits_ne_nil
    | cons c digits =>
      have hc : c.isDigit = true := isDigit_of_mem_toDigits (n := n.natAbs) (by simp [hdigits])
      rw [hdigits] at hread hsteps
      obtain ⟨k, rfl⟩ : ∃ k, steps = k + 1 :=
        ⟨steps - 1, by rw [List.length_cons] at hsteps; omega⟩
      rw [List.map_cons, List.cons_append] at hread ⊢
      rw [readValue_digit hc, hread, Value.reading]

/-! ### All values -/

/-- **A text that spells a phrase is read as the phrase.** -/
theorem Spells.reads {phrase : Phrase} {text : List Char} (h : Spells phrase text) :
    phrase.Reads text := by
  induction h with
  | null | boolTrue | boolFalse =>
    intro steps rest hsteps _
    obtain ⟨k, rfl⟩ : ∃ k, steps = k + 1 := ⟨steps - 1, by simp at hsteps; omega⟩
    simp [readValue, skipBlanks_cons, isBlank, readWord, Value.reading]
  | number h => exact reads_number h
  | text s =>
    intro steps rest hsteps _
    obtain ⟨k, rfl⟩ : ∃ k, steps = k + 1 :=
      ⟨steps - 1, by simp [Value.quoted] at hsteps; omega⟩
    rw [map_quoted_append, readValue_text, readText_quoted, Value.reading]
  | @emptyList gap hgap =>
    intro steps rest hsteps _
    obtain ⟨k, rfl⟩ : ∃ k, steps = k + 2 := ⟨steps - 2, by simp at hsteps; omega⟩
    simp [hgap, Value.reading, readingItems]
  | @list gap first others item items hgap hitem hitems ihitem ihitems =>
    intro steps rest hsteps _
    simp only [List.cons_append, List.length_cons, List.length_append] at hsteps
    obtain ⟨k, rfl⟩ : ∃ k, steps = k + 3 := ⟨steps - 3, by omega⟩
    have hfirst := ihitem k (others.map some ++ rest) (by omega)
      (hitems.endsNumber (by simp) rest)
    have hothers := ihitems k rest (by omega)
    simp [readFirstItem_item hgap hitem, readItem_value hfirst, hothers, Value.reading,
      readingItems]
  | @emptyRecord gap hgap =>
    intro steps rest hsteps _
    obtain ⟨k, rfl⟩ : ∃ k, steps = k + 2 := ⟨steps - 2, by simp at hsteps; omega⟩
    simp [hgap, Value.reading, readingMembers]
  | @record gap behindName behindColon first others name value fields hgap hname hcolon hvalue
      hfields ihvalue ihfields =>
    intro steps rest hsteps _
    simp only [List.cons_append, List.append_assoc, List.length_cons, List.length_append]
      at hsteps
    obtain ⟨k, rfl⟩ : ∃ k, steps = k + 3 := ⟨steps - 3, by omega⟩
    have hfirst := ihvalue k (others.map some ++ rest) (by omega)
      (hfields.endsNumber (by simp) rest)
    have hothers := ihfields k rest (by omega)
    simp [hgap, readMember_quoted hname hcolon hfirst, hothers, Value.reading, readingMembers]
  | @lastItem gap hgap =>
    intro steps rest hsteps
    obtain ⟨k, rfl⟩ : ∃ k, steps = k + 1 := ⟨steps - 1, by simp at hsteps; omega⟩
    simp [hgap, readingItems]
  | @nextItem gap behindComma first others item items hgap hcomma hitem hitems ihitem ihitems =>
    intro steps rest hsteps
    simp only [List.cons_append, List.append_assoc, List.length_cons, List.length_append]
      at hsteps
    obtain ⟨k, rfl⟩ : ∃ k, steps = k + 2 := ⟨steps - 2, by omega⟩
    have hfirst := ihitem k (others.map some ++ rest) (by omega)
      (hitems.endsNumber (by simp) rest)
    rw [← readValue_gap hcomma] at hfirst
    have hothers := ihitems k rest (by omega)
    simp [hgap, readItem_value hfirst, hothers, readingItems]
  | @lastMember gap hgap =>
    intro steps rest hsteps
    obtain ⟨k, rfl⟩ : ∃ k, steps = k + 1 := ⟨steps - 1, by simp at hsteps; omega⟩
    simp [hgap, readingMembers]
  | @nextMember gap behindComma behindName behindColon first others name value fields hgap hcomma
      hname hcolon hvalue hfields ihvalue ihfields =>
    intro steps rest hsteps
    simp only [List.cons_append, List.append_assoc, List.length_cons, List.length_append]
      at hsteps
    obtain ⟨k, rfl⟩ : ∃ k, steps = k + 2 := ⟨steps - 2, by omega⟩
    have hfirst := ihvalue k (others.map some ++ rest) (by omega)
      (hfields.endsNumber (by simp) rest)
    have hothers := ihfields k rest (by omega)
    simp [hgap, hcomma, readMember_quoted hname hcolon hfirst, hothers, readingMembers]

/-! ### Whole texts -/

/-- The text is read as the value and nothing else, whatever blanks and escapes it has. -/
def Holds (text : String) (value : Value) : Prop :=
  Document.ofText (text.toList.map some) = ⟨value.reading, none⟩

/-- A text that spells a value holds it, also with blanks around it. -/
theorem holds_of_spells {value : Value} {before text after : List Char}
    (hbefore : AllBlank before) (h : Spells (.value value) text) (hafter : AllBlank after) :
    Holds (String.ofList (before ++ text ++ after)) value := by
  have hend : EndsNumber (after.map some) := by
    cases after with
    | nil => exact endsNumber_nil
    | cons c after => exact endsNumber_blank (hafter c (by simp)) _
  have hread : ∀ steps, 3 * text.length ≤ steps →
      readValue steps ((before ++ text ++ after).map some) = (value.reading, after.map some) := by
    intro steps hsteps
    simpa [hbefore] using h.reads steps _ hsteps hend
  have hdone : skipBlanks (after.map some) = [] := by
    simpa [skipBlanks] using skipBlanks_gap hafter []
  rw [Holds, String.toList_ofList, Document.ofText, hread _ (by simp; omega)]
  simp only [hdone]
  rfl

/-- The bytes of a text are decoded like the tree of the value that it holds. -/
theorem decodeBytes_of_holds {α : Type} (decode : Decoder α) {text : String} {value : Value}
    (h : Holds text value) : decodeBytes decode text.toUTF8 = decode value.reading := by
  rw [decodeBytes, Document.ofBytes, Text.decode_toUTF8, h]
  simp only [Document.decode, bind, Except.bind]
  cases decode value.reading <;> rfl

end CompileCommands.Json
