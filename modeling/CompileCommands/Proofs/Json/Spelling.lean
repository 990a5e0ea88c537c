/-
Texts of JSON values, and how they are read.

A value has many texts, which differ in the blanks between their parts.  `Spells` says which
texts those are.  A text that spells a value is read as the tree of the value, and what
stands behind it is left over; this is the one fact that the layout of a text does not matter to.

The readers count their steps down.  Of three steps in a row one takes a character off the
text, so the induction carries the bound `3 * text.length ≤ steps` along.
-/
import Mathlib.Tactic.Tauto
import CompileCommands.Proofs.Json.Number
import CompileCommands.Proofs.Json.Text

namespace CompileCommands.Json

/-! ### Spellings -/

/-- The characters that may stand between the parts of a text. -/
def AllBlank (gap : List Char) : Prop := ∀ c ∈ gap, isBlank (some c) = true

/-- What a piece of a text stands for: a value, or what is left of a list or a record behind
one of its parts, up to and including the closing bracket. -/
inductive Phrase
  | value (value : Value)
  | items (items : List Value)
  | members (fields : List (String × Value))

/-- The text spells the phrase. -/
inductive Spells : Phrase → List Char → Prop
  | null : Spells (.value .null) "null".toList
  | boolTrue : Spells (.value (.bool true)) "true".toList
  | boolFalse : Spells (.value (.bool false)) "false".toList
  | number {n : Int} (h : FitsNumber n) : Spells (.value (.number n)) (toString n).toList
  | text (s : String) : Spells (.value (.text s)) (Value.quoted s)
  | emptyList {gap : List Char} (hgap : AllBlank gap) :
      Spells (.value (.list [])) ('[' :: gap ++ [']'])
  | list {gap first others : List Char} {item : Value} {items : List Value}
      (hgap : AllBlank gap) (hitem : Spells (.value item) first)
      (hitems : Spells (.items items) others) :
      Spells (.value (.list (item :: items))) ('[' :: gap ++ first ++ others)
  | emptyRecord {gap : List Char} (hgap : AllBlank gap) :
      Spells (.value (.record [])) ('\x7b' :: gap ++ ['\x7d'])
  | record {gap behindName behindColon first others : List Char} {name : String} {value : Value}
      {fields : List (String × Value)} (hgap : AllBlank gap) (hname : AllBlank behindName)
      (hcolon : AllBlank behindColon) (hvalue : Spells (.value value) first)
      (hfields : Spells (.members fields) others) :
      Spells (.value (.record ((name, value) :: fields)))
        ('\x7b' :: gap ++ Value.quoted name ++ behindName ++ ':' :: behindColon ++ first ++ others)
  | lastItem {gap : List Char} (hgap : AllBlank gap) : Spells (.items []) (gap ++ [']'])
  | nextItem {gap behindComma first others : List Char} {item : Value} {items : List Value}
      (hgap : AllBlank gap) (hcomma : AllBlank behindComma) (hitem : Spells (.value item) first)
      (hitems : Spells (.items items) others) :
      Spells (.items (item :: items)) (gap ++ ',' :: behindComma ++ first ++ others)
  | lastMember {gap : List Char} (hgap : AllBlank gap) : Spells (.members []) (gap ++ ['\x7d'])
  | nextMember {gap behindComma behindName behindColon first others : List Char} {name : String}
      {value : Value} {fields : List (String × Value)} (hgap : AllBlank gap)
      (hcomma : AllBlank behindComma) (hname : AllBlank behindName)
      (hcolon : AllBlank behindColon) (hvalue : Spells (.value value) first)
      (hfields : Spells (.members fields) others) :
      Spells (.members ((name, value) :: fields))
        (gap ++ ',' :: behindComma ++ Value.quoted name ++ behindName ++ ':' :: behindColon ++ first
          ++ others)

/-! ### The tree of a value -/

mutual

/-- What is read of a text that spells the value. -/
def Value.reading : Value → Reading
  | .null => .null
  | .bool b => .bool b
  | .number n => .number ⟨.ok (Number.ofInt n), none⟩
  | .text s => .text ⟨.ok s, none⟩
  | .list items => .list (readingItems items)
  | .record fields => .record (readingMembers fields)

def readingItems : List Value → Items
  | [] => .closed
  | item :: items => .item item.reading (readingItems items)

def readingMembers : List (String × Value) → Members
  | [] => .closed
  | (name, value) :: fields => .member ⟨.ok name, none⟩ value.reading (readingMembers fields)

end

/-! ### Blanks -/

@[simp]
theorem skipBlanks_gap {gap : List Char} (hgap : AllBlank gap) (rest : List (Option Char)) :
    skipBlanks (gap.map some ++ rest) = skipBlanks rest := by
  refine List.dropWhile_append_of_pos ?_
  intro c hc
  obtain ⟨d, hd, rfl⟩ := List.mem_map.mp hc
  exact hgap d hd

theorem skipBlanks_cons {c : Char} (hc : isBlank (some c) = false) (rest : List (Option Char)) :
    skipBlanks (some c :: rest) = some c :: rest := by
  rw [skipBlanks, List.dropWhile_cons_of_neg (by simp [hc])]

@[simp]
theorem readValue_gap {gap : List Char} (hgap : AllBlank gap) (steps : Nat)
    (rest : List (Option Char)) :
    readValue steps (gap.map some ++ rest) = readValue steps rest := by
  cases steps with
  | zero => rw [readValue, readValue]
  | succ steps => rw [readValue, readValue, skipBlanks_gap hgap]

theorem ne_of_isDigit {c d : Char} (hc : c.isDigit = true) (hd : d.isDigit = false) : c ≠ d := by
  rintro rfl
  rw [hc] at hd
  cases hd

theorem isBlank_of_isDigit {c : Char} (hc : c.isDigit = true) : isBlank (some c) = false := by
  have hother : ∀ {d : Char}, d.isDigit = false → c ≠ d := ne_of_isDigit hc
  simp [isBlank, hother (d := ' ') rfl, hother (d := '\n') rfl, hother (d := '\t') rfl,
    hother (d := '\r') rfl]

@[simp]
theorem readMember_gap {gap : List Char} (hgap : AllBlank gap) (steps : Nat)
    (rest : List (Option Char)) :
    readMember steps (gap.map some ++ rest) = readMember steps rest := by
  cases steps with
  | zero => rw [readMember, readMember]
  | succ steps => rw [readMember, readMember, skipBlanks_gap hgap]

/-! ### Single steps -/

@[simp]
theorem readValue_text (steps : Nat) (rest : List (Option Char)) :
    readValue (steps + 1) (some '"' :: rest) = (.text (readText rest).1, (readText rest).2) := by
  rw [readValue, skipBlanks_cons rfl]
  simp

@[simp]
theorem readValue_minus (steps : Nat) (rest : List (Option Char)) :
    readValue (steps + 1) (some '-' :: rest)
      = (.number (readNumber true rest).1, (readNumber true rest).2) := by
  rw [readValue, skipBlanks_cons rfl]
  simp

theorem readValue_digit {c : Char} (hc : c.isDigit = true) (steps : Nat)
    (rest : List (Option Char)) :
    readValue (steps + 1) (some c :: rest)
      = (.number (readNumber false (some c :: rest)).1,
          (readNumber false (some c :: rest)).2) := by
  have hother : ∀ {d : Char}, d.isDigit = false → c ≠ d := ne_of_isDigit hc
  rw [readValue, skipBlanks_cons (isBlank_of_isDigit hc)]
  simp [hc, hother (d := 'n') rfl, hother (d := 't') rfl, hother (d := 'f') rfl,
    hother (d := '"') rfl, hother (d := '-') rfl]

@[simp]
theorem readValue_list (steps : Nat) (rest : List (Option Char)) :
    readValue (steps + 1) (some '[' :: rest)
      = (.list (readFirstItem steps rest).1, (readFirstItem steps rest).2) := by
  rw [readValue, skipBlanks_cons rfl]
  simp

@[simp]
theorem readValue_record (steps : Nat) (rest : List (Option Char)) :
    readValue (steps + 1) (some '\x7b' :: rest)
      = (.record (readFirstMember steps rest).1, (readFirstMember steps rest).2) := by
  rw [readValue, skipBlanks_cons rfl]
  simp

/-- A written string, as a text with something behind it. -/
theorem map_quoted_append (text : String) (rest : List (Option Char)) :
    (Value.quoted text).map some ++ rest
      = some '"' :: ((text.toList.flatMap Value.escape).map some ++ some '"' :: rest) := by
  simp [Value.quoted]

@[simp]
theorem readFirstItem_close {gap : List Char} (hgap : AllBlank gap) (steps : Nat)
    (rest : List (Option Char)) :
    readFirstItem (steps + 1) (gap.map some ++ some ']' :: rest) = (.closed, rest) := by
  rw [readFirstItem, skipBlanks_gap hgap, skipBlanks_cons rfl]
  rfl

/-- An item and the items behind it. -/
theorem readItem_value {steps : Nat} {text others : List (Option Char)} {value : Reading}
    (hvalue : readValue steps text = (value, others)) :
    readItem (steps + 1) text
      = (.item value (readNextItem steps others).1, (readNextItem steps others).2) := by
  rw [readItem, hvalue]

@[simp]
theorem readNextItem_close {gap : List Char} (hgap : AllBlank gap) (steps : Nat)
    (rest : List (Option Char)) :
    readNextItem (steps + 1) (gap.map some ++ some ']' :: rest) = (.closed, rest) := by
  rw [readNextItem, skipBlanks_gap hgap, skipBlanks_cons rfl]
  rfl

@[simp]
theorem readNextItem_comma {gap : List Char} (hgap : AllBlank gap) (steps : Nat)
    (rest : List (Option Char)) :
    readNextItem (steps + 1) (gap.map some ++ some ',' :: rest) = readItem steps rest := by
  rw [readNextItem, skipBlanks_gap hgap, skipBlanks_cons rfl]
  rfl

@[simp]
theorem readFirstMember_close {gap : List Char} (hgap : AllBlank gap) (steps : Nat)
    (rest : List (Option Char)) :
    readFirstMember (steps + 1) (gap.map some ++ some '\x7d' :: rest) = (.closed, rest) := by
  rw [readFirstMember, skipBlanks_gap hgap, skipBlanks_cons rfl]
  rfl

@[simp]
theorem readFirstMember_quoted {gap : List Char} (hgap : AllBlank gap) (steps : Nat)
    (name : String) (rest : List (Option Char)) :
    readFirstMember (steps + 1) (gap.map some ++ ((Value.quoted name).map some ++ rest))
      = readMember steps ((Value.quoted name).map some ++ rest) := by
  rw [readFirstMember, skipBlanks_gap hgap, map_quoted_append, skipBlanks_cons rfl]
  rfl

@[simp]
theorem readNextMember_close {gap : List Char} (hgap : AllBlank gap) (steps : Nat)
    (rest : List (Option Char)) :
    readNextMember (steps + 1) (gap.map some ++ some '\x7d' :: rest) = (.closed, rest) := by
  rw [readNextMember, skipBlanks_gap hgap, skipBlanks_cons rfl]
  rfl

@[simp]
theorem readNextMember_comma {gap : List Char} (hgap : AllBlank gap) (steps : Nat)
    (rest : List (Option Char)) :
    readNextMember (steps + 1) (gap.map some ++ some ',' :: rest) = readMember steps rest := by
  rw [readNextMember, skipBlanks_gap hgap, skipBlanks_cons rfl]
  rfl

/-- A member: its name, the colon, its value, and the members behind it. -/
theorem readMember_quoted {behindName behindColon : List Char} (hname : AllBlank behindName)
    (hcolon : AllBlank behindColon) {steps : Nat} {name : String}
    {rest others : List (Option Char)} {value : Reading}
    (hvalue : readValue steps rest = (value, others)) :
    readMember (steps + 1) ((Value.quoted name).map some
        ++ (behindName.map some ++ some ':' :: (behindColon.map some ++ rest)))
      = (.member ⟨.ok name, none⟩ value (readNextMember steps others).1,
          (readNextMember steps others).2) := by
  rw [readMember, map_quoted_append, skipBlanks_cons rfl]
  simp only [readText_quoted, skipBlanks_gap hname]
  rw [skipBlanks_cons rfl]
  simp only [readValue_gap hcolon, hvalue]

/-! ### What stands behind a value -/

theorem endsNumber_cons {c : Char} (hc : c ∈ [' ', '\n', '\t', '\r', ',', ']', '\x7d'])
    (rest : List (Option Char)) : EndsNumber (some c :: rest) := by
  intro d after h
  cases h
  simp only [List.mem_cons, List.not_mem_nil, or_false] at hc
  rcases hc with rfl | rfl | rfl | rfl | rfl | rfl | rfl <;> decide

theorem endsNumber_blank {c : Char} (hc : isBlank (some c) = true) (rest : List (Option Char)) :
    EndsNumber (some c :: rest) := by
  simp only [isBlank, Bool.or_eq_true, beq_iff_eq, Option.some.injEq] at hc
  refine endsNumber_cons ?_ rest
  simp only [List.mem_cons]
  tauto

theorem endsNumber_gap {gap : List Char} (hgap : AllBlank gap) {c : Char}
    (hc : c ∈ [',', ']', '\x7d']) (rest : List (Option Char)) :
    EndsNumber (gap.map some ++ some c :: rest) := by
  cases gap with
  | nil => exact endsNumber_cons (by simp at hc ⊢; tauto) rest
  | cons d gap =>
    exact endsNumber_blank (hgap d (by simp)) _

/-- Nothing that may follow a part of a list or a record goes on a number. -/
theorem Spells.endsNumber {phrase : Phrase} {text : List Char} (h : Spells phrase text)
    (hphrase : ∀ value, phrase ≠ .value value) (rest : List (Option Char)) :
    EndsNumber (text.map some ++ rest) := by
  cases h with
  | lastItem hgap =>
    rw [List.map_append, List.append_assoc]
    exact endsNumber_gap hgap (by simp) rest
  | lastMember hgap =>
    rw [List.map_append, List.append_assoc]
    exact endsNumber_gap hgap (by simp) rest
  | nextItem hgap =>
    simp only [List.map_append, List.map_cons, List.append_assoc, List.cons_append]
    exact endsNumber_gap hgap (by simp) _
  | nextMember hgap =>
    simp only [List.map_append, List.map_cons, List.append_assoc, List.cons_append]
    exact endsNumber_gap hgap (by simp) _
  | null | boolTrue | boolFalse | number | text | emptyList | list | emptyRecord | record =>
    exact absurd rfl (hphrase _)

/-- A value starts with a character that ends no list. -/
theorem Spells.starts {value : Value} {text : List Char} (h : Spells (.value value) text) :
    ∃ c after, text = c :: after ∧ isBlank (some c) = false ∧ c ≠ ']' := by
  cases h with
  | null | boolTrue | boolFalse => exact ⟨_, _, rfl, by decide, by decide⟩
  | text s => exact ⟨_, _, rfl, by decide, by decide⟩
  | emptyList | list => exact ⟨_, _, rfl, by decide, by decide⟩
  | emptyRecord | record => exact ⟨_, _, rfl, by decide, by decide⟩
  | @number n hn =>
    rw [toList_toString]
    by_cases hneg : n < 0
    · rw [if_pos hneg]
      exact ⟨_, _, rfl, by decide, by decide⟩
    · rw [if_neg hneg]
      cases hdigits : Nat.toDigits 10 n.natAbs with
      | nil => exact absurd hdigits Nat.toDigits_ne_nil
      | cons c digits =>
        have hc : c.isDigit = true := isDigit_of_mem_toDigits (n := n.natAbs) (by simp [hdigits])
        exact ⟨c, digits, rfl, isBlank_of_isDigit hc, ne_of_isDigit hc rfl⟩

theorem readFirstItem_item {gap first : List Char} {value : Value} (hgap : AllBlank gap)
    (hfirst : Spells (.value value) first) (steps : Nat) (rest : List (Option Char)) :
    readFirstItem (steps + 1) (gap.map some ++ (first.map some ++ rest))
      = readItem steps (first.map some ++ rest) := by
  obtain ⟨c, after, rfl, hblank, hc⟩ := hfirst.starts
  rw [readFirstItem, skipBlanks_gap hgap, List.map_cons, List.cons_append, skipBlanks_cons hblank]
  split
  · rename_i h
    cases h
  · rename_i h
    cases h
    exact absurd rfl hc
  · rfl

end CompileCommands.Json
