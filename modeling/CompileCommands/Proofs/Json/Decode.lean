/-
Decoders at work on the trees of written values.

A record is written with each of its fields once, so none of its members is unknown or comes
twice, and a decoder goes through them field by field.
-/
import Mathlib.Data.List.Forall2
import CompileCommands.Json.Decode
import CompileCommands.Proofs.Json.Spelling

namespace CompileCommands.Json.Decoder

variable {α β σ : Type}

/-! ### Single values and lists -/

@[simp] theorem text_reading (s : String) : text (Value.text s).reading = .ok s := rfl

/-- The items of a list are decoded one by one. -/
theorem items_of_forall₂ {decode : Decoder α} {xs : List α} {values : List Value}
    (h : List.Forall₂ (fun x value => decode value.reading = .ok x) xs values) :
    items decode (readingItems values) = .ok xs := by
  induction h with
  | nil => rfl
  | cons hfirst _ ih =>
    rw [readingItems, items, hfirst, ih]
    rfl

theorem items_reading {decode : Decoder β} {encode : α → Value} {f : α → β} {xs : List α}
    (h : ∀ x ∈ xs, decode (encode x).reading = .ok (f x)) :
    items decode (readingItems (xs.map encode)) = .ok (xs.map f) := by
  refine items_of_forall₂ ?_
  rw [List.forall₂_map_left_iff, List.forall₂_map_right_iff, List.forall₂_same]
  exact h

theorem list_reading {decode : Decoder β} {encode : α → Value} {f : α → β} {xs : List α}
    (h : ∀ x ∈ xs, decode (encode x).reading = .ok (f x)) :
    list decode (Value.list (xs.map encode)).reading = .ok (xs.map f) := by
  rw [Value.reading, list, items_reading h]

/-- A list of values that are read as they were written is read as it was written. -/
theorem list_reading_self {decode : Decoder α} {encode : α → Value} {xs : List α}
    (h : ∀ x ∈ xs, decode (encode x).reading = .ok x) :
    list decode (Value.list (xs.map encode)).reading = .ok xs := by
  have hlist : list decode (Value.list (xs.map encode)).reading = .ok (xs.map id) :=
    list_reading h
  rwa [List.map_id] at hlist

@[simp] theorem list_text_reading (words : List String) :
    list text (Value.texts words).reading = .ok words :=
  list_reading_self fun s _ => text_reading s

/-- A whole number is decoded if it lies within the bounds. -/
theorem numberIn_reading {least greatest n : Int} (expected : Expected) (hleast : least ≤ n)
    (hgreatest : n ≤ greatest) :
    numberIn least greatest expected (Value.number n).reading = .ok n := by
  have hrange : least ≤ n ∧ n ≤ greatest := ⟨hleast, hgreatest⟩
  rw [Value.reading, Number.ofInt]
  split
  · have hvalue : -(n.natAbs : Int) = n := by omega
    show (if least ≤ -(n.natAbs : Int) ∧ -(n.natAbs : Int) ≤ greatest then _ else _) = _
    rw [hvalue, if_pos hrange]
  · have hvalue : (n.natAbs : Int) = n := by omega
    show (if least ≤ (n.natAbs : Int) ∧ (n.natAbs : Int) ≤ greatest then _ else _) = _
    rw [hvalue, if_pos hrange]

@[simp] theorem word_reading (n : UInt32) :
    word (Value.number (Int.ofNat n.toNat)).reading = .ok n := by
  have hgreatest : Int.ofNat n.toNat ≤ Int.ofNat (twoTo 32 - 1) :=
    Int.ofNat_le.mpr (Nat.le_sub_one_of_lt n.toNat_lt)
  have hleast : 0 ≤ Int.ofNat n.toNat := Int.natCast_nonneg n.toNat
  rw [word, numberIn_reading .word hleast hgreatest]
  show Except.ok (UInt32.ofNat n.toNat) = _
  rw [UInt32.ofNat_toNat]

@[simp] theorem integer_reading (n : Int32) : integer (Value.number n.toInt).reading = .ok n := by
  have hleast : -Int.ofNat (twoTo 31) ≤ n.toInt := n.le_toInt
  have hgreatest : n.toInt ≤ Int.ofNat (twoTo 31 - 1) := Int.le_sub_one_of_lt n.toInt_lt
  rw [integer, numberIn_reading .integer hleast hgreatest]
  show Except.ok (Int32.ofInt n.toInt) = _
  rw [Int32.ofInt_toInt]

/-- An optional value that is there is decoded like any other. -/
theorem optional_reading {decode : Decoder α} {value : Value} {x : α}
    (hnull : value.reading ≠ .null) (h : decode value.reading = .ok x) :
    optional decode value.reading = .ok (some x) := by
  unfold optional
  split
  · rename_i heq
    exact absurd heq hnull
  · rw [h]
    rfl

@[simp]
theorem optional_texts_reading (words : List String) :
    optional (list text) (Value.texts words).reading = .ok (some words) :=
  optional_reading nofun (list_text_reading words)

@[simp]
theorem optional_integer_reading (n : Int32) :
    optional integer (Value.number n.toInt).reading = .ok (some n) :=
  optional_reading nofun (integer_reading n)

/-! ### Dictionaries -/

@[simp]
theorem entries_reading (before : Std.ExtTreeMap String String)
    (pairs : List (String × String)) :
    entries before (readingMembers (pairs.map fun (name, value) => (name, .text value)))
      = .ok (before.insertMany pairs) := by
  induction pairs generalizing before with
  | nil => rfl
  | cons pair pairs ih =>
    obtain ⟨name, value⟩ := pair
    rw [Std.ExtTreeMap.insertMany_cons, ← ih, List.map_cons, readingMembers, entries]
    rfl

/-- A dictionary is made of its own pairs, whose names are distinct. -/
@[simp]
theorem insertMany_empty_toList (dictionary : Std.ExtTreeMap String String) :
    (∅ : Std.ExtTreeMap String String).insertMany dictionary.toList = dictionary := by
  rw [← Std.ExtTreeMap.ofList_eq_insertMany_empty]
  refine Std.ExtTreeMap.ext_getElem? fun name => ?_
  cases hvalue : dictionary[name]? with
  | some value =>
    exact Std.ExtTreeMap.getElem?_ofList_of_mem Std.ReflCmp.compare_self
      Std.ExtTreeMap.distinct_keys_toList
      (Std.ExtTreeMap.mem_toList_iff_getElem?_eq_some.mpr hvalue)
  | none =>
    have hmissing : name ∉ dictionary.keys := by
      rw [Std.ExtTreeMap.mem_keys, Std.ExtTreeMap.mem_iff_isSome_getElem?, hvalue]
      exact Bool.false_ne_true
    refine Std.ExtTreeMap.getElem?_ofList_of_contains_eq_false ?_
    rwa [Std.ExtTreeMap.map_fst_toList_eq_keys, ← Bool.not_eq_true, List.contains_iff_mem]

@[simp]
theorem dictionary_reading (dictionary : Std.ExtTreeMap String String) :
    Decoder.dictionary (Value.record (dictionary.toList.map fun (name, value) =>
      (name, .text value))).reading = .ok dictionary := by
  simp [Value.reading, Decoder.dictionary]

/-! ### Records -/

/-- A field that a draft does not hold yet is read into it. -/
theorem members_field {fields : List (RecordField σ)} {field : RecordField σ} {draft read : σ}
    {name : String} {value : Value} (hfield : fields.find? (·.name == name) = some field)
    (hset : field.isSet draft = false) (hread : field.read draft value.reading = .ok read)
    (others : List (String × Value)) :
    members fields draft (readingMembers ((name, value) :: others))
      = members fields read (readingMembers others) := by
  rw [readingMembers, members]
  simp only [Lexeme.need, bind, Except.bind, hfield, hset, hread]
  rfl

/-- A field that is kept in one place of a draft is decoded into that place. -/
theorem members_of {fields : List (RecordField σ)} {name : String} {decode : Decoder α}
    {get : σ → Option α} {set : σ → α → σ} {draft : σ} {value : Value} {x : α}
    (hfield : fields.find? (·.name == name) = some (.of name decode get set))
    (hunset : get draft = none) (hvalue : decode value.reading = .ok x)
    (others : List (String × Value)) :
    members fields draft (readingMembers ((name, value) :: others))
      = members fields (set draft x) (readingMembers others) := by
  have hset : (RecordField.of name decode get set).isSet draft = false := by
    simp only [RecordField.of, hunset, Option.isSome_none]
  have hread : (RecordField.of name decode get set).read draft value.reading
      = .ok (set draft x) := by
    simp only [RecordField.of, hvalue]
    rfl
  exact members_field hfield hset hread others

/-- A field without a value is not written, so nothing is read. -/
theorem members_optionalField {fields : List (RecordField σ)} {field : RecordField σ}
    {draft : σ} {name : String} {toJson : α → Value} {value : Option α} (read : Option α → σ)
    (hfield : fields.find? (·.name == name) = some field) (hset : field.isSet draft = false)
    (hread : ∀ x, field.read draft (toJson x).reading = .ok (read (some x)))
    (hnone : read none = draft) (others : List (String × Value)) :
    members fields draft (readingMembers (Value.optionalField name toJson value ++ others))
      = members fields (read value) (readingMembers others) := by
  cases value with
  | none => rw [hnone]; rfl
  | some x => exact members_field hfield hset (hread x) others

/-- An optional field that is kept in one place of a draft leaves the place empty if it is not
written. -/
theorem members_of_optional {fields : List (RecordField σ)} {name : String} {decode : Decoder α}
    {get : σ → Option (Option α)} {set : σ → Option α → σ} {draft : σ} {toJson : α → Value}
    {value : Option α} (hfield : fields.find? (·.name == name)
      = some (.of name (optional decode) get set)) (hunset : get draft = none)
    (hvalue : ∀ x, optional decode (toJson x).reading = .ok (some x))
    (others : List (String × Value)) :
    members fields draft (readingMembers (Value.optionalField name toJson value ++ others))
      = members fields (value.elim draft fun x => set draft (some x)) (readingMembers others) := by
  cases value with
  | none => rfl
  | some x => exact members_of hfield hunset (hvalue x) others

/-- A record is what its completed draft is. -/
theorem record_reading {name : String} {fields : List (RecordField σ)} {draft read : σ}
    {finish : (Nat → String → Error) → σ → Except Error α} {written : List (String × Value)}
    (h : members fields draft (readingMembers written) = .ok read) :
    record name fields draft finish (Value.record written).reading
      = finish (fun _ field => .mismatch (.missingField field)) read := by
  rw [Value.reading, record, h]
  rfl

end CompileCommands.Json.Decoder
