/-
Records whose fields come in any order, and some of them not at all.

A decoder goes through the members of a record one by one, and what it has read so far is a draft.
Two fields that are kept in different places of the draft can be read in either order, so the
order of the members does not matter as long as each field is read into a place of its own.
That leaves one order to think about, the one of the fields, and there a field that may be left
out either comes or leaves its place empty.  What the decoder supplies for an empty place has to
be the value that was left out, and this is all that there is to check.
-/
import Mathlib.Data.List.Pairwise
import CompileCommands.Proofs.Json.Decode
import CompileCommands.Proofs.Json.Writing
import CompileCommands.Proofs.Result

namespace CompileCommands.Json

variable {α β σ : Type}

/-! ### One member -/

namespace Decoder

/-- One member of a record, read into a draft. -/
def member (fields : List (RecordField σ)) (draft : σ) (name : String) (value : Reading) :
    Except Error σ :=
  match fields.find? (·.name == name) with
  | none => do
      value.skip
      return draft
  | some field =>
      if field.isSet draft then throw (.mismatch (.duplicateField name))
      else field.read draft value

theorem members_cons_eq_ok_iff {fields : List (RecordField σ)} {draft read : σ} {name : String}
    {value : Value} {rest : List (String × Value)} :
    members fields draft (readingMembers ((name, value) :: rest)) = .ok read
      ↔ ∃ next, member fields draft name value.reading = .ok next
        ∧ members fields next (readingMembers rest) = .ok read := by
  have hstep : members fields draft (readingMembers ((name, value) :: rest))
      = member fields draft name value.reading
        >>= fun next => members fields next (readingMembers rest) := by
    rw [readingMembers, members, member]
    simp only [Lexeme.need, bind, Except.bind]
    cases fields.find? (·.name == name) with
    | none =>
      simp only
      cases value.reading.skip <;> rfl
    | some field =>
      simp only
      split <;> rfl
  rw [hstep, bind_eq_ok_iff]

/-- A member is passed over if its name is no field's, and otherwise it is read if its field was
not read before. -/
theorem member_eq_ok_iff {fields : List (RecordField σ)} {draft next : σ} {name : String}
    {value : Reading} :
    member fields draft name value = .ok next
      ↔ (fields.find? (·.name == name) = none ∧ value.skip = .ok () ∧ draft = next)
        ∨ ∃ field, fields.find? (·.name == name) = some field ∧ field.isSet draft = false
          ∧ field.read draft value = .ok next := by
  rw [member]
  cases fields.find? (·.name == name) with
  | none =>
    cases value.skip <;> simp [bind, Except.bind, pure, Except.pure]
  | some field =>
    by_cases hset : field.isSet draft = true <;>
      simp [hset, throw, throwThe, MonadExceptOf.throw]

end Decoder

/-! ### The order of the members -/

namespace RecordField

/-- Two fields that do not touch each other: neither is set by reading the other one, and they
can be read in either order. -/
structure Apart (a b : RecordField σ) : Prop where
  isSet_after_first : ∀ {draft next : σ} {x : Reading}, a.read draft x = .ok next →
    b.isSet next = b.isSet draft
  isSet_after_second : ∀ {draft next : σ} {y : Reading}, b.read draft y = .ok next →
    a.isSet next = a.isSet draft
  inEitherOrder : ∀ {draft read : σ} {x y : Reading},
    (∃ next, a.read draft x = .ok next ∧ b.read next y = .ok read)
      ↔ ∃ next, b.read draft y = .ok next ∧ a.read next x = .ok read

instance : Std.Symm (@Apart σ) where
  symm _ _ h := ⟨h.isSet_after_second, h.isSet_after_first, h.inEitherOrder.symm⟩

theorem of_read_eq_ok_iff {name : String} {decode : Decoder α} {get : σ → Option α}
    {set : σ → α → σ} {draft next : σ} {reading : Reading} :
    (RecordField.of name decode get set).read draft reading = .ok next
      ↔ ∃ x, decode reading = .ok x ∧ set draft x = next := by
  rw [RecordField.of, bind_eq_ok_iff]
  simp only [pure, Except.pure, Except.ok.injEq]

/-- Fields that are kept in different places of a draft do not touch each other. -/
theorem apart_of {first second : String} {decode : Decoder α} {decode' : Decoder β}
    {get : σ → Option α} {get' : σ → Option β} {set : σ → α → σ} {set' : σ → β → σ}
    (hget : ∀ draft y, get (set' draft y) = get draft)
    (hget' : ∀ draft x, get' (set draft x) = get' draft)
    (hset : ∀ draft x y, set' (set draft x) y = set (set' draft y) x) :
    (RecordField.of first decode get set).Apart (RecordField.of second decode' get' set') where
  isSet_after_first := by
    intro draft next reading hread
    obtain ⟨x, -, rfl⟩ := of_read_eq_ok_iff.mp hread
    simp only [RecordField.of, hget']
  isSet_after_second := by
    intro draft next reading hread
    obtain ⟨y, -, rfl⟩ := of_read_eq_ok_iff.mp hread
    simp only [RecordField.of, hget]
  inEitherOrder := by
    intro draft read reading reading'
    simp only [of_read_eq_ok_iff]
    constructor
    · rintro ⟨-, ⟨x, hx, rfl⟩, y, hy, rfl⟩
      exact ⟨set' draft y, ⟨y, hy, rfl⟩, x, hx, (hset draft x y).symm⟩
    · rintro ⟨-, ⟨y, hy, rfl⟩, x, hx, rfl⟩
      exact ⟨set draft x, ⟨x, hx, rfl⟩, y, hy, hset draft x y⟩

/-- A field that was read is known to be. -/
def IsKept (field : RecordField σ) : Prop :=
  ∀ draft reading next, field.read draft reading = .ok next → field.isSet next = true

theorem isKept_of {name : String} {decode : Decoder α} {get : σ → Option α} {set : σ → α → σ}
    (h : ∀ draft x, get (set draft x) = some x) : (RecordField.of name decode get set).IsKept := by
  intro draft reading next hread
  obtain ⟨x, -, rfl⟩ := of_read_eq_ok_iff.mp hread
  simp only [RecordField.of, h, Option.isSome_some]

end RecordField

/-- Each field of a record has a place of its own in the draft. -/
structure Independent (fields : List (RecordField σ)) : Prop where
  apart : fields.Pairwise RecordField.Apart
  kept : ∀ field ∈ fields, field.IsKept

namespace Decoder

variable {fields : List (RecordField σ)}

theorem member_swap (h : Independent fields) {draft between read : σ} {name name' : String}
    {value value' : Reading} (hfirst : member fields draft name value = .ok between)
    (hsecond : member fields between name' value' = .ok read) :
    ∃ other, member fields draft name' value' = .ok other
      ∧ member fields other name value = .ok read := by
  simp only [member_eq_ok_iff] at hfirst hsecond ⊢
  rcases hfirst with ⟨hnone, hskip, rfl⟩ | ⟨first, hfound, hunset, hread⟩
  · exact ⟨read, hsecond, .inl ⟨hnone, hskip, rfl⟩⟩
  rcases hsecond with ⟨hnone, hskip, rfl⟩ | ⟨second, hfound', hunset', hread'⟩
  · exact ⟨draft, .inl ⟨hnone, hskip, rfl⟩, .inr ⟨first, hfound, hunset, hread⟩⟩
  have hmem : first ∈ fields := List.mem_of_find?_eq_some hfound
  have hmem' : second ∈ fields := List.mem_of_find?_eq_some hfound'
  -- One field cannot have come twice, for it was set behind the first time.
  have hne : first ≠ second := by
    rintro rfl
    rw [h.kept first hmem _ _ _ hread] at hunset'
    cases hunset'
  have hapart : first.Apart second := h.apart.forall hmem hmem' hne
  obtain ⟨other, hother, hlast⟩ := hapart.inEitherOrder.mp ⟨between, hread, hread'⟩
  refine ⟨other, .inr ⟨second, hfound', ?_, hother⟩, .inr ⟨first, hfound, ?_, hlast⟩⟩
  · rw [← hapart.isSet_after_first hread, hunset']
  · rw [hapart.isSet_after_second hother, hunset]

/-- **The members of a record may come in any order.** -/
theorem members_perm (h : Independent fields) {written other : List (String × Value)}
    (hperm : written.Perm other) {draft read : σ}
    (hread : members fields draft (readingMembers written) = .ok read) :
    members fields draft (readingMembers other) = .ok read := by
  induction hperm generalizing draft with
  | nil => exact hread
  | cons _ _ ih =>
    obtain ⟨next, hfirst, hrest⟩ := members_cons_eq_ok_iff.mp hread
    exact members_cons_eq_ok_iff.mpr ⟨next, hfirst, ih hrest⟩
  | swap =>
    obtain ⟨between, hfirst, hbehind⟩ := members_cons_eq_ok_iff.mp hread
    obtain ⟨next, hsecond, hrest⟩ := members_cons_eq_ok_iff.mp hbehind
    obtain ⟨other, hsecond', hfirst'⟩ := member_swap h hfirst hsecond
    exact members_cons_eq_ok_iff.mpr
      ⟨other, hsecond', members_cons_eq_ok_iff.mpr ⟨next, hfirst', hrest⟩⟩
  | trans _ _ ih ih' => exact ih' (ih hread)

end Decoder

/-! ### Ways to write a value -/

/-- A value that is written in one way only. -/
def Exactly (toJson : α → Value) (x : α) (value : Value) : Prop := value = toJson x

/-- A list whose items are written one by one. -/
def ListOf (renders : α → Value → Prop) (xs : List α) (value : Value) : Prop :=
  ∃ items, value = .list items ∧ List.Forall₂ renders xs items

theorem listOf_map {toJson : α → Value} {renders : α → Value → Prop} {xs : List α}
    (h : ∀ x ∈ xs, renders x (toJson x)) : ListOf renders xs (.list (xs.map toJson)) := by
  refine ⟨xs.map toJson, rfl, ?_⟩
  rw [List.forall₂_map_right_iff, List.forall₂_same]
  exact h

/-- What may stand in a record for a field: the field with its value, or nothing at all if the
value is the one that the field has by default. -/
inductive Shown (name : String) (renders : α → Value → Prop) (default : Option α) (x : α) :
    List (String × Value) → Prop
  | written {value : Value} (h : renders x value) : Shown name renders default x [(name, value)]
  | leftOut (h : default = some x) : Shown name renders default x []

/-- A record with one part for each field, in any order. -/
def RecordOf (parts : List (List (String × Value) → Prop)) (value : Value) : Prop :=
  ∃ written pieces, value = .record written
    ∧ List.Forall₂ (fun part piece => part piece) parts pieces ∧ written.Perm pieces.flatten

/-- A record may have all of its fields, in their order. -/
theorem recordOf_of_forall₂ {parts : List (List (String × Value) → Prop)}
    {written : List (String × Value)}
    (h : List.Forall₂ (fun part field => part [field]) parts written) :
    RecordOf parts (.record written) := by
  refine ⟨written, written.map ([·]), rfl, List.forall₂_map_right_iff.mpr h, ?_⟩
  rw [← List.flatMap_def, List.flatMap_singleton']

/-! ### Numbers in what was written -/

/-- However a value is written, there is no excessive number in it. -/
def Fitting (renders : α → Value → Prop) : Prop := ∀ x value, renders x value → value.Fits

theorem fitting_exactly {toJson : α → Value} (h : ∀ x, (toJson x).Fits) :
    Fitting (Exactly toJson) := by
  rintro x value rfl
  exact h x

theorem fitting_list {renders : α → Value → Prop} (h : Fitting renders) :
    Fitting (ListOf renders) := by
  rintro xs value ⟨items, rfl, hitems⟩
  rw [Value.Fits]
  induction hitems with
  | nil => trivial
  | cons hfirst _ ih => exact ⟨h _ _ hfirst, ih⟩

theorem Shown.fits {name : String} {renders : α → Value → Prop} {default : Option α} {x : α}
    (hrenders : Fitting renders) :
    ∀ piece, Shown name renders default x piece → FitFields piece := by
  intro piece h
  cases h with
  | written hvalue => exact ⟨hrenders _ _ hvalue, trivial⟩
  | leftOut => trivial

theorem RecordOf.fits {parts : List (List (String × Value) → Prop)} {value : Value}
    (h : RecordOf parts value) (hparts : ∀ part ∈ parts, ∀ piece, part piece → FitFields piece) :
    value.Fits := by
  obtain ⟨written, pieces, rfl, hpieces, hperm⟩ := h
  have hflatten : FitFields pieces.flatten := by
    clear hperm
    induction hpieces with
    | nil => trivial
    | cons hpart _ ih =>
      rw [List.flatten_cons, fitFields_append]
      exact ⟨hparts _ (by simp) _ hpart, ih fun part hmem => hparts part (by simp [hmem])⟩
  rw [fitFields_iff] at hflatten
  exact fitFields_iff.mpr fun field hfield => hflatten field (hperm.mem_iff.mp hfield)

/-! ### Reading what was written -/

/-- However a value is written, it is decoded. -/
def Decodes (decode : Decoder α) (renders : α → Value → Prop) : Prop :=
  ∀ x value, renders x value → decode value.reading = .ok x

theorem decodes_exactly {decode : Decoder α} {toJson : α → Value}
    (h : ∀ x, decode (toJson x).reading = .ok x) : Decodes decode (Exactly toJson) := by
  rintro x value rfl
  exact h x

theorem decodes_list {decode : Decoder α} {renders : α → Value → Prop}
    (h : Decodes decode renders) : Decodes (Decoder.list decode) (ListOf renders) := by
  rintro xs value ⟨items, rfl, hitems⟩
  rw [Value.reading, Decoder.list]
  exact Decoder.items_of_forall₂ (hitems.imp h)

/-- Reading a part of a record finds the value of its field, or else the default is the value.
`read` is the draft with what was found in the place of the field. -/
theorem Shown.exists_found {name : String} {decode : Decoder α} {renders : α → Value → Prop}
    {get : σ → Option α} {set : σ → α → σ} {draft : σ} {default : Option α} {x : α}
    {piece : List (String × Value)} (h : Shown name renders default x piece)
    (fields : List (RecordField σ)) (hdecode : Decodes decode renders)
    (hfield : fields.find? (·.name == name) = some (.of name decode get set))
    (hunset : get draft = none) (read : Option α → σ) (hnone : read none = draft)
    (hsome : ∀ y, read (some y) = set draft y) :
    ∃ found : Option α, found.or default = some x ∧ ∀ others,
      Decoder.members fields draft (readingMembers (piece ++ others))
        = Decoder.members fields (read found) (readingMembers others) := by
  cases h with
  | @written value hvalue =>
    refine ⟨some x, rfl, fun others => ?_⟩
    rw [hsome]
    exact Decoder.members_of hfield hunset (hdecode x value hvalue) others
  | leftOut hdefault =>
    refine ⟨none, hdefault, fun others => ?_⟩
    rw [hnone]
    rfl

/-- A record is decoded in any order of its members if it is decoded in the order of the fields. -/
theorem record_of_recordOf {name : String} {fields : List (RecordField σ)} {draft : σ}
    {finish : (Nat → String → Error) → σ → Except Error α}
    {parts : List (List (String × Value) → Prop)} {value : Value} {x : α}
    (hfields : Independent fields) (h : RecordOf parts value)
    (hread : ∀ pieces, List.Forall₂ (fun part piece => part piece) parts pieces →
      ∃ read, Decoder.members fields draft (readingMembers pieces.flatten) = .ok read
        ∧ finish (fun _ field => .mismatch (.missingField field)) read = .ok x) :
    Decoder.record name fields draft finish value.reading = .ok x := by
  obtain ⟨written, pieces, rfl, hpieces, hperm⟩ := h
  obtain ⟨read, hmembers, hfinish⟩ := hread pieces hpieces
  rw [Decoder.record_reading (Decoder.members_perm hfields hperm.symm hmembers), hfinish]

end CompileCommands.Json
