/-
What is written is a spelling.

The writer indents, and its line ends and blanks are the only freedom that a spelling leaves.
Numbers beyond 64 bits are written like all others, but they are read as something else, so a
value has to do without them.
-/
import CompileCommands.Proofs.Json.Reading

namespace CompileCommands.Json

/-! ### Values without excessive numbers -/

mutual

def Value.Fits : Value → Prop
  | .null | .bool _ | .text _ => True
  | .number n => FitsNumber n
  | .list items => FitItems items
  | .record fields => FitFields fields

def FitItems : List Value → Prop
  | [] => True
  | item :: items => item.Fits ∧ FitItems items

def FitFields : List (String × Value) → Prop
  | [] => True
  | (_, value) :: fields => value.Fits ∧ FitFields fields

end

theorem fitItems_map {α : Type} {toJson : α → Value} {xs : List α}
    (h : ∀ x ∈ xs, (toJson x).Fits) : FitItems (xs.map toJson) := by
  induction xs with
  | nil => trivial
  | cons x xs ih => exact ⟨h x (by simp), ih fun y hy => h y (by simp [hy])⟩

theorem fitFields_append {before after : List (String × Value)} :
    FitFields (before ++ after) ↔ FitFields before ∧ FitFields after := by
  induction before with
  | nil => simp only [List.nil_append, FitFields, true_and]
  | cons field before ih => simp only [List.cons_append, FitFields, ih, and_assoc]

theorem fitFields_iff {fields : List (String × Value)} :
    FitFields fields ↔ ∀ field ∈ fields, field.2.Fits := by
  induction fields with
  | nil => exact ⟨fun _ => nofun, fun _ => trivial⟩
  | cons field fields ih => simp only [FitFields, List.forall_mem_cons, ih]

theorem fitFields_optionalField {α : Type} {name : String} {toJson : α → Value}
    (h : ∀ x, (toJson x).Fits) (value : Option α) :
    FitFields (Value.optionalField name toJson value) := by
  cases value with
  | none => trivial
  | some x => exact ⟨h x, trivial⟩

theorem fits_texts (words : List String) : (Value.texts words).Fits :=
  fitItems_map fun _ _ => trivial

/-! ### The writer -/

@[simp] theorem allBlank_newLine (level : Nat) : AllBlank (Value.newLine level) := by
  intro c hc
  rcases List.mem_cons.mp hc with rfl | hc
  · rfl
  · rw [List.eq_of_mem_replicate hc]
    rfl

@[simp] theorem allBlank_nil : AllBlank [] := by
  intro c hc
  cases hc

@[simp] theorem allBlank_blank : AllBlank [' '] := by
  intro c hc
  rw [List.mem_singleton.mp hc]
  rfl

mutual

theorem spells_write (level : Nat) :
    ∀ value : Value, value.Fits → Spells (.value value) (value.write level)
  | .null, _ => .null
  | .bool true, _ => .boolTrue
  | .bool false, _ => .boolFalse
  | .number _, h => .number h
  | .text s, _ => .text s
  | .list [], _ => .emptyList allBlank_nil
  | .list (item :: items), h => by
      have hitem := spells_write (level + 1) item h.1
      have hitems := spells_writeItems (level + 1) items h.2 (allBlank_newLine level)
      have hlist := Spells.list (allBlank_newLine (level + 1)) hitem hitems
      simpa only [Value.write, List.append_assoc, List.cons_append] using hlist
  | .record [], _ => .emptyRecord allBlank_nil
  | .record ((name, value) :: fields), h => by
      have hvalue := spells_write (level + 1) value h.1
      have hfields := spells_writeFields (level + 1) fields h.2 (allBlank_newLine level)
      have hrecord : Spells (.value (.record ((name, value) :: fields))) _ :=
        .record (allBlank_newLine (level + 1)) allBlank_nil allBlank_blank hvalue hfields
      simpa only [Value.write, List.append_assoc, List.cons_append, List.nil_append] using hrecord

theorem spells_writeItems (level : Nat) :
    ∀ items : List Value, FitItems items → ∀ {gap : List Char}, AllBlank gap →
      Spells (.items items) (Value.writeItems level items ++ (gap ++ [']']))
  | [], _, _, hgap => .lastItem hgap
  | item :: items, h, _, hgap => by
      have hitem := spells_write level item h.1
      have hitems := spells_writeItems level items h.2 hgap
      have hnext := Spells.nextItem allBlank_nil (allBlank_newLine level) hitem hitems
      simpa only [Value.writeItems, List.append_assoc, List.cons_append, List.nil_append]
        using hnext

theorem spells_writeFields (level : Nat) :
    ∀ fields : List (String × Value), FitFields fields → ∀ {gap : List Char}, AllBlank gap →
      Spells (.members fields) (Value.writeFields level fields ++ (gap ++ ['\x7d']))
  | [], _, _, hgap => .lastMember hgap
  | (name, value) :: fields, h, _, hgap => by
      have hvalue := spells_write level value h.1
      have hfields := spells_writeFields level fields h.2 hgap
      have hnext : Spells (.members ((name, value) :: fields)) _ :=
        .nextMember allBlank_nil (allBlank_newLine level) allBlank_nil allBlank_blank hvalue hfields
      simpa only [Value.writeFields, List.append_assoc, List.cons_append, List.nil_append]
        using hnext

end

/-! ### The writer of one line -/

/-- The items behind one, as they stand on one line. -/
def Value.itemsBehind : List Value → List Char
  | [] => []
  | item :: items => ',' :: item.writeOnOneLine ++ itemsBehind items

/-- The fields behind one, as they stand on one line. -/
def Value.fieldsBehind : List (String × Value) → List Char
  | [] => []
  | (name, value) :: fields =>
      ',' :: Value.quoted name ++ ':' :: value.writeOnOneLine ++ fieldsBehind fields

theorem writeItemsOnOneLine_cons (item : Value) (items : List Value) :
    Value.writeItemsOnOneLine (item :: items) = item.writeOnOneLine ++ Value.itemsBehind items := by
  induction items generalizing item with
  | nil => rw [Value.writeItemsOnOneLine, Value.itemsBehind, List.append_nil]
  | cons next items ih =>
    rw [Value.writeItemsOnOneLine, ih, Value.itemsBehind, List.cons_append]
    exact List.cons_ne_nil next items

theorem writeFieldsOnOneLine_cons (name : String) (value : Value)
    (fields : List (String × Value)) :
    Value.writeFieldsOnOneLine ((name, value) :: fields)
      = Value.quoted name ++ ':' :: value.writeOnOneLine ++ Value.fieldsBehind fields := by
  induction fields generalizing name value with
  | nil => rw [Value.writeFieldsOnOneLine, Value.fieldsBehind, List.append_nil]
  | cons next fields ih =>
    obtain ⟨nextName, nextValue⟩ := next
    rw [Value.writeFieldsOnOneLine, ih, Value.fieldsBehind, List.append_assoc]
    · simp only [List.cons_append, List.append_assoc]
    · exact List.cons_ne_nil _ fields

mutual

theorem spells_writeOnOneLine :
    ∀ value : Value, value.Fits → Spells (.value value) value.writeOnOneLine
  | .null, _ => .null
  | .bool true, _ => .boolTrue
  | .bool false, _ => .boolFalse
  | .number _, h => .number h
  | .text s, _ => .text s
  | .list [], _ => .emptyList allBlank_nil
  | .list (item :: items), h => by
      have hitem := spells_writeOnOneLine item h.1
      have hitems := spells_itemsBehind items h.2
      have hlist := Spells.list allBlank_nil hitem hitems
      rw [Value.writeOnOneLine, writeItemsOnOneLine_cons]
      simpa only [List.append_assoc, List.cons_append, List.nil_append] using hlist
  | .record [], _ => .emptyRecord allBlank_nil
  | .record ((name, value) :: fields), h => by
      have hvalue := spells_writeOnOneLine value h.1
      have hfields := spells_fieldsBehind fields h.2
      have hrecord : Spells (.value (.record ((name, value) :: fields))) _ :=
        .record allBlank_nil allBlank_nil allBlank_nil hvalue hfields
      rw [Value.writeOnOneLine, writeFieldsOnOneLine_cons]
      simpa only [List.append_assoc, List.cons_append, List.nil_append] using hrecord

theorem spells_itemsBehind :
    ∀ items : List Value, FitItems items →
      Spells (.items items) (Value.itemsBehind items ++ [']'])
  | [], _ => .lastItem allBlank_nil
  | item :: items, h => by
      have hitem := spells_writeOnOneLine item h.1
      have hitems := spells_itemsBehind items h.2
      have hnext := Spells.nextItem allBlank_nil allBlank_nil hitem hitems
      simpa only [Value.itemsBehind, List.append_assoc, List.cons_append, List.nil_append]
        using hnext

theorem spells_fieldsBehind :
    ∀ fields : List (String × Value), FitFields fields →
      Spells (.members fields) (Value.fieldsBehind fields ++ ['\x7d'])
  | [], _ => .lastMember allBlank_nil
  | (name, value) :: fields, h => by
      have hvalue := spells_writeOnOneLine value h.1
      have hfields := spells_fieldsBehind fields h.2
      have hnext : Spells (.members ((name, value) :: fields)) _ :=
        .nextMember allBlank_nil allBlank_nil allBlank_nil allBlank_nil hvalue hfields
      simpa only [Value.fieldsBehind, List.append_assoc, List.cons_append, List.nil_append]
        using hnext

end

/-! ### Written values are read -/

theorem holds_compact {value : Value} (h : value.Fits) : Holds value.compact value := by
  have htext := holds_of_spells allBlank_nil (spells_writeOnOneLine value h) allBlank_nil
  rwa [List.nil_append, List.append_nil] at htext

theorem holds_render {value : Value} (h : value.Fits) : Holds value.render value := by
  have htext := holds_of_spells allBlank_nil (spells_write 0 value h) allBlank_nil
  rwa [List.nil_append, List.append_nil] at htext

/-- **A written value is decoded like its tree**, also with a line end behind it. -/
theorem decodeBytes_render {α : Type} (decode : Decoder α) {value : Value} (h : value.Fits) :
    decodeBytes decode (value.render ++ "\n").toUTF8 = decode value.reading := by
  have hafter : AllBlank ['\n'] := by
    intro c hc
    rw [List.mem_singleton.mp hc]
    rfl
  have htext : value.render ++ "\n" = String.ofList ([] ++ value.write 0 ++ ['\n']) := by
    rw [Value.render, List.nil_append, String.ofList_append]
  rw [htext, decodeBytes_of_holds decode
    (holds_of_spells allBlank_nil (spells_write 0 value h) hafter)]

end CompileCommands.Json
