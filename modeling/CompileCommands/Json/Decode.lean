/-
Typed values from readings.

A decoder takes a reading apart in the order of the text and stops at the first problem.
A record may be written with the names of its fields, in any order and among unknown
ones, or as a list of its fields in their order.
-/
import Std.Data.ExtTreeMap
import CompileCommands.Json.Error
import CompileCommands.Json.Reading

namespace CompileCommands.Json

/-- A decoder for values of a type. -/
abbrev Decoder (α : Type) := Reading → Except Error α

variable {α σ : Type}

/-- The value of a lexeme that is needed. -/
def Lexeme.need (lexeme : Lexeme α) : Except Error α :=
  match lexeme.value with
  | .ok value => .ok value
  | .error flaw => .error (.flaw flaw)

/-- Passes over a value that is not needed. -/
def Reading.skip (reading : Reading) : Except Error Unit :=
  match reading.flaw? with
  | none => .ok ()
  | some flaw => .error (.flaw flaw)

/-- The error of a value that is not of the expected type.  Lists and records are known by their
first character, other values have to be read to be named. -/
def Reading.refuse (reading : Reading) (expected : Expected) : Except Error α := do
  let found ← match reading with
    | .null => pure Found.null
    | .bool value => pure (.bool value)
    | .number lexeme => Found.number <$> lexeme.need
    | .text lexeme => Found.text <$> lexeme.need
    | .list _ => pure .list
    | .record _ => pure .record
    | .broken flaw => throw (.flaw flaw)
  throw (.mismatch (.wrongType found expected))

namespace Decoder

/-! ### Single values -/

def bool : Decoder Bool
  | .bool value => .ok value
  | other => other.refuse .bool

/-- A string, called what it stands for when something else is found. -/
def textAs (expected : Expected) : Decoder String
  | .text lexeme => lexeme.need
  | other => other.refuse expected

def text : Decoder String := textAs .text

/-- A whole number from `least` to `greatest`. -/
def numberIn (least greatest : Int) (expected : Expected) : Decoder Int
  | .number lexeme => do
      let number ← lexeme.need
      let check (value : Int) : Except Error Int :=
        if least ≤ value ∧ value ≤ greatest then .ok value
        else .error (.mismatch (.outOfRange value expected))
      match number with
      | .natural value => check value
      | .negative value => check (-value)
      | .double .. => .error (.mismatch (.wrongType (.number number) expected))
  | other => other.refuse expected

def word : Decoder UInt32 := fun reading => do
  let value ← numberIn 0 (Int.ofNat (twoTo 32 - 1)) .word reading
  return UInt32.ofNat value.toNat

def integer : Decoder Int32 := fun reading => do
  let value ← numberIn (-Int.ofNat (twoTo 31)) (Int.ofNat (twoTo 31 - 1)) .integer reading
  return Int32.ofInt value

/-- A value that `null` stands for the absence of. -/
def optional (decode : Decoder α) : Decoder (Option α)
  | .null => .ok none
  | other => some <$> decode other

/-! ### Lists and dictionaries -/

def items (decode : Decoder α) : Items → Except Error (List α)
  | .closed => .ok []
  | .broken flaw => .error (.flaw flaw)
  | .item value rest => do
      let first ← decode value
      let others ← items decode rest
      return first :: others

def list (decode : Decoder α) : Decoder (List α)
  | .list found => items decode found
  | other => other.refuse .list

/-- Reads members into a dictionary; the last value of a name counts. -/
def entries (before : Std.ExtTreeMap String String) :
    Members → Except Error (Std.ExtTreeMap String String)
  | .closed => .ok before
  | .broken flaw => .error (.flaw flaw)
  | .member name value rest => do
      let name ← name.need
      let value ← text value
      entries (before.insert name value) rest

def dictionary : Decoder (Std.ExtTreeMap String String)
  | .record members => entries ∅ members
  | other => other.refuse .dictionary

/-! ### Records -/

end Decoder

/-- A field of a record, read into a draft of the record. -/
structure RecordField (σ : Type) where
  name : String
  /-- Was the field read before? -/
  isSet : σ → Bool
  read : σ → Decoder σ

/-- A field that is kept in one place of a draft. -/
def RecordField.of (name : String) (decode : Decoder α) (get : σ → Option α) (set : σ → α → σ) :
    RecordField σ where
  name := name
  isSet draft := (get draft).isSome
  read draft reading := return set draft (← decode reading)

namespace Decoder

/-- Reads the members of a record into a draft.  A field must not come twice; members that are
no field are passed over. -/
def members (fields : List (RecordField σ)) (draft : σ) : Members → Except Error σ
  | .closed => .ok draft
  | .broken flaw => .error (.flaw flaw)
  | .member name value rest => do
      let name ← name.need
      match fields.find? (·.name == name) with
      | none => do
          value.skip
          members fields draft rest
      | some field =>
          if field.isSet draft then throw (.mismatch (.duplicateField name))
          else members fields (← field.read draft value) rest

/-- Reads the fields of a record that is written as a list.  Fields at the end may be left out;
an item too many is malformed. -/
def positions (draft : σ) : List (RecordField σ) → Items → Except Error σ
  | _, .closed => .ok draft
  | [], .broken flaw => .error (.flaw flaw)
  | [], .item _ _ => .error (.flaw .malformed)
  | _ :: _, .broken flaw => .error (.flaw flaw)
  | field :: fields, .item value rest => do positions (← field.read draft value) fields rest

/-- A record: its fields are read into a draft, which `finish` completes.  It is told how to
complain about a required field, given by its place and its name. -/
def record (name : String) (fields : List (RecordField σ)) (draft : σ)
    (finish : (Nat → String → Error) → σ → Except Error α) : Decoder α
  | .record found => do
      let read ← members fields draft found
      finish (fun _ field => .mismatch (.missingField field)) read
  | .list found => do
      let read ← positions draft fields found
      finish (fun place _ => .mismatch (.tooShort place name fields.length)) read
  | other => other.refuse (.record name)

end Decoder

/-- A required field of a draft. -/
def require (absent : Error) : Option α → Except Error α
  | some value => .ok value
  | none => .error absent

/-- The value of a whole file. -/
def Document.decode (document : Document) (decode : Decoder α) : Except Error α := do
  let value ← decode document.root
  match document.trailing with
  | none => return value
  | some flaw => throw (.flaw flaw)

/-- The value of the bytes of a file. -/
def decodeBytes (decode : Decoder α) (bytes : ByteArray) : Except Error α :=
  (Document.ofBytes bytes).decode decode

/-- The value of a file, given what came of reading it. -/
def decodeFile (decode : Decoder α) (content : Except FileError ByteArray) : Except Error α :=
  match content with
  | .ok bytes => decodeBytes decode bytes
  | .error cause => .error (.unreadable cause)

end CompileCommands.Json
