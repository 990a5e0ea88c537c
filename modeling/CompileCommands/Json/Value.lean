/-
JSON values and their text.

The text is indented by two blanks for each level, or stands on one line.  Strings are
escaped no more than they have to be: quotes, backslashes and control characters, the
latter by their short names where they have one.
-/
namespace CompileCommands.Json

inductive Value
  | null
  | bool (value : Bool)
  | number (value : Int)
  | text (value : String)
  | list (items : List Value)
  | record (fields : List (String × Value))

namespace Value

/-- A list of strings. -/
def texts (words : List String) : Value := .list (words.map .text)

/-- A field that is left out when there is no value. -/
def optionalField {α : Type} (name : String) (toJson : α → Value) :
    Option α → List (String × Value)
  | some value => [(name, toJson value)]
  | none => []

/-! ### Strings -/

/-- A hexadecimal digit. -/
def hexDigit (n : Nat) : Char := if n < 10 then Char.ofNat (48 + n) else Char.ofNat (87 + n)

/-- How a character is written between quotes. -/
def escape (c : Char) : List Char :=
  if c = '"' then ['\\', '"']
  else if c = '\\' then ['\\', '\\']
  else if c = '\x08' then ['\\', 'b']
  else if c = '\t' then ['\\', 't']
  else if c = '\n' then ['\\', 'n']
  else if c = '\x0c' then ['\\', 'f']
  else if c = '\r' then ['\\', 'r']
  else if c.toNat < 32 then ['\\', 'u', '0', '0', hexDigit (c.toNat / 16), hexDigit (c.toNat % 16)]
  else [c]

/-- A string between quotes. -/
def quoted (text : String) : List Char := '"' :: text.toList.flatMap escape ++ ['"']

/-! ### Values -/

/-- A new line at an indentation level. -/
def newLine (level : Nat) : List Char := '\n' :: List.replicate (2 * level) ' '

mutual

/-- The text of a value whose lines are indented to a level. -/
def write (level : Nat) : Value → List Char
  | null => "null".toList
  | bool true => "true".toList
  | bool false => "false".toList
  | number n => (toString n).toList
  | text s => quoted s
  | list [] => ['[', ']']
  | list (item :: items) =>
      '[' :: newLine (level + 1) ++ write (level + 1) item ++ writeItems (level + 1) items
        ++ newLine level ++ [']']
  | record [] => ['\x7b', '\x7d']
  | record ((name, value) :: fields) =>
      '\x7b' :: newLine (level + 1) ++ quoted name ++ [':', ' '] ++ write (level + 1) value
        ++ writeFields (level + 1) fields ++ newLine level ++ ['\x7d']

/-- The items after the first one. -/
def writeItems (level : Nat) : List Value → List Char
  | [] => []
  | item :: items => ',' :: newLine level ++ write level item ++ writeItems level items

/-- The fields after the first one. -/
def writeFields (level : Nat) : List (String × Value) → List Char
  | [] => []
  | (name, value) :: fields =>
      ',' :: newLine level ++ quoted name ++ [':', ' '] ++ write level value
        ++ writeFields level fields

end

/-- The text of a value. -/
def render (value : Value) : String := String.ofList (write 0 value)

mutual

/-- The characters of a value on one line. -/
def writeOnOneLine : Value → List Char
  | null => "null".toList
  | bool true => "true".toList
  | bool false => "false".toList
  | number n => (toString n).toList
  | text s => quoted s
  | list items => '[' :: writeItemsOnOneLine items ++ [']']
  | record fields => '\x7b' :: writeFieldsOnOneLine fields ++ ['\x7d']

/-- The items between the brackets. -/
def writeItemsOnOneLine : List Value → List Char
  | [] => []
  | [item] => writeOnOneLine item
  | item :: items => writeOnOneLine item ++ ',' :: writeItemsOnOneLine items

/-- The fields between the braces. -/
def writeFieldsOnOneLine : List (String × Value) → List Char
  | [] => []
  | [(name, value)] => quoted name ++ ':' :: writeOnOneLine value
  | (name, value) :: fields =>
      quoted name ++ ':' :: writeOnOneLine value ++ ',' :: writeFieldsOnOneLine fields

end

/-- The text of a value on one line. -/
def compact (value : Value) : String := String.ofList (writeOnOneLine value)

end Value

end CompileCommands.Json
