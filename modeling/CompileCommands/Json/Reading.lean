/-
What can be read of a text that should be JSON.

A reading is the tree of a text as far as it goes.  Where the text stops being JSON the
tree says so, and a decoder that gets to that place reports it; a decoder that finds a
value of the wrong kind before it gets there reports the value instead.  So the first
problem in the order of the text wins, whatever its nature.
-/
import CompileCommands.Json.Text

namespace CompileCommands.Json

/-- A string or a number, for two readers: one that wants its value, and one that only skips it
and is less particular. -/
structure Lexeme (α : Type) where
  /-- The value, or what keeps one from having it. -/
  value : Except Flaw α
  /-- What keeps one from skipping it. -/
  skipped : Option Flaw

mutual

inductive Reading
  | null
  | bool (value : Bool)
  | number (lexeme : Lexeme Number)
  | text (lexeme : Lexeme String)
  | list (items : Items)
  | record (members : Members)
  /-- There is no value here. -/
  | broken (flaw : Flaw)

/-- The items of a list, up to its end or to a flaw. -/
inductive Items
  | closed
  | broken (flaw : Flaw)
  | item (value : Reading) (rest : Items)

/-- The members of a record, up to its end or to a flaw. -/
inductive Members
  | closed
  | broken (flaw : Flaw)
  | member (name : Lexeme String) (value : Reading) (rest : Members)

end

/-- The reading of a whole text: its value, and what follows it. -/
structure Document where
  root : Reading
  /-- Set when something other than blanks follows the value. -/
  trailing : Option Flaw

/-! ### Skipping -/

mutual

/-- The first flaw that a reader of a skipped value runs into. -/
def Reading.flaw? : Reading → Option Flaw
  | .null | .bool _ => none
  | .number lexeme => lexeme.skipped
  | .text lexeme => lexeme.skipped
  | .list items => items.flaw?
  | .record members => members.flaw?
  | .broken flaw => some flaw

def Items.flaw? : Items → Option Flaw
  | .closed => none
  | .broken flaw => some flaw
  | .item value rest => value.flaw? <|> rest.flaw?

def Members.flaw? : Members → Option Flaw
  | .closed => none
  | .broken flaw => some flaw
  | .member name value rest => name.skipped <|> value.flaw? <|> rest.flaw?

end

/-! ### Lexemes -/

/-- Blanks, tabs and line ends between the parts of a text. -/
def isBlank (c : Option Char) : Bool :=
  c == some ' ' || c == some '\n' || c == some '\t' || c == some '\r'

def skipBlanks (text : List (Option Char)) : List (Option Char) := text.dropWhile isBlank

/-- The rest of a word whose first letter was seen. -/
def readWord (letters : List Char) (value : Reading) (text : List (Option Char)) :
    Reading × List (Option Char) :=
  match letters, text with
  | [], rest => (value, rest)
  | _ :: _, [] => (.broken .cutShort, [])
  | letter :: letters, c :: rest =>
      if c = some letter then readWord letters value rest else (.broken .malformed, [])

/-- A string behind its opening quote. -/
def readText (text : List (Option Char)) : Lexeme String × List (Option Char) :=
  let value := scanText true .plain [] text >>= fun found => wellEncoded found.1
  match scanText false .plain [] text with
  | .ok (_, rest) => (⟨value, none⟩, rest)
  | .error flaw => (⟨value, some flaw⟩, [])

/-- A number behind its sign.  To a reader that skips it, a number that the end of the text cuts
short is malformed. -/
def readNumber (isNegative : Bool) (text : List (Option Char)) :
    Lexeme Number × List (Option Char) :=
  let value := numeral .cutShort text >>= fun found => found.1.value isNegative
  match numeral .malformed text with
  | .ok (_, rest) => (⟨value, none⟩, rest)
  | .error flaw => (⟨value, some flaw⟩, [])

/-! ### Values

Of three steps of these functions in a row at least one takes a character off the text, so
three times its length, and three, bounds the steps. -/

mutual

/-- The value at the start of a text, and the rest. -/
def readValue : Nat → List (Option Char) → Reading × List (Option Char)
  | 0, _ => (.broken .malformed, [])
  | steps + 1, text =>
      match skipBlanks text with
      | [] => (.broken .cutShort, [])
      | none :: _ => (.broken .malformed, [])
      | some c :: rest =>
          if c = 'n' then readWord ['u', 'l', 'l'] .null rest
          else if c = 't' then readWord ['r', 'u', 'e'] (.bool true) rest
          else if c = 'f' then readWord ['a', 'l', 's', 'e'] (.bool false) rest
          else if c = '"' then
            let (lexeme, rest) := readText rest
            (.text lexeme, rest)
          else if c = '-' then
            let (lexeme, rest) := readNumber true rest
            (.number lexeme, rest)
          else if c.isDigit then
            let (lexeme, rest) := readNumber false (some c :: rest)
            (.number lexeme, rest)
          else if c = '[' then
            let (items, rest) := readFirstItem steps rest
            (.list items, rest)
          else if c = '\x7b' then
            let (members, rest) := readFirstMember steps rest
            (.record members, rest)
          else (.broken .malformed, [])

/-- A list behind its opening bracket. -/
def readFirstItem : Nat → List (Option Char) → Items × List (Option Char)
  | 0, _ => (.broken .malformed, [])
  | steps + 1, text =>
      match skipBlanks text with
      | [] => (.broken .cutShort, [])
      | some ']' :: rest => (.closed, rest)
      | rest => readItem steps rest

/-- An item and those after it. -/
def readItem : Nat → List (Option Char) → Items × List (Option Char)
  | 0, _ => (.broken .malformed, [])
  | steps + 1, text =>
      let (value, rest) := readValue steps text
      let (items, rest) := readNextItem steps rest
      (.item value items, rest)

/-- A list behind an item. -/
def readNextItem : Nat → List (Option Char) → Items × List (Option Char)
  | 0, _ => (.broken .malformed, [])
  | steps + 1, text =>
      match skipBlanks text with
      | [] => (.broken .cutShort, [])
      | some ']' :: rest => (.closed, rest)
      | some ',' :: rest => readItem steps rest
      | _ => (.broken .malformed, [])

/-- A record behind its opening brace. -/
def readFirstMember : Nat → List (Option Char) → Members × List (Option Char)
  | 0, _ => (.broken .malformed, [])
  | steps + 1, text =>
      match skipBlanks text with
      | [] => (.broken .cutShort, [])
      | some '\x7d' :: rest => (.closed, rest)
      | rest => readMember steps rest

/-- A member and those after it. -/
def readMember : Nat → List (Option Char) → Members × List (Option Char)
  | 0, _ => (.broken .malformed, [])
  | steps + 1, text =>
      match skipBlanks text with
      | [] => (.broken .cutShort, [])
      | some '"' :: rest =>
          let (name, rest) := readText rest
          let (value, rest) := match skipBlanks rest with
            | [] => (.broken .cutShort, [])
            | some ':' :: rest => readValue steps rest
            | _ => (.broken .malformed, [])
          let (members, rest) := readNextMember steps rest
          (.member name value members, rest)
      | _ => (.broken .malformed, [])

/-- A record behind a member. -/
def readNextMember : Nat → List (Option Char) → Members × List (Option Char)
  | 0, _ => (.broken .malformed, [])
  | steps + 1, text =>
      match skipBlanks text with
      | [] => (.broken .cutShort, [])
      | some '\x7d' :: rest => (.closed, rest)
      | some ',' :: rest => readMember steps rest
      | _ => (.broken .malformed, [])

end

/-- The reading of a text. -/
def Document.ofText (text : List (Option Char)) : Document :=
  let (root, rest) := readValue (3 * text.length + 3) text
  { root
    trailing := if (skipBlanks rest).isEmpty then none else some .malformed }

/-- The reading of the bytes of a file. -/
def Document.ofBytes (bytes : ByteArray) : Document := ofText (Text.decode bytes)

end CompileCommands.Json
