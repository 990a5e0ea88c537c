/-
Strings of JSON texts.

A string is read one character at a time, by a machine that knows how far it is inside
an escape.  A reader that wants the string insists on paired surrogates and on UTF-8; a
reader that only skips it does not.
-/
import CompileCommands.Json.Number
import CompileCommands.Text.Utf8

namespace CompileCommands.Json

/-- Where a string stands. -/
inductive TextState
  | plain
  /-- Behind a backslash. -/
  | escape
  /-- Behind `\u`, with the number of bytes still owed, the value so far unless a character was
  no digit, and the first half of a surrogate pair if there was one. -/
  | hex (owed : Nat) (value : Option Nat) (high : Option Nat)
  /-- Behind the first half of a surrogate pair. -/
  | paired (high : Nat)
  /-- Behind the first half of a surrogate pair and a backslash. -/
  | pairedEscape (high : Nat)
  deriving DecidableEq, Repr

/-- The value of a hexadecimal digit. -/
def hexValue? (c : Char) : Option Nat :=
  if c.isDigit then some (c.toNat - 48)
  else if 'a' ≤ c ∧ c ≤ 'f' then some (c.toNat - 87)
  else if 'A' ≤ c ∧ c ≤ 'F' then some (c.toNat - 55)
  else none

/-- What the characters with short escapes stand for. -/
def shortEscape? : Char → Option Char
  | '"' => some '"'
  | '\\' => some '\\'
  | '/' => some '/'
  | 'b' => some '\x08'
  | 'f' => some '\x0c'
  | 'n' => some '\n'
  | 'r' => some '\r'
  | 't' => some '\t'
  | _ => none

def isHighSurrogate (n : Nat) : Bool := 0xD800 ≤ n && n ≤ 0xDBFF

def isLowSurrogate (n : Nat) : Bool := 0xDC00 ≤ n && n ≤ 0xDFFF

/-- The character of a surrogate pair. -/
def pairValue (high low : Nat) : Nat := (high - 0xD800) * 0x400 + (low - 0xDC00) + 0x10000

/-- What four hexadecimal digits lead to: the next state, and the character they complete. -/
def closeHex (pairing : Bool) (value : Option Nat) (high : Option Nat) :
    Except Flaw (TextState × List (Option Char)) :=
  match value with
  | none => .error .malformed
  | some n =>
      if !pairing then .ok (.plain, [])
      else match high with
        | some first =>
            if isLowSurrogate n then .ok (.plain, [some (Char.ofNat (pairValue first n))])
            else .error .malformed
        | none =>
            if isLowSurrogate n then .error .malformed
            else if isHighSurrogate n then .ok (.paired n, [])
            else .ok (.plain, [some (Char.ofNat n)])

/-- One character further in a string: the next state and what is added to the string; none at
the closing quote. -/
def textStep (pairing : Bool) (state : TextState) (c : Option Char) :
    Except Flaw (Option (TextState × List (Option Char))) :=
  match state with
  | .plain =>
      if c = some '"' then .ok none
      else if c = some '\\' then .ok (some (.escape, []))
      else if c.any (·.toNat < 32) then .error .malformed
      else .ok (some (.plain, [c]))
  | .escape =>
      if c = some 'u' then .ok (some (.hex 4 (some 0) none, []))
      else match c.bind shortEscape? with
        | some meant => .ok (some (.plain, [some meant]))
        | none => .error .malformed
  | .hex owed value high =>
      let value := do
        let digit ← c.bind hexValue?
        return (← value) * 16 + digit
      if owed ≤ Text.byteSize c then some <$> closeHex pairing value high
      else .ok (some (.hex (owed - Text.byteSize c) value high, []))
  | .paired high =>
      if c = some '\\' then .ok (some (.pairedEscape high, [])) else .error .malformed
  | .pairedEscape high =>
      if c = some 'u' then .ok (some (.hex 4 (some 0) (some high), [])) else .error .malformed

/-- Reads a string up to its closing quote; gives its characters, behind those that were read
before (the last one first), and the rest of the text. -/
def scanText (pairing : Bool) (state : TextState) (before : List (Option Char)) :
    List (Option Char) → Except Flaw (List (Option Char) × List (Option Char))
  | [] => .error .cutShort
  | c :: rest =>
      match textStep pairing state c with
      | .error flaw => .error flaw
      | .ok none => .ok (before.reverse, rest)
      | .ok (some (next, added)) => scanText pairing next (added ++ before) rest

/-- The string that some characters make, unless there is a byte among them that is part of no
character. -/
def wellEncoded (text : List (Option Char)) : Except Flaw String :=
  match text.mapM id with
  | some characters => .ok (String.ofList characters)
  | none => .error .malformed

end CompileCommands.Json
