/-
Numbers of JSON texts.

A number is first cut out of the text and then valued.  Whole numbers of at most 64 bits
are kept exactly, all others become doubles.  A double is computed from the digits that
fit into 64 bits and a power of ten, with one rounding for each of the two and one for
their product or quotient; it can differ from the double nearest to the number as
written.
-/
import CompileCommands.Number.Shortest

namespace CompileCommands.Json

/-- What is wrong with a text that is no JSON. -/
inductive Flaw
  /-- Something stands where it must not. -/
  | malformed
  /-- The text ends too early. -/
  | cutShort
  deriving DecidableEq, Repr

/-! ### Cutting a number out of a text -/

/-- A number as it is written, behind its sign: digits before and after the point, and the
exponent, with a flag that is set when it is negative. -/
structure Numeral where
  whole : List Char
  fraction : List Char
  power : Option (Bool × List Char)
  deriving DecidableEq, Repr

/-- The digits at the start of a text, and the rest. -/
def spanDigits : List (Option Char) → List Char × List (Option Char)
  | some c :: rest =>
      if c.isDigit then
        let (digits, left) := spanDigits rest
        (c :: digits, left)
      else ([], some c :: rest)
  | rest => ([], rest)

/-- Digits where there has to be at least one.  What it means that the text ends before them is
up to the reader. -/
def someDigits (atEnd : Flaw) (text : List (Option Char)) :
    Except Flaw (List Char × List (Option Char)) :=
  match spanDigits text with
  | ([], []) => .error atEnd
  | ([], _) => .error .malformed
  | found => .ok found

/-- The digits before the point; a zero stands alone. -/
def wholeDigits (atEnd : Flaw) (text : List (Option Char)) :
    Except Flaw (List Char × List (Option Char)) := do
  match ← someDigits atEnd text with
  | ('0' :: _ :: _, _) => throw .malformed
  | found => return found

/-- The fraction, when there is a point. -/
def fractionDigits (atEnd : Flaw) : List (Option Char) →
    Except Flaw (List Char × List (Option Char))
  | some '.' :: rest => someDigits atEnd rest
  | rest => .ok ([], rest)

/-- The sign of an exponent. -/
def powerSign : List (Option Char) → Bool × List (Option Char)
  | some '-' :: rest => (true, rest)
  | some '+' :: rest => (false, rest)
  | rest => (false, rest)

/-- The exponent, when there is one. -/
def powerDigits (atEnd : Flaw) (text : List (Option Char)) :
    Except Flaw (Option (Bool × List Char) × List (Option Char)) :=
  match text with
  | some c :: rest =>
      if c = 'e' ∨ c = 'E' then do
        let (negative, rest) := powerSign rest
        let (digits, rest) ← someDigits atEnd rest
        return (some (negative, digits), rest)
      else .ok (none, text)
  | [] | none :: _ => .ok (none, text)

/-- A number at the start of a text, behind its sign, and the rest of the text. -/
def numeral (atEnd : Flaw) (text : List (Option Char)) :
    Except Flaw (Numeral × List (Option Char)) := do
  let (whole, rest) ← wholeDigits atEnd text
  let (fraction, rest) ← fractionDigits atEnd rest
  let (power, rest) ← powerDigits atEnd rest
  return (⟨whole, fraction, power⟩, rest)

/-! ### Its value -/

/-- A number as a program reads it. -/
inductive Number
  /-- A whole number below `2 ^ 64`. -/
  | natural (value : Nat)
  /-- The negative of a whole number from 1 to `2 ^ 63`. -/
  | negative (value : Nat)
  | double (isNegative : Bool) (value : Binary64)
  deriving DecidableEq, Repr

def digitValue (c : Char) : Nat := c.toNat - 48

/-- Reads digits behind a number as long as the result stays below `2 ^ 64`; gives it with the
digits that are left. -/
def absorb (value : Nat) : List Char → Nat × List Char
  | [] => (value, [])
  | c :: rest =>
      if value * 10 + digitValue c < twoTo 64 then absorb (value * 10 + digitValue c) rest
      else (value, c :: rest)

/-- The number that some digits mean. -/
def digitsValue (digits : List Char) : Nat :=
  digits.foldl (fun value c => value * 10 + digitValue c) 0

/-- The largest power of ten that is a double. -/
def maxPower : Nat := 308

/-- Divides by a power of ten, in steps of the largest one; none beyond the largest double. -/
def shrink (x : Binary64) (power : Nat) : Option Binary64 :=
  if power ≤ maxPower then do x.div (← Binary64.ofRatio (tenTo power) 1)
  else if x.isZero then some x
  else do shrink (← x.div (← Binary64.ofRatio (tenTo maxPower) 1)) (power - maxPower)
termination_by power
decreasing_by simp only [maxPower] at *; omega

/-- Multiplies by a power of ten; none beyond the largest double. -/
def grow (x : Binary64) (power : Nat) : Option Binary64 :=
  if power ≤ maxPower then do x.mul (← Binary64.ofRatio (tenTo power) 1)
  else if x.isZero then some x
  else none

/-- Exponents have 31 bits; one that needs more means nought, or no number at all. -/
def maxWrittenPower : Nat := twoTo 31 - 1

/-- The double `significand * 10 ^ (exponent + power)`. -/
def doubleOf (significand : Nat) (exponent : Int) (power : Option (Bool × List Char)) :
    Option Binary64 := do
  let (isNegative, digits) := power.getD (false, [])
  let written := digitsValue digits
  if maxWrittenPower < written then
    if significand = 0 ∨ isNegative then some Binary64.zero else none
  else
    let total : Int := if isNegative then exponent - written else exponent + written
    let base ← Binary64.ofRatio significand 1
    if 0 ≤ total then grow base total.toNat else shrink base (-total).toNat

/-- The value of a number; one beyond the largest double has none. -/
def Numeral.value (n : Numeral) (isNegative : Bool) : Except Flaw Number :=
  let double (significand : Nat) (exponent : Int) : Except Flaw Number :=
    match doubleOf significand exponent n.power with
    | some value => .ok (.double isNegative value)
    | none => .error .malformed
  let (significand, left) := absorb 0 n.whole
  if n.fraction = [] ∧ n.power = none ∧ left = [] then
    if !isNegative then .ok (.natural significand)
    else if significand = 0 ∨ twoTo 63 < significand then double significand 0
    else .ok (.negative significand)
  else
    let (extended, ignored) := absorb significand n.fraction
    double extended (Int.ofNat left.length - Int.ofNat (n.fraction.length - ignored.length))

end CompileCommands.Json
