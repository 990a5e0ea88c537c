/-
Doubles written with the fewest digits that read back.

The digits are found by trying one, two, ... seventeen of them: on each decimal grid the
two neighbours of the value are the only candidates, and the first grid with a candidate
that rounds to the double wins.  Between two candidates the nearer is taken.
-/
import CompileCommands.Number.Binary64

namespace CompileCommands

/-- The number `digits * 10 ^ exponent`. -/
structure Decimal where
  digits : Nat
  exponent : Int
  deriving DecidableEq, Repr

namespace Decimal

def ratio (x : Decimal) : Nat × Nat :=
  if 0 ≤ x.exponent then (x.digits * tenTo x.exponent.toNat, 1)
  else (x.digits, tenTo (-x.exponent).toNat)

/-- Does the number read back as the double? -/
def readsAs (x : Decimal) (value : Binary64) : Bool :=
  Binary64.ofRatio x.ratio.1 x.ratio.2 == some value

/-- Drops the zeros at the end. -/
def strip : Nat → Decimal → Decimal
  | 0, x => x
  | steps + 1, x => if x.digits % 10 = 0 then strip steps ⟨x.digits / 10, x.exponent + 1⟩ else x

/-- The exponent of the leading digit of the positive ratio `num / den`. -/
def magnitude (num den : Nat) : Int :=
  let guess := Int.ofNat (toString num).length - Int.ofNat (toString den).length
  let reached :=
    if 0 ≤ guess then den * tenTo guess.toNat ≤ num else den ≤ num * tenTo (-guess).toNat
  if reached then guess else guess - 1

/-- The numbers on the grid of `10 ^ exponent` next to `num / den`, the nearer one first. -/
def neighbours (num den : Nat) (exponent : Int) : List Decimal :=
  let (n, d) := if 0 ≤ exponent then (num, den * tenTo exponent.toNat)
    else (num * tenTo (-exponent).toNat, den)
  let low : Decimal := ⟨n / d, exponent⟩
  let high : Decimal := ⟨n / d + 1, exponent⟩
  let twice := 2 * (n % d)
  if twice < d || (twice == d && low.digits % 2 == 0) then [low, high] else [high, low]

/-- The shortest number that reads back as a positive double. -/
def shortest (value : Binary64) : Decimal :=
  let (num, den) := value.ratio
  let leading := magnitude num den
  let candidates := (List.range 17).flatMap fun (n : Nat) => neighbours num den (leading - n)
  match candidates.find? (·.readsAs value) with
  | some found => strip 17 found
  | none => ⟨num, 0⟩

/-- The text of a double.  Leading digits from `10 ^ -5` to `10 ^ 15` are written by position,
with at least one digit after the point; other numbers with an exponent that has a sign. -/
def text (value : Binary64) : String :=
  if value.isZero then "0.0"
  else
    let decimal := shortest value
    let digits := (toString decimal.digits).toList
    let leading := decimal.exponent + Int.ofNat digits.length - 1
    if leading < -5 || 15 < leading then
      let fraction := match digits.drop 1 with
        | [] => []
        | more => '.' :: more
      String.ofList (digits.take 1 ++ fraction) ++ (if leading < 0 then "e-" else "e+")
        ++ toString leading.natAbs
    else if leading < 0 then
      "0." ++ String.ofList (List.replicate (leading.natAbs - 1) '0' ++ digits)
    else
      let whole := digits.take (leading.toNat + 1)
      let fraction := digits.drop (leading.toNat + 1)
      String.ofList (whole ++ List.replicate (leading.toNat + 1 - whole.length) '0') ++ "."
        ++ (if fraction.isEmpty then "0" else String.ofList fraction)

end Decimal

end CompileCommands
