/-
Double precision, exactly.

A finite double is a whole number of at most 53 bits times a power of two.  Arithmetic
is done on exact ratios of natural numbers and rounded once, to the nearest double and
to the even one of two that are equally near.
-/
namespace CompileCommands

/-! ### Powers of the two bases that numbers are written in -/

def twoTo (n : Nat) : Nat := Nat.pow 2 n

def tenTo (n : Nat) : Nat := Nat.pow 10 n

/-! ### Doubles -/

/-- The value `mantissa * 2 ^ exponent` of a double that is not negative. -/
structure Binary64 where
  mantissa : Nat
  exponent : Int
  deriving DecidableEq, Repr

namespace Binary64

def zero : Binary64 := ⟨0, -1074⟩

def isZero (x : Binary64) : Bool := x.mantissa == 0

/-- The least exponent, that of the numbers next to zero. -/
def minExponent : Int := -1074

/-- The exponent of the largest doubles. -/
def maxExponent : Int := 971

/-- The nearest whole number to `num / den`, the even one of two. -/
def roundQuotient (num den : Nat) : Nat :=
  let low := num / den
  let twice := 2 * (num % den)
  if twice < den then low
  else if den < twice then low + 1
  else if low % 2 = 0 then low else low + 1

/-- The ratio `num / den` divided by `2 ^ exponent`, again as a ratio. -/
def scale (num den : Nat) (exponent : Int) : Nat × Nat :=
  if 0 ≤ exponent then (num, den * twoTo exponent.toNat)
  else (num * twoTo (-exponent).toNat, den)

/-- The double nearest to `num / den`; none when that is beyond the largest double. -/
def ofRatio (num den : Nat) : Option Binary64 :=
  if num = 0 then some zero
  else
    let guess : Int := max (Int.ofNat num.log2 - Int.ofNat den.log2 - 53) minExponent
    let (n, d) := scale num den guess
    let exponent := if twoTo 53 ≤ n / d then guess + 1 else guess
    let (n, d) := scale num den exponent
    let mantissa := roundQuotient n d
    let rounded : Binary64 :=
      if mantissa = twoTo 53 then ⟨twoTo 52, exponent + 1⟩ else ⟨mantissa, exponent⟩
    if maxExponent < rounded.exponent then none else some rounded

/-- A double as a ratio. -/
def ratio (x : Binary64) : Nat × Nat :=
  if 0 ≤ x.exponent then (x.mantissa * twoTo x.exponent.toNat, 1)
  else (x.mantissa, twoTo (-x.exponent).toNat)

def mul (x y : Binary64) : Option Binary64 :=
  ofRatio (x.ratio.1 * y.ratio.1) (x.ratio.2 * y.ratio.2)

/-- Division; the divisor is not zero. -/
def div (x y : Binary64) : Option Binary64 :=
  ofRatio (x.ratio.1 * y.ratio.2) (x.ratio.2 * y.ratio.1)

end Binary64

end CompileCommands
