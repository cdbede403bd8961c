/-! Finite binary64 numbers, exactly.

A number is a sign and a significand times a power of two, in the one canonical
form, so equal numbers are equal values and minus zero is not zero. Rounding
takes a quotient of natural numbers to the nearest number, ties to the even
significand, and fails only beyond the largest one (`nearest`). -/
namespace UiSuite.Decimal

/-- The least significand of 53 bits. -/
def leastFull : Nat := 4503599627370496

/-- The forms numbers take: subnormal at the least exponent, else with 53 bits. -/
def Canonical (significand : Nat) (exponent : Int) : Prop :=
  (significand < 2 * leastFull ∧ exponent = -1074) ∨
    (leastFull ≤ significand ∧ significand < 2 * leastFull ∧ -1074 ≤ exponent ∧ exponent ≤ 971)

instance (m : Nat) (e : Int) : Decidable (Canonical m e) :=
  inferInstanceAs (Decidable (_ ∨ _))

/-- A finite number `± significand * 2 ^ exponent`. -/
structure Binary64 where
  negative : Bool
  significand : Nat
  exponent : Int
  canonical : Canonical significand exponent
deriving DecidableEq

namespace Binary64

def zero (negative : Bool) : Binary64 :=
  ⟨negative, 0, -1074, by decide⟩

/-- The number with these parts, if they are canonical. -/
def ofParts? (negative : Bool) (significand : Nat) (exponent : Int) : Option Binary64 :=
  if h : Canonical significand exponent then some ⟨negative, significand, exponent, h⟩ else none

/-- The magnitude is this over `denominator`. -/
def numerator (x : Binary64) : Nat :=
  x.significand * Nat.pow 2 x.exponent.toNat

def denominator (x : Binary64) : Nat :=
  Nat.pow 2 (-x.exponent).toNat

/-- The quotient rounded to the nearest natural number, a tie to the even one. -/
def roundDiv (num den : Nat) : Nat :=
  let q := num / den
  let r := 2 * (num % den)
  if r < den then q else if den < r then q + 1 else q + q % 2

/-- The number nearest to `num / den`, a tie to the even significand; none when it
lies beyond the largest number. -/
def nearest (negative : Bool) (num den : Nat) : Option Binary64 :=
  if num = 0 then some (zero negative)
  else
    let guess : Int := (num.log2 : Int) - den.log2 - 52
    let short : Bool :=
      num * Nat.pow 2 (-guess).toNat < leastFull * (den * Nat.pow 2 guess.toNat)
    let exponent := max (-1074) (if short then guess - 1 else guess)
    let significand :=
      roundDiv (num * Nat.pow 2 (-exponent).toNat) (den * Nat.pow 2 exponent.toNat)
    if significand = 2 * leastFull then ofParts? negative leastFull (exponent + 1)
    else ofParts? negative significand exponent

/-- The rounded product; none when it overflows. -/
def mul? (x y : Binary64) : Option Binary64 :=
  nearest (x.negative != y.negative) (x.numerator * y.numerator) (x.denominator * y.denominator)

/-- The rounded quotient; none when it overflows or the divisor is zero. -/
def div? (x y : Binary64) : Option Binary64 :=
  if y.significand = 0 then none
  else nearest (x.negative != y.negative) (x.numerator * y.denominator)
    (x.denominator * y.numerator)

/-- The magnitude without its fraction. -/
def truncate (x : Binary64) : Nat :=
  x.numerator / x.denominator

/-- Below zero; minus zero is not. -/
def isBelowZero (x : Binary64) : Bool :=
  x.negative && x.significand != 0

end Binary64
end UiSuite.Decimal
