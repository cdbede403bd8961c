import UiSuite.Decimal.Binary64

/-! The shortest decimal of a number.

Of all decimals that read back as a number, the one with the fewest digits is
taken, and of those the nearest. A decimal reads back exactly if it lies in the
interval of reals that round to the number. If a point of a decimal grid lies in
that interval, so does one of the number's two neighbours on the grid, so only
those are tried, for one digit, two digits, and so on to seventeen.

`Layout.render` writes such a decimal: in full where the leading digit's power
of ten lies in the positional range, else with a power of ten. -/
namespace UiSuite.Decimal

/-- `digits * 10 ^ scale`. -/
structure Shortest where
  digits : Nat
  scale : Int
deriving DecidableEq

namespace Shortest

/-- The power of ten of the leading digit of `num / den`, sought upward from `k`. -/
def leadingPower (num den : Nat) : (fuel : Nat) → (k : Int) → Int
  | 0, k => k
  | fuel + 1, k =>
    if num * Nat.pow 10 (-(k + 1)).toNat < den * Nat.pow 10 (k + 1).toNat then k
    else leadingPower num den fuel (k + 1)

/-- The interval that rounds to a number, in quarters of its last place: below, the
number, above. Below a power of two the places are half as wide. -/
def quarters (x : Binary64) : Nat × Nat × Nat :=
  let m := 4 * x.significand
  let below := if x.significand = leastFull ∧ x.exponent ≠ -1074 then 1 else 2
  (m - below, m, m + 2)

/-- The neighbour on the grid of `10 ^ scale` that reads back, the nearer if both do. -/
def onGrid? (x : Binary64) (scale : Int) : Option Nat :=
  let (low, mid, high) := quarters x
  -- the grid's points are compared as `d * grid` with quarters times `place`
  let grid := 4 * Nat.pow 10 scale.toNat * Nat.pow 2 (-x.exponent).toNat
  let place := Nat.pow 2 x.exponent.toNat * Nat.pow 10 (-scale).toNat
  let even := x.significand % 2 == 0
  let inside (d : Nat) : Bool :=
    if even then low * place ≤ d * grid && d * grid ≤ high * place
    else low * place < d * grid && d * grid < high * place
  let down := mid * place / grid
  let up := down + 1
  match inside down, inside up with
  | true, false => some down
  | false, true => some up
  | true, true =>
    let below := mid * place - down * grid
    let above := up * grid - mid * place
    some (if below < above then down else if above < below then up else down + down % 2)
  | false, false => none

/-- Tries ever finer grids, `left` of them, below the leading power of ten. -/
def search (x : Binary64) (power : Int) : (left : Nat) → (count : Nat) → Shortest
  | 0, count => ⟨x.significand, power - count⟩
  | left + 1, count =>
    match onGrid? x (power - count) with
    | some d => ⟨d, power - count⟩
    | none => search x power left (count + 1)

/-- Without trailing zero digits. -/
def strip : (fuel : Nat) → Shortest → Shortest
  | 0, s => s
  | fuel + 1, s => if s.digits % 10 = 0 then strip fuel ⟨s.digits / 10, s.scale + 1⟩ else s

/-- The shortest decimal of a number's magnitude; zero has the digit zero. -/
def ofBinary64 (x : Binary64) : Shortest :=
  if x.significand = 0 then ⟨0, 0⟩
  else
    let size : Int := (x.significand.log2 : Int) + x.exponent
    let power := leadingPower x.numerator x.denominator 4 (size * 30103 / 100000 - 1)
    strip 20 (search x power 17 0)

end Shortest

/-- How decimals are written: the least and the greatest power of ten of a leading
digit whose number is written in full. -/
structure Layout where
  least : Int
  greatest : Int

namespace Layout

def zeros (n : Nat) : List Char :=
  List.replicate n '0'

/-- The digits in full, always with a digit after the point. -/
def positional (digits : List Char) (scale : Int) : List Char :=
  if 0 ≤ scale then digits ++ zeros scale.toNat ++ ['.', '0']
  else
    let places := (-scale).toNat
    if places < digits.length then
      digits.take (digits.length - places) ++ '.' :: digits.drop (digits.length - places)
    else '0' :: '.' :: (zeros (places - digits.length) ++ digits)

/-- One digit, the point and the others, and the power of ten with its sign. -/
def scientific (digits : List Char) (power : Int) : List Char :=
  let tail := if digits.length ≤ 1 then [] else '.' :: digits.drop 1
  let sign := if power < 0 then '-' else '+'
  digits.take 1 ++ tail ++ 'e' :: sign :: Nat.toDigits 10 power.natAbs

/-- The text of a number. -/
def render (n : Layout) (x : Binary64) : List Char :=
  let s := Shortest.ofBinary64 x
  let digits := Nat.toDigits 10 s.digits
  let power := s.scale + digits.length - 1
  let body :=
    if n.least ≤ power && power ≤ n.greatest then positional digits s.scale
    else scientific digits power
  if x.negative then '-' :: body else body

end Layout
end UiSuite.Decimal
