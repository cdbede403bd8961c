import UiSuite.Decimal.Binary64

/-! Reading decimal texts.

A decimal is a run of digits and a power of ten. `nearestDecimal` is the number
nearest to it. `steppedDecimal` rounds twice, once for the digits and once for
the power of ten: that is the reading of numbers in JSON texts, where the digits
past the first 2^64 only count and do not weigh. -/
namespace UiSuite.Decimal

/-- The value of a run of digits. -/
def valueOf (digits : List Char) : Nat :=
  digits.foldl (fun n c => 10 * n + (c.toNat - '0'.toNat)) 0

/-- The number nearest to `digits * 10 ^ scale`; none when it overflows. The size is
compared first, so that a huge power of ten is never computed. -/
def nearestDecimal (negative : Bool) (digits : Nat) (scale : Int) : Option Binary64 :=
  if digits = 0 then some (.zero negative)
  else
    let size : Int := (Nat.toDigits 10 digits).length + scale
    if 310 < size then none
    else if size < -330 then some (.zero negative)
    else Binary64.nearest negative (digits * Nat.pow 10 scale.toNat) (Nat.pow 10 (-scale).toNat)

/-- A power of ten up to the greatest that is a number. -/
def powerOfTen (k : Nat) : Option Binary64 :=
  Binary64.nearest false (Nat.pow 10 k) 1

/-- `digits * 10 ^ scale` in rounded steps: the digits, then the power of ten, where a
power below 10 ^ -308 is divided out in two steps. None when it overflows. -/
def steppedDecimal (negative : Bool) (digits : Nat) (scale : Int) : Option Binary64 := do
  let start ← Binary64.nearest negative digits 1
  if digits = 0 then return start
  if 0 ≤ scale then
    if 308 < scale then none
    else start.mul? (← powerOfTen scale.toNat)
  else if -308 ≤ scale then
    start.div? (← powerOfTen (-scale).toNat)
  else
    let big ← powerOfTen 308
    let small ← start.div? big
    if -616 ≤ scale then
      small.div? (← powerOfTen (-scale - 308).toNat)
    else
      return .zero negative

/-- The longest beginning of digits, and the rest. -/
def spanDigits (cs : List Char) : List Char × List Char :=
  (cs.takeWhile Char.isDigit, cs.dropWhile Char.isDigit)

/-- A sign at the beginning: whether it is a minus, and the rest. -/
def dropSign : List Char → Bool × List Char
  | '-' :: cs => (true, cs)
  | '+' :: cs => (false, cs)
  | cs => (false, cs)

/-- What stands after the digits of a decimal: nothing, or a power of ten. -/
def exponentOf? : List Char → Option Int
  | [] => some 0
  | c :: cs =>
    if c = 'e' || c = 'E' then
      let (negative, ds) := dropSign cs
      if ds.isEmpty || !ds.all Char.isDigit then none
      else some (if negative then -(valueOf ds : Int) else valueOf ds)
    else none

/-- Reads a decimal text: an optional sign, digits with at most one point among or
beside them, and an optional power of ten. None for any other text and for a value
beyond the largest number. -/
def parse? (cs : List Char) : Option Binary64 :=
  let (negative, body) := dropSign cs
  let (whole, rest) := spanDigits body
  let (fraction, rest) := match rest with
    | '.' :: more => spanDigits more
    | rest => ([], rest)
  if whole.isEmpty && fraction.isEmpty then none
  else
    (exponentOf? rest).bind fun e =>
      nearestDecimal negative (valueOf (whole ++ fraction)) (e - fraction.length)

/-- Reads a natural number: an optional plus and digits, with a value up to `greatest`. -/
def natural? (greatest : Nat) (cs : List Char) : Option Nat :=
  let ds := match cs with
    | '+' :: ds => ds
    | ds => ds
  if ds.isEmpty || !ds.all Char.isDigit then none
  else
    let n := valueOf ds
    if n ≤ greatest then some n else none

end UiSuite.Decimal
