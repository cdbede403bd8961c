import UiSuite.Json.Basic
import UiSuite.Decimal.Reading

/-! Numerals: the numbers of JSON texts.

`Numeral.Place.next` is the grammar, one character at a time; `Numeral.value` is what a
numeral denotes. An integer within 64 bits is itself, with two exceptions that keep a
sign or a size no integer has: `-0`, and integers beyond 64 bits. Those, and every
numeral with a point or a power of ten, denote a binary64 number, or nothing when
that number overflows. -/
namespace UiSuite.Numeral

open Decimal (Binary64 spanDigits valueOf)

/-! ### Grammar -/

/-- How far a numeral has come. -/
inductive Place where
  | sign
  | zero
  | whole
  | point
  | fraction
  | mark
  | markSign
  | power
deriving DecidableEq

namespace Place

/-- Whether a numeral may end here. -/
def isEnd : Place → Bool
  | zero | whole | fraction | power => true
  | sign | point | mark | markSign => false

/-- Where the first character of a numeral leads. -/
def first (c : Char) : Option Place :=
  if c = '-' then some sign
  else if c = '0' then some zero
  else if c.isDigit then some whole
  else none

/-- Where a further character leads; none when it cannot belong to the numeral. -/
def next (c : Char) : Place → Option Place
  | sign => if c = '0' then some zero else if c.isDigit then some whole else none
  | zero => if c = '.' then some point else if c = 'e' || c = 'E' then some mark else none
  | whole =>
    if c.isDigit then some whole
    else if c = '.' then some point
    else if c = 'e' || c = 'E' then some mark
    else none
  | point => if c.isDigit then some fraction else none
  | fraction =>
    if c.isDigit then some fraction else if c = 'e' || c = 'E' then some mark else none
  | mark =>
    if c.isDigit then some power
    else if c = '+' || c = '-' then some markSign
    else none
  | markSign | power => if c.isDigit then some power else none

/-- Whether a numeral can stand complete before this character. -/
def endsBefore (c : Char) (p : Place) : Bool :=
  p.isEnd && !(p == zero && c.isDigit)

end Place

/-! ### Value -/

/-- Digits taken into a significand for as long as it stays below 2^64, and how many
were left over. -/
def accumulate : Nat → List Char → Nat × Nat
  | n, [] => (n, 0)
  | n, d :: ds =>
    let m := 10 * n + (d.toNat - '0'.toNat)
    if UInt64.size ≤ m then (n, ds.length + 1) else accumulate m ds

/-- The greatest power of ten that is looked at. -/
def greatestPower : Nat := UInt32.size / 2 - 1

/-- The number with these parts: digits before the point that do not fit into 64 bits
count as powers of ten, digits after it that do not fit are dropped. -/
def float (negative : Bool) (whole fraction : List Char) (downward : Bool) (power : List Char) :
    Option Binary64 :=
  let (n, left) := accumulate 0 whole
  let (n, cut) := accumulate n fraction
  let shift : Int := left - (fraction.length - cut : Nat)
  let size := valueOf power
  if greatestPower < size then
    if n = 0 || downward then some (.zero negative) else none
  else
    Decimal.steppedDecimal negative n (if downward then shift - size else shift + size)

/-- An integer numeral. -/
def integer (negative : Bool) (whole : List Char) : Option Number :=
  let n := valueOf whole
  if negative then
    if n = 0 || UInt64.size / 2 < n then (float true whole [] false []).map .float
    else some (.integer (-n))
  else if UInt64.size ≤ n then (float false whole [] false []).map .float
  else some (.integer n)

/-- What a numeral denotes; none when it is beyond every number. -/
def value (cs : List Char) : Option Number :=
  let (negative, body) := match cs with
    | '-' :: body => (true, body)
    | body => (false, body)
  let (whole, rest) := spanDigits body
  match rest with
  | [] => integer negative whole
  | c :: more =>
    let (fraction, rest) := if c = '.' then spanDigits more else ([], rest)
    let (downward, power) := Decimal.dropSign (rest.drop 1)
    (float negative whole fraction downward power).map .float

end UiSuite.Numeral
