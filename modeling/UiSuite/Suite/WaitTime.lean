import UiSuite.Json.Basic
import UiSuite.Text.Blank
import UiSuite.Decimal.Reading

/-! Wait times, as written in a step.

A wait time is a number of milliseconds, a text that may name one, or any other value.
What names no milliseconds leaves the default in force. -/
namespace UiSuite

inductive WaitTime where
  | millis (n : Nat)
  | text (s : String)
  | other (value : Json)
deriving DecidableEq

namespace WaitTime

/-- The greatest number of milliseconds. -/
def greatest : Nat := UInt64.size - 1

/-- A number that is not below zero, without its fraction and within 64 bits. -/
def ofBinary64 (x : Decimal.Binary64) : Option Nat :=
  if x.isBelowZero then none else some (min x.truncate greatest)

/-- The milliseconds a wait time names. -/
def toMillis : WaitTime → Option Nat
  | millis n => some n
  | text s =>
    let cs := Text.trim s.toList
    match Decimal.natural? greatest cs with
    | some n => some n
    | none => (Decimal.parse? cs).bind ofBinary64
  | other (.number (.float x)) => ofBinary64 x
  | other _ => none

/-- A wait time from a value: integers from 0 count as milliseconds. -/
def ofJson : Json → WaitTime
  | .number (.integer i) => if 0 ≤ i then millis i.toNat else other (.number (.integer i))
  | .string s => text s
  | j => other j

def toJson : WaitTime → Json
  | millis n => Json.ofNat n
  | text s => .string s
  | other j => j

end WaitTime
end UiSuite
