/-! Tallies: how many cases passed and failed, and which ones failed.

A description is listed once, where it failed first. What a tally counts in is a parameter: runs
count in natural numbers, since they end long before a machine word is full, and tallies that are
merged at will, with themselves too, count in words, which wrap around. -/
namespace UiSuite.Report

structure Tally (ν : Type := Nat) where
  passed : ν
  failed : ν
  failedTests : List String
deriving DecidableEq

namespace Tally
variable {ν : Type} [OfNat ν 0] [OfNat ν 1] [Add ν]

def empty : Tally ν :=
  ⟨0, 0, []⟩

/-- Adds a description to a list unless it is there. -/
def note (failedTests : List String) (description : String) : List String :=
  if description ∈ failedTests then failedTests else failedTests ++ [description]

def pass (t : Tally ν) : Tally ν :=
  { t with passed := t.passed + 1 }

def fail (t : Tally ν) (description : String) : Tally ν :=
  { t with failed := t.failed + 1, failedTests := note t.failedTests description }

/-- Both tallies in one, the first before the second. -/
def merge (t u : Tally ν) : Tally ν :=
  ⟨t.passed + u.passed, t.failed + u.failed, u.failedTests.foldl note t.failedTests⟩

def total (t : Tally ν) : ν :=
  t.passed + t.failed

def isSuccess [DecidableEq ν] (t : Tally ν) : Bool :=
  t.failed == 0

end Tally
end UiSuite.Report
