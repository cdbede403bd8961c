import UiSuite.Report.Event

/-! What a run writes: events, and lines for people beside them.

An entry is written as one line. Every occasion of a run has its entries, an event first
and what people read after it. -/
namespace UiSuite.Report

inductive Entry where
  | event (e : Event)
  | text (s : String)
deriving DecidableEq

namespace Entry

/-- The line of an entry. -/
def line : Entry → String
  | event e => e.toLine
  | text s => s

/-- The event of an entry, if it is one. -/
def event? : Entry → Option Event
  | event e => some e
  | text _ => none

def ofSource (path : String) : List Entry :=
  [event (.sourceFile path), text "", text ("=== Source: " ++ path ++ " ===")]

def ofStart (description : String) (source : Option String) : List Entry :=
  [event (.caseStart description source), text ("▶ " ++ description)]

def ofPass (description : String) (source : Option String) : List Entry :=
  [event (.caseResult description .passed none source), text ("  ✓ PASSED: " ++ description)]

def ofFailure (description reason : String) (source : Option String) : List Entry :=
  [event (.caseResult description .failed (some reason) source),
    text ("  ✗ FAILED: " ++ description), text ("    reason: " ++ reason)]

def ofSkip (step : Nat) (action : String) : List Entry :=
  [text ("    ! step " ++ toString step ++ ": unknown action '" ++ action ++ "', skipped")]

def ofSummary (passed failed : Nat) (failedTests : List String) : List Entry :=
  [event (.summary passed failed failedTests), text "", text "=== Test Summary ===",
    text ("Passed: " ++ toString passed), text ("Failed: " ++ toString failed)] ++
  if failedTests.isEmpty then []
  else text "Failed tests:" :: failedTests.map fun name => text ("  - " ++ name)

end Entry

/-- Lines on the console: each has a line break after it. -/
def console (lines : List String) : String :=
  String.join (lines.map (· ++ "\n"))

/-- The structured lines among lines. -/
def structured (lines : List String) : List Structured :=
  lines.filterMap Structured.decode

/-- The events among lines. -/
def events (lines : List String) : List Event :=
  lines.filterMap Event.ofLine?

end UiSuite.Report
