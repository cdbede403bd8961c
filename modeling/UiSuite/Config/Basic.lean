import UiSuite.Text.Blank

/-! Configuration of a run. All times are in milliseconds. -/
namespace UiSuite

/-- How long steps wait. -/
structure Waits where
  elementTimeout : Nat
  waitAction : Nat
  pollInterval : Nat
deriving DecidableEq

/-- How suites are fetched from a server. -/
structure Polling where
  enabled : Bool
  serverUrl : Option String
  exitCommand : String
  pollInterval : Nat
  requestTimeout : Nat
  maxErrors : Option Nat
deriving DecidableEq

structure Config where
  waits : Waits
  polling : Polling
  strictTypeNames : Bool
deriving DecidableEq

def Waits.standard : Waits :=
  ⟨3000, 1000, 50⟩

namespace Polling

def standard : Polling :=
  ⟨false, none, "exit", 1000, 10000, none⟩

/-- The server to fetch from, if it is given and not blank. -/
def endpoint (p : Polling) : Option String :=
  (p.serverUrl.map Text.trimmed).filter (· ≠ "")

end Polling

def Config.standard : Config :=
  ⟨.standard, .standard, false⟩

end UiSuite
