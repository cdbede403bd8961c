import UiSuite.Suite.WaitTime
import UiSuite.Text.Blank

/-! Test suites.

A suite is a list of test cases, a case is a list of steps. Steps say what to do in
words; what they mean is decided when they are executed. -/
namespace UiSuite

structure Step where
  action : String
  selector : Option String
  aliasName : Option String
  value : Option String
  expected : Option String
  waitTime : Option WaitTime
deriving DecidableEq

namespace Step

def blank : Step :=
  ⟨"", none, none, none, none, none⟩

/-- The wait time in milliseconds, or the default where the step names none. -/
def waitMillis (s : Step) (default : Nat) : Nat :=
  (s.waitTime.bind WaitTime.toMillis).getD default

end Step

structure TestCase where
  description : String
  sourceFile : Option String
  steps : List Step
deriving DecidableEq

namespace TestCase

def blank : TestCase :=
  ⟨"", none, []⟩

/-- The case with a source label, unless it has its own. -/
def withSource (c : TestCase) (source : String) : TestCase :=
  { c with sourceFile := c.sourceFile.or (some source) }

end TestCase

structure Suite where
  name : String
  source : Option String
  cases : List TestCase
deriving DecidableEq

namespace Suite

def blank : Suite :=
  ⟨"", none, []⟩

/-- Fills in a name that is blank, a source label that is absent, and the source label of
every case without one. -/
def withDefaults (s : Suite) (name source : String) : Suite :=
  let label := s.source.getD source
  ⟨if Text.isBlankText s.name then name else s.name, some label,
    s.cases.map (·.withSource label)⟩

end Suite
end UiSuite
