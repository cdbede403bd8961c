import UiSuite.Execution.Performing
import UiSuite.Report.Entry
import UiSuite.Report.Tally

/-! Running suites.

The cases of a suite run one after the other in one world. A failed step ends its case
and nothing else. Before a case whose source label differs from the last one announced,
the label is announced; that memory outlasts the suite. -/
namespace UiSuite

open Report (Entry Tally)

/-- A run: the world, the source label announced last, the tally, and what was written. -/
structure Run (σ : Type) where
  world : World σ
  source : Option String
  tally : Tally
  entries : List Entry

namespace Run
variable {σ : Type}

def start (world : World σ) (source : Option String) : Run σ :=
  ⟨world, source, .empty, []⟩

def write (entries : List Entry) (r : Run σ) : Run σ :=
  { r with entries := r.entries ++ entries }

/-- Announces a source label, unless it was announced last. -/
def announce (source : Option String) (r : Run σ) : Run σ :=
  match source with
  | none => r
  | some path =>
    if r.source = some path then r
    else { r.write (Entry.ofSource path) with source := some path }

/-- Records how a case ended, the failure of its step if there was one. -/
def conclude (description : String) (source : Option String) (failure : Option StepFailure)
    (r : Run σ) : Run σ :=
  match failure with
  | none => { r.write (Entry.ofPass description source) with tally := r.tally.pass }
  | some f =>
    { r.write (Entry.ofFailure description f.message source) with
      tally := r.tally.fail description }

variable [Surface σ]

/-- Executes steps from a place on, up to the first that fails. -/
def steps (config : Config) : Nat → List Step → Run σ → Option StepFailure × Run σ
  | _, [], r => (none, r)
  | index, s :: rest, r =>
    match s.execute config index r.world with
    | (.error f, w) => (some f, { r with world := w })
    | (.ok .performed, w) => steps config (index + 1) rest { r with world := w }
    | (.ok (.skipped tag), w) =>
      steps config (index + 1) rest ({ r with world := w }.write (Entry.ofSkip (index + 1) tag))

/-- Runs a case of a suite with a source label. -/
def case (config : Config) (suiteSource : Option String) (r : Run σ) (c : TestCase) : Run σ :=
  let source := c.sourceFile.or suiteSource
  let begun := (r.announce source).write (Entry.ofStart c.description source)
  let (failure, ended) := steps config 0 c.steps begun
  ended.conclude c.description source failure

/-- Runs cases one after the other. -/
def cases (config : Config) (suiteSource : Option String) (cs : List TestCase) (r : Run σ) :
    Run σ :=
  cs.foldl (case config suiteSource) r

theorem cases_append (config : Config) (suiteSource : Option String) (a b : List TestCase)
    (r : Run σ) :
    cases config suiteSource (a ++ b) r =
      cases config suiteSource b (cases config suiteSource a r) :=
  List.foldl_append

/-- Writes the summary. -/
def summarize (r : Run σ) : Run σ :=
  r.write (Entry.ofSummary r.tally.passed r.tally.failed r.tally.failedTests)

end Run

/-- Runs a suite in a world, after a source label was announced. -/
def Suite.run {σ : Type} [Surface σ] (config : Config) (s : Suite) (world : World σ)
    (source : Option String) : Run σ :=
  ((Run.start world source).cases config s.source s.cases).summarize

end UiSuite
