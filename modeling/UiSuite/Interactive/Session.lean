import UiSuite.Interactive.Fetch
import UiSuite.Execution.Run
import UiSuite.Suite.Decoding

/-! Interactive sessions: suites run as they are fetched.

Every payload that is a suite runs with no aliases, and the surface settles after it; on
anything else the session sleeps and polls again. It ends with the exit command, or with
too many errors in a row. `Session.take` is what one outcome does. -/
namespace UiSuite

open Report (Entry Tally)

/-- A session: the world, the source label announced last, what was written, the tally of
all suites, how many suites were received, and how many errors came in a row. -/
structure Session (σ : Type) where
  world : World σ
  source : Option String
  entries : List Entry
  tally : Tally
  received : Nat
  errors : Nat

namespace Session
variable {σ : Type}

def start (world : World σ) (source : Option String) : Session σ :=
  ⟨world, source, [], .empty, 0, 0⟩

/-- Whether a payload is the exit command, up to case and blanks around it. -/
def isExit (command body : String) : Bool :=
  Text.equalFold (Text.trimmed body) (Text.trimmed command)

/-- The suite with a number, from a payload. -/
def decode (sourceName : String) (number : Nat) (body : String) : Except DecodeError Suite := do
  let name := "Interactive Suite " ++ toString number
  let suite ← Suite.decode body name
  return suite.withDefaults name (sourceName ++ "#" ++ toString number)

/-- Sleeps until the next poll. -/
def pause (p : Polling) (s : Session σ) : Session σ :=
  { s with world := s.world.sleep p.pollInterval }

/-- One error more in a row, and whether there are too many. -/
def countError (p : Polling) (s : Session σ) : Session σ × Bool :=
  let s := { s with errors := s.errors + 1 }
  if p.maxErrors.any (· ≤ s.errors) then (s, true) else (s.pause p, false)

/-- What a line about a payload that is no suite begins with. -/
def complaintLabel : String := "! Ignoring malformed interactive payload: "

/-- What is written about a payload that is no suite. -/
def complaint (e : DecodeError) : Entry :=
  .text (complaintLabel ++ e.message)

variable [Surface σ]

/-- Runs a suite that was received. -/
def runSuite (config : Config) (suite : Suite) (s : Session σ) : Session σ :=
  let r := suite.run config s.world.reset s.source
  { s with
    world := r.world.settle
    source := r.source
    entries := s.entries ++ r.entries
    tally := s.tally.merge r.tally
    received := s.received + 1 }

/-- What a payload does, and whether it ends the session. -/
def takeBody (config : Config) (sourceName body : String) (s : Session σ) : Session σ × Bool :=
  if isExit config.polling.exitCommand body then (s, true)
  else match decode sourceName (s.received + 1) (Text.trimmed body) with
    | .ok suite => (s.runSuite config suite, false)
    | .error e => ({ s with entries := s.entries ++ [complaint e] }.pause config.polling, false)

/-- What the outcome of a poll does, and whether it ends the session. -/
def take (config : Config) (sourceName : String) (p : Poll) (s : Session σ) : Session σ × Bool :=
  match p with
  | .error _ => s.countError config.polling
  | .ok f =>
    let s := { s with errors := 0 }
    match f with
    | .empty | .status _ => (s.pause config.polling, false)
    | .body text => s.takeBody config sourceName text

/-- In the end all aliases are forgotten. -/
def finish (s : Session σ) : Session σ :=
  { s with world := s.world.reset }

/-- A session over a source, with so many polls at most. -/
def poll {τ : Type} [Source τ] (config : Config) : Nat → Session σ → τ → Session σ × τ
  | 0, s, t => (s, t)
  | n + 1, s, t =>
    let (p, t') := Source.fetch t
    match s.take config (Source.name t) p with
    | (s, true) => (s.finish, t')
    | (s, false) => poll config n s t'

/-- A session over the server of a configuration, if it is enabled and has one. -/
def polling {τ : Type} [Transport τ] (config : Config) (polls : Nat) (transport : τ)
    (s : Session σ) : Session σ × τ :=
  match config.polling.enabled, config.polling.endpoint with
  | true, some url =>
    let (s, e) := poll config polls s (⟨url, transport⟩ : Endpoint τ)
    (s, e.transport)
  | _, _ => (s, transport)

end Session
end UiSuite
