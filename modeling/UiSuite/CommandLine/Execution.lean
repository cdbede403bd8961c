import UiSuite.CommandLine.Invocation
import UiSuite.Config.Loading
import UiSuite.Interactive.Session
import UiSuite.Suite.Loading
import UiSuite.Surface.Launch

/-! What commands do.

A command reads files and writes lines; its exit code says whether it went well. Running
ends well unless a case failed, and the failed cases of the whole run are listed at the
end (`closing`). -/
namespace UiSuite.CommandLine

open Report (Tally)

/-- What a command leaves: its exit code and the lines it wrote. -/
structure Outcome where
  code : Nat
  lines : List String
deriving DecidableEq

namespace Outcome

/-- Nothing came of it. -/
def failed : Outcome := ⟨1, []⟩

/-- The arguments were wrong. -/
def misused : Outcome := ⟨2, []⟩

end Outcome

/-- The contents of files, by their paths. -/
abbrev Files := String → Option (List UInt8)

/-! ### Running -/

/-- The configuration with what the options put in its place. -/
def RunOptions.override (o : RunOptions) (c : Config) : Config :=
  { c with polling := { c.polling with
    enabled := o.isInteractive || c.polling.enabled
    serverUrl := o.serverUrl.or c.polling.serverUrl
    exitCommand := o.exitCommand.getD c.polling.exitCommand
    pollInterval := o.pollInterval.getD c.polling.pollInterval } }

/-- The configuration of a run, if it can be used. -/
def RunOptions.configuration (files : Files) (o : RunOptions) : Option Config :=
  let base := match o.config with
    | some path => (Config.ofWholeFile (files path) path).toOption
    | none => some .standard
  (base.map o.override).filter fun c => c.complaints.isEmpty

/-- The suite of a run, if one is asked for; none of them when it cannot be loaded. -/
def RunOptions.loadSuite (files : Files) (o : RunOptions) : Option (Option Suite) :=
  match o.suite with
  | none => some none
  | some path => (Suite.loadFile (files path) path).toOption.map some

/-- The session that a run opens on a stage, after its own suite if it has one. -/
def opening (config : Config) (suite : Option Suite) (stage : Stage) : Session Stage :=
  let s := Session.start (World.start stage) none
  match suite with
  | none => s
  | some suite => { s.runSuite config suite with received := 0 }

/-- The configuration of a run and the session it opens; none when anything it names cannot
be loaded. -/
def RunOptions.opening (files : Files) (o : RunOptions) : Option (Config × Session Stage) := do
  let config ← o.configuration files
  let stage ← (Stage.launch (files o.app) o.app).toOption
  let suite ← o.loadSuite files
  return (config, CommandLine.opening config suite stage)

/-- The list of failed cases at the end. -/
def failureLines (t : Tally) : List String :=
  if t.failedTests.isEmpty then []
  else "Failed tests:" :: t.failedTests.map fun name => "  - " ++ name

/-- What a run comes to with the session it ended with. -/
def closing (s : Session Stage) : Outcome :=
  ⟨if s.tally.isSuccess then 0 else 1, s.entries.map (·.line) ++ failureLines s.tally⟩

variable {τ : Type} [Transport τ]

/-- Runs suites as the options say, with so many polls at most. -/
def run (files : Files) (polls : Nat) (transport : τ) (o : RunOptions) : Outcome :=
  match o.opening files with
  | none => .failed
  | some (config, s) => closing (s.polling config polls transport).1

/-! ### Serving -/

/-- The server that options ask for, if all its files can be read. -/
def ServeOptions.server (files : Files) (o : ServeOptions) : Option Queue.Server :=
  ((Queue.Payloads.ofFiles (o.files.map fun path => (path, files path))).toOption).map
    fun queue => ⟨o.endpoint, o.mode, o.exitCommand, queue⟩

/-- What a server announces at its address. -/
def banner (address : String) (s : Queue.Server) : List String :=
  ["Queue server running at http://" ++ address ++ "/",
    "Interactive sessions should poll http://" ++ address ++ Queue.Server.normalize s.endpoint]

/-- A server at the address it got, if it got one, and what it announces. -/
def serve (files : Files) (listen : String → Nat → Option String) (o : ServeOptions) :
    Option Queue.Server × Outcome :=
  match o.server files with
  | none => (none, .failed)
  | some s =>
    match listen o.host o.port with
    | none => (none, .failed)
    | some address => (some s, ⟨0, banner address s⟩)

/-! ### The program -/

/-- What the program is called with its version. -/
def versionLine : String := Release.name ++ " " ++ Release.version

/-- How the program is used. -/
def usageLines : List String := [
  "Declarative step-DSL runner for UI test suites",
  "",
  "Usage: uidsl [OPTIONS] <COMMAND>",
  "",
  "Commands:",
  "  run     Run a suite, and suites from a server, against an app",
  "  serve   Serve queued payloads to interactive sessions",
  "  schema  Print the outline of a format",
  "  help    Print this message"]

/-- The outline of a format. -/
def Format.outline : Format → Json.Outline
  | config => Config.outline
  | suite => Suite.outline

/-- What arguments lead to. -/
def execute (files : Files) (listen : String → Nat → Option String) (polls : Nat) (transport : τ)
    (args : List String) : Outcome :=
  match parse args with
  | .error .usage => .misused
  | .error .help => ⟨0, usageLines⟩
  | .error .version => ⟨0, [versionLine]⟩
  | .ok i =>
    match i.command with
    | .run o => run files polls transport o
    | .serve o => (serve files listen o).2
    | .outline format => ⟨0, [format.outline.toJson.render]⟩

end UiSuite.CommandLine
