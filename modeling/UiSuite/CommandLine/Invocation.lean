import UiSuite.CommandLine.Arguments
import UiSuite.Config.Level
import UiSuite.Decimal.Reading
import UiSuite.Queue.Server

/-! Commands: what the program is asked to do. -/
namespace UiSuite.CommandLine

/-- Running suites. -/
structure RunOptions where
  app : String
  suite : Option String
  config : Option String
  isInteractive : Bool
  serverUrl : Option String
  exitCommand : Option String
  pollInterval : Option Nat
deriving DecidableEq

/-- Serving payloads. -/
structure ServeOptions where
  files : List String
  host : String
  port : Nat
  endpoint : String
  mode : Queue.Mode
  exitCommand : String
deriving DecidableEq

/-- The formats whose outline can be asked for. -/
inductive Format where
  | config
  | suite
deriving DecidableEq

inductive Command where
  | run (options : RunOptions)
  | serve (options : ServeOptions)
  | outline (format : Format)
deriving DecidableEq

/-- A command, and the level of diagnostics if it is given. -/
structure Invocation where
  level : Option Level
  command : Command
deriving DecidableEq

/-! ### Forms -/

/-- A number up to a greatest one. -/
def natural? (greatest : Nat) (s : String) : Option Nat :=
  Decimal.natural? greatest s.toList

def anyText : Role := .value fun _ => true

/-- A path is not empty. -/
def path : Role := .value (· ≠ "")

def number (greatest : Nat) : Role := .value fun s => (natural? greatest s).isSome

/-- The options of every command. -/
def shared : List Switch :=
  [⟨"log-level", none, anyText⟩, ⟨"help", some 'h', .stop .help⟩]

def runForm : Form where
  options := shared ++ [
    ⟨"app", none, path⟩, ⟨"suite", some 's', path⟩, ⟨"config", some 'c', path⟩,
    ⟨"interactive", none, .flag⟩, ⟨"server-url", none, anyText⟩,
    ⟨"exit-command", none, anyText⟩, ⟨"poll-interval-ms", none, number (UInt64.size - 1)⟩]
  takes _ _ := false

def serveForm : Form where
  options := shared ++ [
    ⟨"host", none, anyText⟩, ⟨"port", none, number (UInt16.size - 1)⟩,
    ⟨"endpoint", none, anyText⟩, ⟨"exit", none, .flag⟩,
    ⟨"exit-command", none, anyText⟩, ⟨"cycle", none, .flag⟩]
  takes _ file := file ≠ ""

/-- The format of a name. -/
def Format.ofName? (name : String) : Option Format :=
  if name = "config" then some config else if name = "suite" then some suite else none

def outlineForm : Form where
  options := shared
  takes place name := place == 0 && (Format.ofName? name).isSome

/-- What stands before a command. -/
def rootForm : Form where
  options := shared ++ [⟨"version", some 'V', .stop .version⟩]
  takes _ _ := true

/-! ### Commands from arguments -/

def runCommand (r : Reading) : Except Stop Command :=
  match r.value? "app" with
  | none => .error .usage
  | some app => .ok (.run {
      app := app
      suite := r.value? "suite"
      config := r.value? "config"
      isInteractive := r.has "interactive"
      serverUrl := r.value? "server-url"
      exitCommand := r.value? "exit-command"
      pollInterval := (r.value? "poll-interval-ms").bind (natural? (UInt64.size - 1)) })

def serveCommand (r : Reading) : Except Stop Command :=
  if r.has "exit" && r.has "cycle" then .error .usage
  else .ok (.serve {
    files := r.others
    host := (r.value? "host").getD "127.0.0.1"
    port := ((r.value? "port").bind (natural? (UInt16.size - 1))).getD 9000
    endpoint := (r.value? "endpoint").getD "/next"
    mode := if r.has "exit" then .exitWhenEmpty else if r.has "cycle" then .cycle else .drain
    exitCommand := (r.value? "exit-command").getD "exit" })

def outlineCommand (r : Reading) : Except Stop Command :=
  match r.others.head?.bind Format.ofName? with
  | some format => .ok (.outline format)
  | none => .error .usage

/-- Help, for a command or for all. -/
def helpFor (args : List String) : Stop :=
  match args with
  | [] | ["run"] | ["serve"] | ["schema"] | ["help"] => .help
  | _ => .usage

/-- Reads the arguments of the program. -/
def parse (args : List String) : Except Stop Invocation := do
  let (before, name, rest) ← rootForm.readToCommand args Reading.start
  let (r, command) ←
    match name with
    | "run" => do let r ← runForm.read rest; pure (r, ← runCommand r)
    | "serve" => do let r ← serveForm.read rest; pure (r, ← serveCommand r)
    | "schema" => do let r ← outlineForm.read rest; pure (r, ← outlineCommand r)
    | "help" => .error (helpFor rest)
    | _ => .error .usage
  let level := (r.value? "log-level").or (before.value? "log-level")
  return ⟨level.map fun raw => (Level.parse? raw).getD .info, command⟩

end UiSuite.CommandLine
