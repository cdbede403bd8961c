import UiSuite.CommandLine.Execution
import UiSuite.Queue.Wire
import Std.Async.DNS
import Std.Async.Signal
import Std.Async.TCP
import Std.Async.Timer

/-! The program: files, connections and the clock around commands.

Nothing is decided here. Files are read before a command begins, octets go to and come
from connections, and what a session sleeps is slept. -/
namespace UiSuite.Program

open Std.Async (Async Selectable Selector)
open Std.Async.TCP.Socket (Client)
open CommandLine

/-! ### Files -/

/-- The contents of files by their paths. -/
def readFiles (paths : List String) : IO Files := do
  let contents ← paths.mapM fun (path : String) => do
    let content ← try pure (some (← IO.FS.readBinFile path)) catch _ => pure none
    return (path, content.map (·.toList))
  return fun path => (contents.find? (·.1 == path)).bind (·.2)

/-! ### Connections -/

/-- The address of a host on the net. -/
def resolve (host : String) (port : Nat) : Async Std.Net.SocketAddress := do
  let port := UInt16.ofNat port
  match (← Std.Async.DNS.getAddrInfo host "").toList with
  | .v4 addr :: _ => return .v4 ⟨addr, port⟩
  | .v6 addr :: _ => return .v6 ⟨addr, port⟩
  | [] => throw (.userError ("no address of " ++ host))

/-- The octets that a peer sends, up to its end or to what is wanted. -/
partial def receive (read : List UInt8 → Option α) (client : Client) (octets : ByteArray) :
    Async (Option α × ByteArray) := do
  match read octets.toList with
  | some a => return (some a, octets)
  | none =>
    match ← client.recv? 65536 with
    | some more => receive read client (octets ++ more)
    | none => return (none, octets)

/-- What comes of some work, unless it fails or takes too long. -/
def within (millis : Nat) (work : Async (Option α)) : Async (Option α) := do
  try
    Async.race work do
      Std.Async.sleep (.ofNat millis)
      return none
  catch _ => return none

/-! ### Running -/

/-- The answer from an address. -/
def askAddress (a : Address) : Async (Option Answer) := do
  let client ← Client.mk
  client.connect (← resolve a.host a.port)
  client.send (Queue.Wire.ask a).toByteArray
  let (_, octets) ← receive (fun _ => (none : Option Unit)) client .empty
  return Queue.Wire.answer? octets.toList

/-- Polls a server. -/
def poll (p : Polling) (url : String) : IO Poll := do
  let answer ← match Address.ofText? url with
    | some a => (within p.requestTimeout (askAddress a)).block
    | none => pure none
  return Endpoint.outcome url answer

/-- Writes what a session wrote after its first entries and sleeps what it slept. -/
def follow (before after : Session Stage) : IO Unit := do
  let out ← IO.getStdout
  out.putStr (Report.console ((after.entries.drop before.entries.length).map (·.line)))
  out.flush
  IO.sleep (UInt32.ofNat (after.world.clock - before.world.clock))

/-- Polls for a session until it ends. -/
partial def converse (config : Config) (url : String) (s : Session Stage) :
    IO (Session Stage) := do
  let (next, ends) := s.take config url (← poll config.polling url)
  follow s next
  if ends then return next.finish else converse config url next

/-- Runs suites as the options say. -/
def runSuites (o : RunOptions) : IO UInt32 := do
  let files ← readFiles (o.app :: (o.config.toList ++ o.suite.toList))
  match o.opening files with
  | none => return 1
  | some (config, s) =>
    follow (Session.start (World.start s.world.surface) none) s
    let s ← match config.polling.enabled, config.polling.endpoint with
      | true, some url => converse config url s
      | _, _ => pure s
    IO.print (Report.console (failureLines s.tally))
    return UInt32.ofNat (closing s).code

/-! ### Serving -/

/-- Answers the request of a connection. -/
def respond (s : Queue.Server) (client : Client) : Async (Option Queue.Server) := do
  match (← receive Queue.Wire.request? client .empty).1 with
  | none => return none
  | some request =>
    let (response, s) := s.handle request
    client.send (Queue.Wire.response response).toByteArray
    client.shutdown
    return some s

/-- How long a connection may take, in milliseconds. -/
def patience : Nat := 10000

/-- Answers one connection after the other until it is told to stop. -/
partial def serveFrom (listener : Std.Async.TCP.Socket.Server) (stop : Selector Unit)
    (s : Queue.Server) : Async Unit := do
  let client ← Selectable.one #[
    .case listener.acceptSelector fun client => return some client,
    .case stop fun _ => return none]
  match client with
  | none => return
  | some client => serveFrom listener stop ((← within patience (respond s client)).getD s)

/-- Serves payloads as the options say. -/
def servePayloads (o : ServeOptions) : IO UInt32 := do
  match o.server (← readFiles o.files) with
  | none => return 1
  | some s =>
    let listener ← Std.Async.TCP.Socket.Server.mk
    listener.bind (← (resolve o.host o.port).block)
    listener.listen 128
    let address ← listener.getSockName
    for line in banner (toString address) s do
      IO.println line
    (← IO.getStdout).flush
    let interrupt ← Std.Async.Signal.Waiter.mk .sigint false
    (serveFrom listener interrupt.selector s).block
    return 0

/-- Does what arguments ask for. -/
def perform (args : List String) : IO UInt32 := do
  match parse args with
  | .error .usage =>
    for line in usageLines do
      IO.eprintln line
    return UInt32.ofNat Outcome.misused.code
  | .error .help =>
    for line in usageLines do
      IO.println line
    return 0
  | .error .version => IO.println versionLine; return 0
  | .ok i =>
    match i.command with
    | .run o => runSuites o
    | .serve o => servePayloads o
    | .outline format => IO.println format.outline.toJson.render; return 0

end UiSuite.Program

def main (args : List String) : IO UInt32 := do
  try UiSuite.Program.perform args
  catch e =>
    IO.eprintln (toString e)
    return 1
