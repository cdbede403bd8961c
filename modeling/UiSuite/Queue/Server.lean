import UiSuite.Queue.Payloads
import UiSuite.Queue.Http
import UiSuite.Queue.Page
import UiSuite.Interactive.Address
import UiSuite.Interactive.Fetch
import UiSuite.Json.Printer

/-! A server that hands out queued payloads, one per poll.

A poll takes the next payload; an empty queue answers with nothing or with the exit
command, and a cycling server queues a payload again as it serves it. Polls of a headless
browser get nothing. Posting the exit command to the endpoint gets it back and leaves the
queue alone; other payloads are queued at a place of their own. -/
namespace UiSuite.Queue

/-- What becomes of the queue: it drains, it cycles, or its end is the exit command. -/
inductive Mode where
  | drain
  | cycle
  | exitWhenEmpty
deriving DecidableEq

/-- A server: the path that is polled, as it was given, the mode, the exit command and the
queue. -/
structure Server where
  endpoint : String
  mode : Mode
  exitCommand : String
  queue : Payloads

namespace Server

/-- A path with one slash before it and none after it. -/
def normalize (endpoint : String) : String :=
  let inner := (Text.trim endpoint.toList).dropWhile (· == '/')
  String.ofList ('/' :: (inner.reverse.dropWhile (· == '/')).reverse)

/-- Whether a poll comes from a headless browser. -/
def isHeadless (r : Request) : Bool :=
  (r.header "user-agent").any (Text.contains · "HeadlessChrome")

/-- Answers a poll. -/
def poll (r : Request) (s : Server) : Response × Server :=
  if isHeadless r then (.empty 204, s)
  else match s.queue.pop with
    | (some payload, rest) =>
      let queue := if s.mode = .cycle then rest.push payload else rest
      (.text 200 payload, { s with queue := queue })
    | (none, _) =>
      if s.mode = .exitWhenEmpty then (.text 200 s.exitCommand, s) else (.empty 204, s)

/-- How many octets a posted body may have. -/
def bodyLimit : Nat := 2097152

/-- The body of a request as a text, or the response that refuses it: a body is taken in before
it is read. -/
def bodyText (r : Request) : Except Response String :=
  if bodyLimit < r.body.length then
    .error (.text 413 "Failed to buffer the request body: length limit exceeded")
  else match Text.Utf8.decode r.body with
    | .ok text => .ok text
    | .error fault =>
      .error (.text 400 ("Request body didn't contain valid UTF-8: " ++ fault.message))

/-- Answers a posted poll. -/
def postPoll (r : Request) (s : Server) : Response × Server :=
  match bodyText r with
  | .error refusal => (refusal, s)
  | .ok body =>
    if Text.equalFold (Text.trimmed body) (Text.trimmed s.exitCommand) then
      (.text 200 s.exitCommand, s)
    else s.poll r

/-- The payload of a request: its text, or the field of that name in its form. -/
def payloadOf (r : Request) (body : String) : String :=
  if r.isForm then (((formPairs r.body).find? (·.1 == "payload")).map (·.2)).getD ""
  else body

/-- Queues a payload. -/
def enqueue (r : Request) (s : Server) : Response × Server :=
  match bodyText r with
  | .error refusal => (refusal, s)
  | .ok body =>
    let payload := Text.trimmed (payloadOf r body)
    if payload = "" then (.text 400 "Empty payload", s)
    else (.empty 201, { s with queue := s.queue.push payload })

/-- Answers how many payloads are queued. -/
def status (s : Server) : Response :=
  .json (Json.ofFields [("size", Json.ofNat s.queue.size)]).render

/-- The places of a server. -/
inductive Place where
  | polls
  | enqueues
  | reports
  | shows
deriving DecidableEq

/-- The place of a path, if it is one; the endpoint comes first. -/
def place? (s : Server) (path : List Char) : Option Place :=
  if path = (normalize s.endpoint).toList then some .polls
  else if path = "/enqueue".toList then some .enqueues
  else if path = "/status".toList then some .reports
  else if path = "/".toList then some .shows
  else none

/-- The methods of a place, in words. -/
def Place.allow : Place → String
  | polls => "GET,HEAD,POST"
  | enqueues => "POST"
  | reports | shows => "GET,HEAD"

/-- Answers a request at a place. -/
def answer (r : Request) (p : Place) (s : Server) : Response × Server :=
  match p, r.method with
  | .polls, "GET" | .polls, "HEAD" => s.poll r
  | .polls, "POST" => s.postPoll r
  | .enqueues, "POST" => s.enqueue r
  | .reports, "GET" | .reports, "HEAD" => (s.status, s)
  | .shows, "GET" | .shows, "HEAD" => (.html page, s)
  | p, _ => (.wrongMethod p.allow, s)

/-- Answers a request. A request for the options of anything is granted, and a request
for headers only gets no body. -/
def handle (r : Request) (s : Server) : Response × Server :=
  if r.method = "OPTIONS" then (.empty 200, s)
  else match s.place? r.place with
    | none => (.empty 404, s)
    | some p =>
      let (response, s) := s.answer r p
      (if r.method = "HEAD" then { response with body := "" } else response, s)

/-! ### Over a transport -/

instance : Transport Server where
  get url s :=
    match Address.ofText? url with
    | none => (none, s)
    | some a =>
      let (response, s) := s.handle ⟨"GET", a.place, [("user-agent", Endpoint.agent)], []⟩
      (some ⟨response.status, Text.Utf8.encode response.body⟩, s)

end Server
end UiSuite.Queue
