import UiSuite.Release
import UiSuite.Text.Blank
import UiSuite.Text.Utf8

/-! Fetching payloads.

A source is polled for payloads, one outcome at a time. An endpoint asks a server through
a transport, which may fail to reach it. -/
namespace UiSuite

/-- What a poll brings: nothing yet, an unexpected status, or a payload. -/
inductive Fetch where
  | empty
  | status (code : Nat)
  | body (text : String)
deriving DecidableEq

/-- The outcome of a poll; an error has a text. -/
abbrev Poll := Except String Fetch

/-- What can be polled; a poll may change it. -/
class Source (τ : Type) where
  name : τ → String
  fetch : τ → Poll × τ

/-! ### Endpoints -/

/-- What a server answers. -/
structure Answer where
  status : Nat
  body : List UInt8

/-- A way to ask a server for the content at an address; none when it is not reached. -/
class Transport (τ : Type) where
  get : String → τ → Option Answer × τ

/-- An address that is asked through a transport. -/
structure Endpoint (τ : Type) where
  url : String
  transport : τ

namespace Endpoint

/-- What an answer means: a blank payload is none. -/
def meaning (a : Answer) : Fetch :=
  if a.status = 204 then .empty
  else if a.status = 200 then
    let text := Text.Utf8.decodeLossy a.body
    if Text.isBlankText text then .empty else .body text
  else .status a.status

/-- What a poll of an address brings, with the answer if the server was reached. -/
def outcome (url : String) : Option Answer → Poll
  | some a => .ok (meaning a)
  | none => .error ("GET " ++ url ++ " failed")

/-- What those who ask call themselves. -/
def agent : String := Release.name ++ "/" ++ Release.version

instance [Transport τ] : Source (Endpoint τ) where
  name e := e.url
  fetch e :=
    let (answer, transport) := Transport.get e.url e.transport
    (outcome e.url answer, { e with transport := transport })

end Endpoint

/-- A transport that reaches no server. -/
inductive Unreachable where
  | unreachable

instance : Transport Unreachable where
  get _ t := (none, t)

/-! ### Scripts -/

/-- Outcomes to come, with a payload that is all that comes after them, and how many polls
there were. -/
structure Script where
  name : String
  rest : List Poll
  last : String
  polls : Nat

instance : Source Script where
  name := Script.name
  fetch s :=
    match s.rest with
    | p :: rest => (p, { s with rest := rest, polls := s.polls + 1 })
    | [] => (.ok (.body s.last), { s with polls := s.polls + 1 })

end UiSuite
