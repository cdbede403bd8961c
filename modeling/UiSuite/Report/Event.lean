import UiSuite.Report.Structured
import UiSuite.Json.Shape

/-! Events of a run.

Every event is one structured line (`Event.toLine`), and is read back from it
(`Event.ofLine?`). Absent labels and reasons are left out, and so is an empty list of
failed tests. -/
namespace UiSuite.Report

open Json (Reader)

inductive Status where
  | passed
  | failed
deriving DecidableEq

namespace Status

def name : Status → String
  | passed => "passed"
  | failed => "failed"

def ofName? (name : String) : Option Status :=
  if name = "passed" then some passed else if name = "failed" then some failed else none

/-- A status by its name, or by an object with the name as its one key and nothing under
it. -/
def ofJson? : Json → Option Status
  | .string s => ofName? s
  | .object [(s, .null)] | .object [(s, .object [])] => ofName? s
  | _ => none

end Status

inductive Event where
  | sourceFile (path : String)
  | caseStart (description : String) (source : Option String)
  | caseResult (description : String) (status : Status) (reason source : Option String)
  | summary (passed failed : Nat) (failedTests : List String)
deriving DecidableEq

namespace Event

def kind : Event → String
  | sourceFile .. => "source_file"
  | caseStart .. => "test_case_start"
  | caseResult .. => "test_case_result"
  | summary .. => "summary"

def fields : Event → List (String × Json)
  | sourceFile path => [("path", .string path)]
  | caseStart description source =>
    [("description", .string description)] ++
      Json.presentField "sourceFile" (source.map .string)
  | caseResult description status reason source =>
    [("description", .string description), ("status", .string status.name)] ++
      Json.presentField "reason" (reason.map .string) ++
      Json.presentField "sourceFile" (source.map .string)
  | summary passed failed failedTests =>
    [("passed", Json.ofNat passed), ("failed", Json.ofNat failed)] ++
      if failedTests.isEmpty then [] else [("failedTests", .array (failedTests.map .string))]

def payload (e : Event) : Json :=
  Json.ofFields e.fields

/-- The line of an event. -/
def toLine (e : Event) : String :=
  Structured.encode e.kind e.payload

def toJson (e : Event) : Json :=
  .ofFields [("kind", .string e.kind), ("payload", e.payload)]

/-! ### Reading -/

/-- A field that must be there. -/
def required (read : Reader α) (name : String) (payload : List (String × Json)) : Option α :=
  (Json.get? name payload).bind fun j => (read j).toOption

/-- A field with a value to take in its absence. -/
def optional (read : Reader α) (default : α) (name : String) (payload : List (String × Json)) :
    Option α :=
  match Json.get? name payload with
  | none => some default
  | some j => (read j).toOption

def label : String → List (String × Json) → Option (Option String) :=
  optional (.optional .text) none

/-- An event from its kind and its payload. -/
def ofParts? (kind : String) (payload : List (String × Json)) : Option Event :=
  match kind with
  | "source_file" => do return .sourceFile (← required .text "path" payload)
  | "test_case_start" => do
    return .caseStart (← required .text "description" payload) (← label "sourceFile" payload)
  | "test_case_result" => do
    let status ← (Json.get? "status" payload).bind Status.ofJson?
    return .caseResult (← required .text "description" payload) status
      (← label "reason" payload) (← label "sourceFile" payload)
  | "summary" => do
    return .summary (← required .natural "passed" payload) (← required .natural "failed" payload)
      (← optional (.list .text) [] "failedTests" payload)
  | _ => none

/-- The kind of an event from a value: a text, or an object with the text as its one key
and null under it. -/
def kindOf? : Json → Option String
  | .string s => some s
  | .object [(s, .null)] => some s
  | _ => none

/-- An event from a value: an object or a list of its kind and its payload. -/
def ofJson? : Json → Option Event
  | .object fields => do
    let kind ← (Json.get? "type" fields).bind kindOf?
    let .object payload ← Json.get? "payload" fields | none
    ofParts? kind payload
  | .array [kind, .object payload] => do ofParts? (← kindOf? kind) payload
  | _ => none

/-- An event from a line, if it is the line of one. -/
def ofLine? (line : String) : Option Event := do
  let s ← Structured.decode line
  ofParts? s.kind s.payload

end Event
end UiSuite.Report
