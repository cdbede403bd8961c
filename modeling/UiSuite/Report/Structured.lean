import UiSuite.Json.Printer
import UiSuite.Json.Draft
import UiSuite.Text.Blank
import UiSuite.Text.Search

/-! Structured lines.

A structured line is a mark and a JSON object with a kind and a payload, so a program
that reads a run's output can pick the events out of it. A line that is anything else is
simply not structured. -/
namespace UiSuite.Report

/-- What structured lines begin with. -/
def mark : String := "@@UIDSL_EVENT@@"

/-- A kind and a payload, which is an object. -/
structure Structured where
  kind : String
  payload : List (String × Json)
deriving DecidableEq

namespace Structured

/-- The line of a kind and a payload. -/
def encode (kind : String) (payload : Json) : String :=
  mark ++ (Json.ofFields [("type", .string kind), ("payload", payload)]).render

/-- The kind and the payload of a value, if it has both. -/
def ofJson? : Json → Option Structured
  | .object fields =>
    match Json.get? "type" fields, Json.get? "payload" fields with
    | some (.string kind), some (.object payload) => some ⟨kind, payload⟩
    | _, _ => none
  | _ => none

/-- Reads a line, if it is structured. -/
def decode (line : String) : Option Structured := do
  let rest ← Text.dropBeginning mark.toList line.toList
  ofJson? (← Json.parse? (String.ofList (Text.trim rest)))

def toJson (s : Structured) : Json :=
  .ofFields [("kind", .string s.kind), ("payload", .object s.payload)]

end Structured
end UiSuite.Report
