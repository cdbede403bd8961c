import UiSuite.Queue.Http
import UiSuite.Interactive.Address
import UiSuite.Interactive.Fetch
import UiSuite.Decimal.Reading

/-! Requests and responses on the wire.

A message is a head and a body with an empty line between them. The first line of the head
says what is asked or how it went, and the other lines are headers. A connection carries
one request and its response, so a response ends with the connection; the body of a
request is as long as its header says. -/
namespace UiSuite.Queue.Wire

/-- A message: its first line, its headers, and the octets after the head. -/
structure Message where
  first : List Char
  headers : List (String × String)
  rest : List UInt8

/-- The octets of a head, and those after the empty line that ends it. -/
def splitHead : List UInt8 → Option (List UInt8 × List UInt8)
  | 0x0D :: 0x0A :: 0x0D :: 0x0A :: rest => some ([], rest)
  | b :: rest => (splitHead rest).map fun (head, rest) => (b :: head, rest)
  | [] => none

/-- The name and the value of a header. -/
def headerOf? (line : List Char) : Option (String × String) :=
  (Text.splitFirst ':' line).map fun (name, value) =>
    (String.ofList name, String.ofList (Text.trim value))

/-- The message that octets begin with, once its head is there. -/
def Message.ofOctets? (octets : List UInt8) : Option Message := do
  let (head, rest) ← splitHead octets
  match (Text.pieces '\n' (Text.Utf8.decodeLossy head).toList).map Text.trimEnd with
  | first :: lines => return ⟨first, lines.filterMap headerOf?, rest⟩
  | [] => none

/-! ### Serving -/

/-- The request that octets are, once all of it is there. -/
def request? (octets : List UInt8) : Option Request := do
  let m ← Message.ofOctets? octets
  match Text.pieces ' ' m.first with
  | [method, path, _] =>
    let r : Request := ⟨String.ofList method, String.ofList path, m.headers, m.rest⟩
    let length := ((r.header "content-length").bind fun value =>
      Decimal.natural? (UInt64.size - 1) value.toList).getD 0
    if m.rest.length < length then none else return { r with body := m.rest.take length }
  | _ => none

/-- A status in words. -/
def reason (status : Nat) : String :=
  match status with
  | 200 => "OK"
  | 201 => "Created"
  | 204 => "No Content"
  | 400 => "Bad Request"
  | 404 => "Not Found"
  | 405 => "Method Not Allowed"
  | 413 => "Payload Too Large"
  | _ => "Unknown"

/-- The headers of a response; any page may read it. -/
def headersOf (r : Response) : List (String × String) :=
  [("access-control-allow-origin", "*"), ("connection", "close"),
    ("content-length", toString r.body.utf8ByteSize)] ++
  (r.contentType.map (("content-type", ·))).toList ++
  (r.allow.map (("allow", ·))).toList

/-- The octets of a head. -/
def head (first : String) (headers : List (String × String)) : List UInt8 :=
  Text.Utf8.encode (String.join ((first :: headers.map fun h => h.1 ++ ": " ++ h.2).map
    (· ++ "\r\n")) ++ "\r\n")

/-- The octets of a response. -/
def response (r : Response) : List UInt8 :=
  head ("HTTP/1.1 " ++ toString r.status ++ " " ++ reason r.status) (headersOf r) ++
    Text.Utf8.encode r.body

/-! ### Asking -/

/-- The octets that ask for what stands at an address. -/
def ask (a : Address) : List UInt8 :=
  head ("GET " ++ a.place ++ " HTTP/1.0") [
    ("host", a.host ++ ":" ++ toString a.port), ("user-agent", Endpoint.agent), ("accept", "*/*")]

/-- The answer that the octets of a whole connection are. -/
def answer? (octets : List UInt8) : Option Answer := do
  let m ← Message.ofOctets? octets
  match Text.pieces ' ' m.first with
  | _ :: status :: _ => return ⟨← Decimal.natural? 999 status, m.rest⟩
  | _ => none

end UiSuite.Queue.Wire
