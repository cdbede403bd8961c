import UiSuite.Text.Digit
import UiSuite.Text.Search
import UiSuite.Text.Utf8
import UiSuite.Text.Blank

/-! Requests, responses and forms.

The names of headers have no case, and a header counts only where its value is printable
ASCII. A form is pairs of names and values; an escape that is none stands as it is. -/
namespace UiSuite.Queue

structure Request where
  method : String
  path : String
  headers : List (String × String)
  body : List UInt8

structure Response where
  status : Nat
  contentType : Option String
  allow : Option String
  body : String
deriving DecidableEq

namespace Response

def empty (status : Nat) : Response :=
  ⟨status, none, none, ""⟩

def text (status : Nat) (body : String) : Response :=
  ⟨status, some "text/plain; charset=utf-8", none, body⟩

def json (body : String) : Response :=
  ⟨200, some "application/json", none, body⟩

def html (body : String) : Response :=
  ⟨200, some "text/html; charset=utf-8", none, body⟩

/-- The answer to a method that a path does not have. -/
def wrongMethod (allow : String) : Response :=
  ⟨405, none, some allow, ""⟩

@[simp] theorem status_empty (status : Nat) : (empty status).status = status := rfl

@[simp] theorem status_text (status : Nat) (body : String) : (text status body).status = status :=
  rfl

@[simp] theorem body_text (status : Nat) (body : String) : (text status body).body = body := rfl

end Response

/-! ### Headers -/

/-- Whether a header's value is printable ASCII, tabs included. -/
def isPlainValue (value : String) : Bool :=
  value.toList.all fun c => c == '\t' || (0x20 ≤ c.toNat && c.toNat < 0x7F)

/-- The value of a header, if it counts. -/
def Request.header (r : Request) (name : String) : Option String :=
  ((r.headers.find? fun h => Text.equalFold h.1 name).map (·.2)).filter isPlainValue

/-- The path without a query. -/
def Request.place (r : Request) : List Char :=
  r.path.toList.takeWhile (· != '?')

/-- Whether the body of a request is a form. -/
def Request.isForm (r : Request) : Bool :=
  (r.header "content-type").any fun value =>
    Text.equalFold (Text.trimmed (String.ofList (value.toList.takeWhile (· != ';'))))
      "application/x-www-form-urlencoded"

/-! ### Forms -/

/-- The octet of two hexadecimal digits. -/
def escapedOctet? (x y : UInt8) : Option UInt8 :=
  (Text.valueIn? 16 [Char.ofNat x.toNat, Char.ofNat y.toNat]).map UInt8.ofNat

/-- The octets of a name or a value. -/
def unescape : List UInt8 → List UInt8
  | 0x25 :: x :: y :: rest =>
    match escapedOctet? x y with
    | some b => b :: unescape rest
    | none => 0x25 :: unescape (x :: y :: rest)
  | b :: rest => (if b = 0x2B then 0x20 else b) :: unescape rest
  | [] => []

/-- The parts of a form, between ampersands. -/
def formParts : List UInt8 → List (List UInt8)
  | [] => [[]]
  | b :: rest =>
    if b = 0x26 then [] :: formParts rest
    else match formParts rest with
      | [] => [[b]]
      | p :: ps => (b :: p) :: ps

/-- The name and the value of a part. -/
def formPair (part : List UInt8) : String × String :=
  let name := part.takeWhile (· != 0x3D)
  let value := part.drop (name.length + 1)
  (Text.Utf8.decodeLossy (unescape name), Text.Utf8.decodeLossy (unescape value))

/-- The names and values of a form. -/
def formPairs (body : List UInt8) : List (String × String) :=
  ((formParts body).filter (!·.isEmpty)).map formPair

end UiSuite.Queue
