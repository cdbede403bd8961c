import UiSuite.Text.Digit
import UiSuite.Text.Search
import UiSuite.Decimal.Reading

/-! Addresses of servers.

An address is `http`, a host with a port if it is not the usual one, and the place that is
asked for: a path with its query. A user and a fragment may be written with it and are not
part of it. A place has one spelling: its path goes straight down, and characters that do not
belong there are written as octets. -/
namespace UiSuite

structure Address where
  host : String
  port : Nat
  place : String
deriving DecidableEq

namespace Address

/-- Slashes lean to either side. -/
def isSlash (c : Char) : Bool :=
  c == '/' || c == '\\'

/-- What counts of a text: no blanks or controls at its ends, and no line breaks or tabs. -/
def relevant (text : String) : List Char :=
  let isEdge (c : Char) : Bool := c ≤ ' '
  let inner := ((text.toList.dropWhile isEdge).reverse.dropWhile isEdge).reverse
  inner.filter fun c => !"\t\r\n".toList.contains c

/-! ### Hosts -/

/-- The port of a server that names none. -/
def usualPort : Nat := 80

/-- The port that is named after a host. -/
def port? : List Char → Option Nat
  | [] | [':'] => some usualPort
  | ':' :: digits =>
    if digits.all Char.isDigit then Decimal.natural? (UInt16.size - 1) digits else none
  | _ => none

/-- Whether a name may be that of a host. -/
def isHostName (name : List Char) : Bool :=
  !name.isEmpty && name.all fun c => ' ' < c && c != '\x7F' && !"#%/:<>?@[\\]^|".toList.contains c

/-- Whether what stands in brackets may be a host: colons divide it. -/
def isHostNumber (number : List Char) : Bool :=
  !number.isEmpty && number.all fun c => (Text.hexDigit? c).isSome || c == ':' || c == '.'

/-- A host and its port. -/
def hostAndPort? : List Char → Option (String × Nat)
  | '[' :: cs =>
    match Text.splitFirst ']' cs with
    | some (number, rest) =>
      if isHostNumber number then
        (port? rest).map fun port => (String.ofList ('[' :: number ++ [']']), port)
      else none
    | none => none
  | cs =>
    let name := cs.takeWhile (· != ':')
    if isHostName name then
      (port? (cs.drop name.length)).map fun port => (String.ofList name, port)
    else none

/-! ### Places -/

/-- The marks that do not stand in a path. -/
def pathMarks : String := "\"#<>?^\x60\x7b\x7d"

/-- The marks that do not stand in a query. -/
def queryMarks : String := "\"#\x27<>"

/-- Whether a character stands for itself where certain marks do not. -/
def isPlain (marks : String) (c : Char) : Bool :=
  '!' ≤ c && c ≤ '~' && !marks.toList.contains c

/-- An octet in two digits. -/
def escape (b : UInt8) : List Char :=
  ['%', (Nat.digitChar (b.toNat / 16)).toUpper, (Nat.digitChar (b.toNat % 16)).toUpper]

/-- A character, or its octets where it does not stand for itself. -/
def escapeChar (marks : String) (c : Char) : List Char :=
  if isPlain marks c then [c] else (String.utf8EncodeChar c).flatMap escape

/-- A text as it is written where certain marks do not stand. -/
def spell (marks : String) (cs : List Char) : List Char :=
  cs.flatMap (escapeChar marks)

/-- How many dots a segment is, if it is nothing but dots. -/
def dots? : List Char → Option Nat
  | [] => some 0
  | '.' :: cs => (dots? cs).map (· + 1)
  | '%' :: '2' :: e :: cs => if e = 'e' ∨ e = 'E' then (dots? cs).map (· + 1) else none
  | _ => none

/-- The segments of a path, after those that are above and the last one first. One dot stays
and two go up, and where a path ends with them its last segment is empty. -/
def descend (above : List (List Char)) : List (List Char) → List (List Char)
  | [] => above
  | segment :: rest =>
    match dots? segment with
    | some 1 => if rest.isEmpty then [] :: above else descend above rest
    | some 2 => if rest.isEmpty then [] :: above.tail else descend above.tail rest
    | _ => descend (segment :: above) rest

/-- The segments of a path that goes straight down; the root has an empty one. -/
def segmentsOf (cs : List Char) : List (List Char) :=
  let cs := cs.map fun c => if isSlash c then '/' else c
  (descend [] (Text.pieces '/' (cs.drop 1))).reverse

/-- A path as it is asked for. -/
def pathOf (cs : List Char) : List Char :=
  (segmentsOf cs).flatMap fun segment => '/' :: spell pathMarks segment

/-- The place in what follows an authority. -/
def placeOf (cs : List Char) : String :=
  let cs := cs.takeWhile (· != '#')
  String.ofList (pathOf (cs.takeWhile (· != '?')) ++ spell queryMarks (cs.dropWhile (· != '?')))

/-! ### Texts -/

/-- Whether an authority goes on with a character. -/
def isOfAuthority (c : Char) : Bool :=
  !isSlash c && c != '?' && c != '#'

/-- An authority without its user. -/
def withoutUser (authority : List Char) : List Char :=
  (authority.reverse.takeWhile (· != '@')).reverse

/-- The address of a text, if it is one. -/
def ofText? (text : String) : Option Address :=
  match Text.splitFirst ':' (relevant text) with
  | some (scheme, rest) =>
    if Text.equalFold (String.ofList scheme) "http" then
      let rest := rest.dropWhile isSlash
      (hostAndPort? (withoutUser (rest.takeWhile isOfAuthority))).map fun (host, port) =>
        ⟨host, port, placeOf (rest.dropWhile isOfAuthority)⟩
    else none
  | none => none

end Address
end UiSuite
