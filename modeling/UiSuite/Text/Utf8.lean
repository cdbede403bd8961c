/-! Bytes as text.

A byte string is cut into characters and faults: a fault is the longest run of
bytes that begins a character and cannot be continued, or the beginning that the
string breaks off in. `decode` refuses any fault and says where the first one
lies; `decodeLossy` puts U+FFFD in the place of each. -/
namespace UiSuite.Text.Utf8

/-- One cut of a byte string. -/
inductive Piece where
  /-- A well-formed character. -/
  | scalar (c : Char)
  /-- So many bytes that belong to no character. -/
  | broken (length : Nat)
  /-- The string ends inside a character. -/
  | truncated
deriving DecidableEq

/-- A character begun but not finished: how many bytes are read and how many are
wanted, the bits so far, and the range the next byte has to lie in. -/
structure Partial where
  seen : Nat
  wanted : Nat
  bits : Nat
  low : Nat
  high : Nat

/-- What a byte does at the place where a character may begin. -/
def lead (b : Nat) : List Piece × Option Partial :=
  if b < 0x80 then ([.scalar (Char.ofNat b)], none)
  else if 0xC2 ≤ b && b ≤ 0xDF then ([], some ⟨1, 1, b - 0xC0, 0x80, 0xBF⟩)
  else if b == 0xE0 then ([], some ⟨1, 2, 0, 0xA0, 0xBF⟩)
  else if b == 0xED then ([], some ⟨1, 2, 0xD, 0x80, 0x9F⟩)
  else if 0xE1 ≤ b && b ≤ 0xEF then ([], some ⟨1, 2, b - 0xE0, 0x80, 0xBF⟩)
  else if b == 0xF0 then ([], some ⟨1, 3, 0, 0x90, 0xBF⟩)
  else if 0xF1 ≤ b && b ≤ 0xF3 then ([], some ⟨1, 3, b - 0xF0, 0x80, 0xBF⟩)
  else if b == 0xF4 then ([], some ⟨1, 3, 4, 0x80, 0x8F⟩)
  else ([.broken 1], none)

/-- What a byte does after the bytes of a begun character. -/
def advance (p : Partial) (b : Nat) : List Piece × Option Partial :=
  if p.low ≤ b && b ≤ p.high then
    let bits := p.bits * 64 + (b - 0x80)
    if p.wanted ≤ 1 then ([.scalar (Char.ofNat bits)], none)
    else ([], some ⟨p.seen + 1, p.wanted - 1, bits, 0x80, 0xBF⟩)
  else
    let (ps, rest) := lead b
    (.broken p.seen :: ps, rest)

/-- One byte more: the pieces so far, latest first, and the begun character. -/
def step (s : List Piece × Option Partial) (b : UInt8) : List Piece × Option Partial :=
  let (ps, rest) := match s.2 with
    | none => lead b.toNat
    | some p => advance p b.toNat
  (ps.reverse ++ s.1, rest)

/-- All cuts of a byte string, in order. -/
def pieces (bytes : List UInt8) : List Piece :=
  let (ps, rest) := bytes.foldl step ([], none)
  match rest with
  | none => ps.reverse
  | some _ => (.truncated :: ps).reverse

/-- Where a byte string stops being text, and how long the fault is if it is not
just cut short. -/
structure Fault where
  index : Nat
  length : Option Nat
deriving DecidableEq

namespace Fault

def message (f : Fault) : String :=
  match f.length with
  | some n => "invalid utf-8 sequence of " ++ toString n ++ " bytes from index " ++ toString f.index
  | none => "incomplete utf-8 byte sequence from index " ++ toString f.index

end Fault

/-- The characters up to the first fault. -/
def collect (index : Nat) (acc : List Char) : List Piece → Except Fault String
  | [] => .ok (String.ofList acc.reverse)
  | .scalar c :: ps => collect (index + c.utf8Size) (c :: acc) ps
  | .broken n :: _ => .error ⟨index, some n⟩
  | .truncated :: _ => .error ⟨index, none⟩

/-- The text of well-formed bytes. -/
def decode (bytes : List UInt8) : Except Fault String :=
  collect 0 [] (pieces bytes)

/-- The text of any bytes, with U+FFFD for each fault. -/
def decodeLossy (bytes : List UInt8) : String :=
  String.ofList <| (pieces bytes).map fun
    | .scalar c => c
    | _ => Char.ofNat 0xFFFD

/-- The bytes of a text. -/
def encode (s : String) : List UInt8 :=
  s.toList.flatMap String.utf8EncodeChar

end UiSuite.Text.Utf8
