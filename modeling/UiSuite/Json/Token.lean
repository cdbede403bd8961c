import UiSuite.Json.Numeral
import UiSuite.Text.Digit
import UiSuite.Text.Utf8

/-! Tokens of JSON texts.

A text is read one character at a time: `Scan.step` is what one character does, and
`tokens` folds it over the text. Reading never fails; where the text stops making
sense the tokens end in `malformed`. A string whose escapes name half a character, and
a number beyond every number, are tokens without a value: whether that matters depends
on whether anyone asks for the value. So is a string with octets in it that are no
characters. -/
namespace UiSuite.Json

inductive Token where
  | openArray
  | closeArray
  | openObject
  | closeObject
  | comma
  | colon
  | null
  | bool (value : Bool)
  | number (value : Option Number)
  | string (value : Option String)
  | malformed
deriving DecidableEq

/-! ### Strings under way -/

/-- A string under way: what stands in it so far, last character first; whether it is a
text at all; and the first half of a pair whose second half is due. -/
structure Partial where
  reversed : List Char
  sound : Bool
  high : Option Nat

namespace Partial

def empty : Partial := ⟨[], true, none⟩

/-- A character that stands for itself. -/
def put (c : Char) (s : Partial) : Partial :=
  ⟨c :: s.reversed, s.sound && s.high.isNone, none⟩

/-- A code given by four digits: a character, or half of a pair. -/
def putCode (code : Nat) (s : Partial) : Partial :=
  let isLow := 0xDC00 ≤ code && code ≤ 0xDFFF
  match s.high with
  | some high =>
    if isLow then
      ⟨Char.ofNat (0x10000 + (high - 0xD800) * 0x400 + (code - 0xDC00)) :: s.reversed,
        s.sound, none⟩
    else ⟨s.reversed, false, none⟩
  | none =>
    if 0xD800 ≤ code && code ≤ 0xDBFF then ⟨s.reversed, s.sound, some code⟩
    else if isLow then ⟨s.reversed, false, none⟩
    else s.put (Char.ofNat code)

/-- The string, if it is a text. -/
def close (s : Partial) : Option String :=
  if s.sound && s.high.isNone then some (String.ofList s.reversed.reverse) else none

end Partial

/-- The character behind a short escape. -/
def shortEscape (c : Char) : Option Char :=
  if c = '"' || c = '\\' || c = '/' then some c
  else if c = 'b' then some '\x08'
  else if c = 'f' then some '\x0C'
  else if c = 'n' then some '\n'
  else if c = 'r' then some '\r'
  else if c = 't' then some '\t'
  else none

/-! ### Scanning -/

/-- Where in a token the reading stands. -/
inductive Mode where
  | between
  | string (s : Partial)
  | escape (s : Partial)
  | code (s : Partial) (digits value : Nat)
  | numeral (reversed : List Char) (place : Numeral.Place)
  | word (rest : List Char) (token : Token)
  | stopped

/-- Tokens read so far, last one first, and where the reading stands. -/
structure Scan where
  reversed : List Token
  mode : Mode

namespace Scan

def start : Scan := ⟨[], .between⟩

def emit (t : Token) (s : Scan) : Scan := ⟨t :: s.reversed, .between⟩

def fail (s : Scan) : Scan := ⟨.malformed :: s.reversed, .stopped⟩

/-- The blanks between tokens. -/
def isSpace (c : Char) : Bool :=
  c == ' ' || c == '\t' || c == '\n' || c == '\r'

/-- A character between tokens. -/
def between (s : Scan) (c : Char) : Scan :=
  if isSpace c then s
  else if c = '[' then s.emit .openArray
  else if c = ']' then s.emit .closeArray
  else if c = '\x7b' then s.emit .openObject
  else if c = '\x7d' then s.emit .closeObject
  else if c = ',' then s.emit .comma
  else if c = ':' then s.emit .colon
  else if c = '"' then { s with mode := .string .empty }
  else if c = 'n' then { s with mode := .word ['u', 'l', 'l'] .null }
  else if c = 't' then { s with mode := .word ['r', 'u', 'e'] (.bool true) }
  else if c = 'f' then { s with mode := .word ['a', 'l', 's', 'e'] (.bool false) }
  else match Numeral.Place.first c with
    | some place => { s with mode := .numeral [c] place }
    | none => s.fail

/-- A numeral ends where its characters end. -/
def endNumeral (s : Scan) (reversed : List Char) : Scan :=
  s.emit (.number (Numeral.value reversed.reverse))

/-- What one character does. -/
def step (s : Scan) (c : Char) : Scan :=
  match s.mode with
  | .between => s.between c
  | .string p =>
    if c = '"' then s.emit (.string p.close)
    else if c = '\\' then { s with mode := .escape p }
    else if c.toNat < 0x20 then s.fail
    else { s with mode := .string (p.put c) }
  | .escape p =>
    if c = 'u' then { s with mode := .code p 0 0 }
    else match shortEscape c with
      | some e => { s with mode := .string (p.put e) }
      | none => s.fail
  | .code p digits value =>
    match Text.hexDigit? c with
    | none => s.fail
    | some d =>
      if digits = 3 then { s with mode := .string (p.putCode (16 * value + d)) }
      else { s with mode := .code p (digits + 1) (16 * value + d) }
  | .numeral reversed place =>
    match place.next c with
    | some place => { s with mode := .numeral (c :: reversed) place }
    | none => if place.endsBefore c then (s.endNumeral reversed).between c else s.fail
  | .word [] token => (s.emit token).between c
  | .word [d] token => if c = d then s.emit token else s.fail
  | .word (d :: rest) token =>
    if c = d then { s with mode := .word rest token } else s.fail
  | .stopped => s

/-- What octets do that are no character: a string that holds them has no value, and nothing
else holds them. -/
def fault (s : Scan) : Scan :=
  match s.mode with
  | .string p => { s with mode := .string { p with sound := false } }
  | .numeral reversed place => if place.isEnd then (s.endNumeral reversed).fail else s.fail
  | .word [] token => (s.emit token).fail
  | .stopped => s
  | .between | .escape _ | .code .. | .word .. => s.fail

/-- What a cut of octets does. -/
def stepPiece (s : Scan) : Text.Utf8.Piece → Scan
  | .scalar c => s.step c
  | .broken _ | .truncated => s.fault

/-- The tokens when the text ends here. -/
def finish (s : Scan) : List Token :=
  match s.mode with
  | .between | .stopped => s.reversed.reverse
  | .numeral reversed place =>
    if place.isEnd then (s.endNumeral reversed).reversed.reverse else s.fail.reversed.reverse
  | .word [] token => (s.emit token).reversed.reverse
  | .string _ | .escape _ | .code .. | .word .. => s.fail.reversed.reverse

end Scan

/-- The tokens of a text. -/
def tokens (cs : List Char) : List Token :=
  (cs.foldl Scan.step .start).finish

/-- The tokens of octets. -/
def tokensOfOctets (bytes : List UInt8) : List Token :=
  ((Text.Utf8.pieces bytes).foldl Scan.stepPiece .start).finish

end UiSuite.Json
