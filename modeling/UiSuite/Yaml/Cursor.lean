/-! Places in a YAML text.

A cursor is what is left of a text, and where it stands: how many characters in, on
which line and in which column. Indentation, the reach of a key and the markers between
documents depend on that. A carriage return with a line feed is one break. -/
namespace UiSuite.Yaml

/-! ### Characters -/

/-- The characters a text may hold. -/
def isAllowed (c : Char) : Bool :=
  let n := c.toNat
  n == 0x09 || n == 0x0A || n == 0x0D || (0x20 ≤ n && n ≤ 0x7E) || n == 0x85 ||
    (0xA0 ≤ n && n ≤ 0xD7FF) || (0xE000 ≤ n && n ≤ 0xFFFD) || 0x10000 ≤ n

def isBlank (c : Char) : Bool :=
  c == ' ' || c == '\t'

/-- Line breaks: line feed, carriage return, next line, and the two separators. -/
def isBreak (c : Char) : Bool :=
  let n := c.toNat
  n == 0x0A || n == 0x0D || n == 0x85 || n == 0x2028 || n == 0x2029

/-- The characters of names. -/
def isWord (c : Char) : Bool :=
  c.isAlphanum || c == '_' || c == '-'

/-- What a break counts as in a scalar: a line feed, or one of the separators. -/
def breakChar (c : Char) : Char :=
  if c.toNat = 0x2028 || c.toNat = 0x2029 then c else '\n'

/-! ### Cursors -/

structure Cursor where
  rest : List Char
  index : Nat
  line : Nat
  column : Nat

namespace Cursor

def start (cs : List Char) : Cursor := ⟨cs, 0, 0, 0⟩

/-- Whether the text ends, or a character of a kind comes next. -/
def endOr (p : Char → Bool) (cs : List Char) : Bool :=
  match cs with
  | [] => true
  | c :: _ => p c

/-- Whether a blank, a break or the end comes next. -/
def atGap (cs : List Char) : Bool :=
  endOr (fun c => isBlank c || isBreak c) cs

/-- Whether a break or the end comes next. -/
def atLineEnd (c : Cursor) : Bool :=
  endOr isBreak c.rest

/-- Whether a character comes next. -/
def sees (c : Cursor) (d : Char) : Bool :=
  c.rest.head? == some d

/-- Past one character that is no break. -/
def advance (c : Cursor) : Cursor :=
  ⟨c.rest.tail, c.index + 1, c.line, c.column + 1⟩

/-- Past some characters that are no breaks. -/
def advanceBy (n : Nat) (c : Cursor) : Cursor :=
  ⟨c.rest.drop n, c.index + n, c.line, c.column + n⟩

/-- Past a break. -/
def nextLine (c : Cursor) : Cursor :=
  match c.rest with
  | '\r' :: '\n' :: rest => ⟨rest, c.index + 2, c.line + 1, 0⟩
  | _ :: rest => ⟨rest, c.index + 1, c.line + 1, 0⟩
  | [] => c

/-- The longest run of characters of a kind that holds no break, and the place after
it. -/
def run (p : Char → Bool) (c : Cursor) : List Char × Cursor :=
  let cs := c.rest.takeWhile p
  (cs, c.advanceBy cs.length)

/-- Past a run. -/
def skip (p : Char → Bool) (c : Cursor) : Cursor :=
  (c.run p).2

/-- Past one given character. -/
def expect (d : Char) (c : Cursor) : Option Cursor :=
  if c.sees d then some c.advance else none

/-- The rest of a line that holds blanks and a comment only, with its break. -/
def restOfLine (c : Cursor) : Option Cursor :=
  let c := c.skip isBlank
  let c := if c.sees '#' then c.skip (!isBreak ·) else c
  if c.atLineEnd then some c.nextLine else none

/-- Whether a marker between documents stands here, given by its character. -/
def atMarker (d : Char) (c : Cursor) : Bool :=
  c.column == 0 &&
    match c.rest with
    | x :: y :: z :: rest => x == d && y == d && z == d && atGap rest
    | _ => false

/-- Whether either marker between documents stands here. -/
def atDocumentMarker (c : Cursor) : Bool :=
  c.atMarker '-' || c.atMarker '.'

end Cursor
end UiSuite.Yaml
