import UiSuite.Yaml.Scalar
import UiSuite.Yaml.Mark

/-! The tokens of a YAML text.

Whether a token is a key shows only at the colon after it, so the place of every token
that may turn out to be a key is kept while the colon can still come: on the same line
and within 1024 characters. A token in the column of its block mapping must be a key.
The indentation opens and closes block collections; in flow collections it does not
count. -/
namespace UiSuite.Yaml

/-- A token that may be a key: how many tokens stand before it, where it is, and whether
it must be one. -/
structure Candidate where
  place : Nat
  index : Nat
  line : Nat
  column : Nat
  required : Bool

/-- A text partly read: the tokens, last one first; the column of the innermost block
collection and those around it; the candidate of the innermost flow collection and those
around it; and whether a candidate may come next. -/
structure Layout where
  cursor : Cursor
  reversed : List Token
  indent : Int
  outerIndents : List Int
  candidate : Option Candidate
  outerCandidates : List (Option Candidate)
  mayBeKey : Bool

namespace Layout

def start (cs : List Char) : Layout :=
  ⟨.start cs, [], -1, [], none, [], true⟩

/-- Whether a flow collection is open. -/
def inFlow (s : Layout) : Bool := !s.outerCandidates.isEmpty

def emit (t : Token) (s : Layout) : Layout :=
  { s with reversed := t :: s.reversed }

/-- Puts a token at a place among the tokens. -/
def insertAt (place : Nat) (t : Token) (s : Layout) : Layout :=
  let later := s.reversed.length - place
  { s with reversed := s.reversed.take later ++ t :: s.reversed.drop later }

/-! ### Indentation -/

/-- Opens a block collection at a column, if that is deeper. -/
def indentTo (column : Nat) (place : Nat) (t : Token) (s : Layout) : Layout :=
  if s.inFlow || (column : Int) ≤ s.indent then s
  else
    { s.insertAt place t with
      indent := column
      outerIndents := s.indent :: s.outerIndents }

/-- Closes the block collections that are deeper than a column. -/
def closeTo (column : Int) : Int → List Int → List Token → Int × List Int × List Token
  | indent, [], ts => (indent, [], ts)
  | indent, outer :: rest, ts =>
    if column < indent then closeTo column outer rest (.blockEnd :: ts)
    else (indent, outer :: rest, ts)

def dedentTo (column : Int) (s : Layout) : Layout :=
  if s.inFlow then s
  else
    let (indent, outer, reversed) := closeTo column s.indent s.outerIndents s.reversed
    { s with indent := indent, outerIndents := outer, reversed := reversed }

/-! ### Candidates -/

/-- Gives a candidate up; none when it must be a key. -/
def giveUp : Option Candidate → Option Unit
  | some k => if k.required then none else some ()
  | none => some ()

/-- No candidate in the innermost collection. -/
def dropCandidate (s : Layout) : Option Layout := do
  giveUp s.candidate
  return { s with candidate := none }

/-- A candidate that can still be a key at a place. -/
def keep (c : Cursor) : Option Candidate → Option (Option Candidate)
  | none => some none
  | some k =>
    if k.line < c.line || k.index + 1024 < c.index then
      if k.required then none else some none
    else some (some k)

/-- Only the candidates that can still be keys. -/
def dropStale (s : Layout) : Option Layout := do
  let outer ← s.outerCandidates.mapM (keep s.cursor)
  let candidate ← keep s.cursor s.candidate
  return { s with candidate := candidate, outerCandidates := outer }

/-- The token that comes next may be a key, if one may come here. -/
def saveCandidate (s : Layout) : Option Layout :=
  if s.mayBeKey then do
    giveUp s.candidate
    let c := s.cursor
    let required := !s.inFlow && s.indent == (c.column : Int)
    return { s with candidate := some ⟨s.reversed.length, c.index, c.line, c.column, required⟩ }
  else some s

/-! ### Between tokens -/

/-- Past blanks, comments and breaks. -/
def toNext : Nat → Layout → Layout
  | 0, s => s
  | n + 1, s =>
    let c := s.cursor
    let c := if c.column == 0 && c.sees '\uFEFF' then c.advance else c
    let c := c.skip fun d => d == ' ' || ((s.inFlow || !s.mayBeKey) && d == '\t')
    let c := if c.sees '#' then c.skip (!isBreak ·) else c
    if c.rest.head?.any isBreak then
      toNext n { s with cursor := c.nextLine, mayBeKey := s.mayBeKey || !s.inFlow }
    else { s with cursor := c }

/-! ### Tokens -/

/-- A token of so many characters. -/
def take (n : Nat) (t : Token) (s : Layout) : Layout :=
  { s.emit t with cursor := s.cursor.advanceBy n }

/-- Between documents everything is closed. -/
def closeAll (s : Layout) : Option Layout := do
  let s ← (s.dedentTo (-1)).dropCandidate
  return { s with mayBeKey := false }

def openFlow (t : Token) (s : Layout) : Option Layout := do
  let s ← s.saveCandidate
  let s := s.take 1 t
  return { s with
    candidate := none
    outerCandidates := s.candidate :: s.outerCandidates
    mayBeKey := true }

def closeFlow (t : Token) (s : Layout) : Option Layout := do
  let s ← s.dropCandidate
  let s := { s.take 1 t with mayBeKey := false }
  match s.outerCandidates with
  | [] => return s
  | k :: rest => return { s with candidate := k, outerCandidates := rest }

def flowEntry (s : Layout) : Option Layout := do
  let s ← s.dropCandidate
  return { s.take 1 .flowEntry with mayBeKey := true }

/-- A mark that opens a block collection of its own where it may. -/
def openBlock (t : Token) (s : Layout) : Option Layout :=
  if s.inFlow then some s
  else if s.mayBeKey then some (s.indentTo s.cursor.column s.reversed.length t)
  else none

def blockEntry (s : Layout) : Option Layout := do
  let s ← (← s.openBlock .blockSequence).dropCandidate
  return { s.take 1 .blockEntry with mayBeKey := true }

def key (s : Layout) : Option Layout := do
  let s ← (← s.openBlock .blockMapping).dropCandidate
  return { s.take 1 .key with mayBeKey := !s.inFlow }

def value (s : Layout) : Option Layout :=
  match s.candidate with
  | some k =>
    let s := (s.insertAt k.place .key).indentTo k.column k.place .blockMapping
    some { s.take 1 .value with candidate := none, mayBeKey := false }
  | none => do
    let s ← s.openBlock .blockMapping
    return { s.take 1 .value with mayBeKey := !s.inFlow }

/-- A token that is read in one piece and may be a key. -/
def piece (read : Cursor → Option (Token × Cursor)) (s : Layout) : Option Layout := do
  let s ← s.saveCandidate
  let (t, c) ← read s.cursor
  return { s.emit t with cursor := c, mayBeKey := false }

def plainScalar (s : Layout) : Option Layout := do
  let s ← s.saveCandidate
  let (text, c, broken) ← plain s.inFlow s.indent s.cursor
  return { s.emit (.scalar true text) with cursor := c, mayBeKey := broken }

def blockScalar (folded : Bool) (s : Layout) : Option Layout := do
  let s ← s.dropCandidate
  let (text, c) ← block folded s.indent s.cursor
  return { s.emit (.scalar false text) with cursor := c, mayBeKey := true }

def quotedScalar (single : Bool) : Layout → Option Layout :=
  piece fun c => (quoted single c).map fun (text, c) => (.scalar false text, c)

/-- The characters no plain scalar begins with. -/
def indicators : List Char :=
  "-?:,[]\x7b\x7d#&*!|>'\"%@`".toList

/-- Whether a plain scalar begins here. -/
def beginsPlain (inFlow : Bool) (d : Char) (rest : List Char) : Bool :=
  !(isBlank d || indicators.contains d) || (d == '-' && !rest.head?.any isBlank) ||
    (!inFlow && (d == '?' || d == ':') && !Cursor.atGap rest)

/-- The token that begins with a character. -/
def nextToken (d : Char) (rest : List Char) (s : Layout) : Option Layout :=
  let c := s.cursor
  let gap := Cursor.atGap rest
  if c.column == 0 && d == '%' then do
    let s ← s.closeAll
    let (t, c) ← directive c
    return { s.emit t with cursor := c }
  else if c.atMarker '-' then do return (← s.closeAll).take 3 .documentStart
  else if c.atMarker '.' then do return (← s.closeAll).take 3 .documentEnd
  else if d == '[' then s.openFlow .flowSequence
  else if d == '\x7b' then s.openFlow .flowMapping
  else if d == ']' then s.closeFlow .flowSequenceEnd
  else if d == '\x7d' then s.closeFlow .flowMappingEnd
  else if d == ',' then s.flowEntry
  else if d == '-' && gap then s.blockEntry
  else if d == '?' && (s.inFlow || gap) then s.key
  else if d == ':' && (s.inFlow || gap) then s.value
  else if d == '*' then
    s.piece fun c => (anchorName c.advance).map fun (name, c) => (.reference name, c)
  else if d == '&' then
    s.piece fun c => (anchorName c.advance).map fun (name, c) => (.anchor name, c)
  else if d == '!' then
    s.piece fun c => do
      let (handle, suffix, after) ← tag c
      if Cursor.atGap after.rest || (s.inFlow && after.sees ',') then
        return (.tag handle suffix, after)
      else none
  else if d == '|' && !s.inFlow then s.blockScalar false
  else if d == '>' && !s.inFlow then s.blockScalar true
  else if d == '\'' then s.quotedScalar true
  else if d == '"' then s.quotedScalar false
  else if beginsPlain s.inFlow d rest then s.plainScalar
  else none

/-- The end of the text, where every candidate must be given up. -/
def atEnd (s : Layout) : Option (List Token) := do
  let s ← s.closeAll
  return (s.emit .streamEnd).reversed.reverse

/-- The tokens from here on. -/
def run : Nat → Layout → Option (List Token)
  | 0, _ => none
  | n + 1, s => do
    let s ← (s.toNext (s.cursor.rest.length + 1)).dropStale
    let s := s.dedentTo s.cursor.column
    match s.cursor.rest with
    | [] => s.atEnd
    | d :: rest => run n (← s.nextToken d rest)

end Layout

/-- The tokens of a text; none when it is not laid out as one. -/
def tokens (cs : List Char) : Option (List Token) :=
  if cs.all isAllowed then (Layout.start cs).run (cs.length + 1) else none

end UiSuite.Yaml
