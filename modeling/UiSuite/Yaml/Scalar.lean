import UiSuite.Text.Digit
import UiSuite.Yaml.Cursor

/-! The texts of YAML scalars.

A line break inside a flowing scalar is folded: one break counts as a space, further
ones stand for themselves, and the blanks around them do not count. Quoted and plain
scalars flow; a block scalar keeps its lines, and a folded block joins those that are
not indented further. -/
namespace UiSuite.Yaml

/-! ### Folding -/

/-- A flowing text and the blanks after it that are not part of it yet, last character
first: blanks on the line, the first break, and further breaks. -/
structure Flow where
  text : List Char
  blanks : List Char
  first : Option Char
  further : List Char
  broken : Bool

namespace Flow

def empty : Flow := ⟨[], [], none, [], false⟩

/-- A blank; at the beginning of a line it does not count. -/
def blank (c : Char) (f : Flow) : Flow :=
  if f.broken then f else { f with blanks := c :: f.blanks }

/-- A line break. -/
def lineBreak (c : Char) (f : Flow) : Flow :=
  if f.broken then { f with further := breakChar c :: f.further }
  else { f with blanks := [], first := some (breakChar c), broken := true }

/-- A break that is taken back. -/
def escapedBreak (f : Flow) : Flow :=
  { f with broken := true }

/-- The blanks become part of the text. -/
def join (f : Flow) : Flow :=
  if f.broken then
    match f.first with
    | some '\n' =>
      ⟨if f.further.isEmpty then ' ' :: f.text else f.further ++ f.text, [], none, [], false⟩
    | first => ⟨f.further ++ (first.toList ++ f.text), [], none, [], false⟩
  else ⟨f.blanks ++ f.text, [], none, [], false⟩

def put (c : Char) (f : Flow) : Flow :=
  { f with text := c :: f.text }

end Flow

/-- Blanks and breaks; `tabStop` is the column before which no tab may begin a line. -/
def takeBlanks (tabStop : Nat) : Nat → Cursor → Flow → Option (Cursor × Flow)
  | 0, c, f => some (c, f)
  | n + 1, c, f =>
    match c.rest with
    | [] => some (c, f)
    | d :: _ =>
      if isBlank d then
        if f.broken && c.column < tabStop && d == '\t' then none
        else takeBlanks tabStop n c.advance (f.blank d)
      else if isBreak d then takeBlanks tabStop n c.nextLine (f.lineBreak d)
      else some (c, f)

/-! ### Plain scalars -/

/-- Whether a plain scalar ends here; none where it may neither end nor go on. -/
def plainEnds (inFlow : Bool) (cs : List Char) : Option Bool :=
  match cs with
  | [] => some true
  | ':' :: rest =>
    if inFlow && rest.head?.any ",?[]\x7b\x7d".toList.contains then none
    else some (Cursor.atGap rest)
  | d :: _ => some (inFlow && ",[]\x7b\x7d".toList.contains d)

/-- The characters of a plain scalar. `fresh` says that a comment or a marker between
documents may stand here. -/
def plainFrom (inFlow : Bool) (indent : Int) :
    Nat → Bool → Cursor → Flow → Option (Cursor × Flow)
  | 0, _, c, f => some (c, f)
  | n + 1, fresh, c, f =>
    match c.rest with
    | [] => some (c, f)
    | d :: _ =>
      if fresh && (c.atDocumentMarker || d == '#') then some (c, f)
      else if isBlank d || isBreak d then do
        let (c, f) ← takeBlanks (indent + 1).toNat n c f
        if !inFlow && c.column < indent + 1 then return (c, f)
        else plainFrom inFlow indent n true c f
      else do
        if ← plainEnds inFlow c.rest then return (c, f)
        else plainFrom inFlow indent n false c.advance (f.join.put d)

/-- A plain scalar: its text, the place after it, and whether it ends with a line. -/
def plain (inFlow : Bool) (indent : Int) (c : Cursor) : Option (String × Cursor × Bool) := do
  let (c, f) ← plainFrom inFlow indent (c.rest.length + 1) true c .empty
  return (String.ofList f.text.reverse, c, f.broken)

/-! ### Quoted scalars -/

/-- The character behind a short escape. -/
def shortEscape (c : Char) : Option Char :=
  match c with
  | '0' => some '\x00'
  | 'a' => some '\x07'
  | 'b' => some '\x08'
  | 't' | '\t' => some '\t'
  | 'n' => some '\n'
  | 'v' => some '\x0B'
  | 'f' => some '\x0C'
  | 'r' => some '\r'
  | 'e' => some '\x1B'
  | ' ' | '"' | '/' | '\\' => some c
  | 'N' => some '\u0085'
  | '_' => some '\u00A0'
  | 'L' => some '\u2028'
  | 'P' => some '\u2029'
  | _ => none

/-- How many digits follow a long escape. -/
def longEscape (c : Char) : Option Nat :=
  match c with
  | 'x' => some 2
  | 'u' => some 4
  | 'U' => some 8
  | _ => none

/-- The character of a code, if it is one. -/
def charOf (n : Nat) : Option Char :=
  if n.isValidChar then some (Char.ofNat n) else none

/-- An escape after its backslash: the character, and the place after it. -/
def escape (c : Cursor) : Option (Char × Cursor) := do
  let d ← c.rest.head?
  match longEscape d with
  | none => return (← shortEscape d, c.advance)
  | some digits =>
    let cs := c.rest.tail.take digits
    if cs.length < digits then none
    else return (← charOf (← Text.valueIn? 16 cs), c.advanceBy (digits + 1))

/-- The inside of a scalar in single or double quotes, and the place after it. -/
def quotedFrom (single : Bool) : Nat → Cursor → Flow → Option (Cursor × Flow)
  | 0, _, _ => none
  | n + 1, c, f =>
    if c.atDocumentMarker then none
    else match c.rest with
      | [] => none
      | d :: rest =>
        if isBlank d || isBreak d then do
          let (c, f) ← takeBlanks 0 n c f
          quotedFrom single n c f.join
        else if single then
          if d == '\'' then
            if rest.head? == some '\'' then quotedFrom single n (c.advanceBy 2) (f.put d)
            else some (c.advance, f)
          else quotedFrom single n c.advance (f.put d)
        else if d == '"' then some (c.advance, f)
        else if d == '\\' then
          if rest.head?.any isBreak then do
            let (c, f) ← takeBlanks 0 n c.advance.nextLine f.escapedBreak
            quotedFrom single n c f.join
          else do
            let (e, c) ← escape c.advance
            quotedFrom single n c (f.put e)
        else quotedFrom single n c.advance (f.put d)

/-- A quoted scalar from its opening quote. -/
def quoted (single : Bool) (c : Cursor) : Option (String × Cursor) := do
  let (c, f) ← quotedFrom single (c.rest.length + 1) c.advance .empty
  return (String.ofList f.text.reverse, c)

/-! ### Block scalars -/

/-- What becomes of the breaks at the end of a block scalar. -/
inductive Chomp where
  | strip
  | clip
  | keep
deriving DecidableEq

def Chomp.ofChar? (c : Char) : Option Chomp :=
  if c = '-' then some strip else if c = '+' then some keep else none

/-- The sign of a chomp, if there is one. -/
def chompMark (c : Cursor) : Chomp × Cursor :=
  match c.rest.head?.bind Chomp.ofChar? with
  | some chomp => (chomp, c.advance)
  | none => (.clip, c)

/-- The digit of an indentation, if there is one; it may not be zero. -/
def indentMark (c : Cursor) : Option (Option Nat × Cursor) :=
  match c.rest with
  | [] => some (none, c)
  | d :: _ =>
    if d = '0' then none
    else if d.isDigit then some (some (d.toNat - '0'.toNat), c.advance)
    else some (none, c)

/-- The marks after the sign of a block scalar, in either order: what to do at its end, and
its indentation if it is given. -/
def blockMarks (c : Cursor) : Option (Chomp × Option Nat × Cursor) :=
  if (c.rest.head?.bind Chomp.ofChar?).isSome then do
    let (chomp, c) := chompMark c
    let (indent, c) ← indentMark c
    return (chomp, indent, c)
  else do
    let (indent, c) ← indentMark c
    let (chomp, c) := chompMark c
    return (chomp, indent, c)

/-- Empty lines, and the indentation of the line after them: the breaks, last one first,
the deepest column reached, and the place. -/
def emptyLines (indent : Option Nat) :
    Nat → Cursor → List Char → Nat → Option (List Char × Nat × Cursor)
  | 0, c, breaks, deepest => some (breaks, deepest, c)
  | n + 1, c, breaks, deepest =>
    let spaces := (c.rest.takeWhile (· == ' ')).length
    let c := c.advanceBy (match indent with
      | some i => min spaces (i - c.column)
      | none => spaces)
    let deepest := max deepest c.column
    if c.sees '\t' && (match indent with | some i => c.column < i | none => true) then none
    else match c.rest with
      | d :: _ =>
        if isBreak d then emptyLines indent n c.nextLine (breakChar d :: breaks) deepest
        else some (breaks, deepest, c)
      | [] => some (breaks, deepest, c)

/-- A block scalar under way: its text, last character first; the break after the last
line; the breaks of empty lines after it; and whether the last line begins with a
blank. -/
structure Block where
  text : List Char
  last : Option Char
  further : List Char
  indented : Bool

/-- The breaks before a line become part of the text. -/
def Block.join (folded : Bool) (lineIndented : Bool) (b : Block) : List Char :=
  if folded && b.last == some '\n' && !b.indented && !lineIndented then
    if b.further.isEmpty then ' ' :: b.text else b.further ++ b.text
  else b.further ++ (b.last.toList ++ b.text)

/-- The lines of a block scalar at an indentation. -/
def blockLines (folded : Bool) (indent : Nat) : Nat → Cursor → Block → Option (Block × Cursor)
  | 0, c, b => some (b, c)
  | n + 1, c, b =>
    if c.column != indent then some (b, c)
    else match c.rest with
      | [] => some (b, c)
      | d :: _ => do
        let (line, c) := c.run (!isBreak ·)
        let text := line.reverse ++ b.join folded (isBlank d)
        let last := c.rest.head?.map breakChar
        let (further, _, c) ← emptyLines (some indent) n c.nextLine [] 0
        blockLines folded indent n c ⟨text, last, further, isBlank d⟩

/-- A block scalar from its sign, inside a collection at an indentation. -/
def block (folded : Bool) (outer : Int) (c : Cursor) : Option (String × Cursor) := do
  let size := c.rest.length + 1
  let (chomp, given, c) ← blockMarks c.advance
  let c ← c.restOfLine
  let given := given.map fun n => if 0 ≤ outer then outer.toNat + n else n
  let (further, deepest, c) ← emptyLines given size c [] 0
  let indent := given.getD (max 1 (max deepest (outer + 1).toNat))
  let (b, c) ← blockLines folded indent size c ⟨[], none, further, false⟩
  let text := match chomp with
    | .strip => b.text
    | .clip => b.last.toList ++ b.text
    | .keep => b.further ++ (b.last.toList ++ b.text)
  return (String.ofList text.reverse, c)

end UiSuite.Yaml
