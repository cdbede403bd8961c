import UiSuite.Text.Digit
import UiSuite.Yaml.Cursor
import UiSuite.Yaml.Token

/-! Marks: anchors, tags and directives of YAML texts.

The name of an anchor is a word. A tag is a handle and a suffix, or a whole tag in angle
brackets; its characters may be written as escaped octets. A directive gives the version
or the meaning of a handle. -/
namespace UiSuite.Yaml

/-! ### Anchors -/

/-- The characters that may follow the name of an anchor, besides a gap. -/
def afterName : List Char :=
  "?:,]\x7d%@`".toList

/-- A name, and the place after it. -/
def anchorName (c : Cursor) : Option (String × Cursor) :=
  let (name, c) := c.run isWord
  if name.isEmpty then none
  else if Cursor.atGap c.rest || c.rest.head?.any afterName.contains then
    some (String.ofList name, c)
  else none

/-! ### Tags -/

/-- The characters of a tag; `whole` adds those that a whole tag may hold. -/
def isTagChar (whole : Bool) (c : Char) : Bool :=
  isWord c || ";/?:@&=+$.!~*'()".toList.contains c || (whole && ",[]".toList.contains c)

/-- One escaped octet. -/
def octet (c : Cursor) : Option (Nat × Cursor) :=
  match c.rest with
  | '%' :: x :: y :: _ => (Text.valueIn? 16 [x, y]).map (·, c.advanceBy 3)
  | _ => none

/-- So many further octets of a character. -/
def furtherOctets : Nat → Nat → Cursor → Option (Nat × Cursor)
  | 0, code, c => some (code, c)
  | n + 1, code, c => do
    let (b, c) ← octet c
    if b / 64 = 2 then furtherOctets n (code * 64 + b % 64) c else none

/-- A character written as escaped octets. -/
def escapedChar (c : Cursor) : Option (Char × Cursor) := do
  let (b, c) ← octet c
  let (further, start) ←
    if b < 0x80 then some (0, b)
    else if b / 32 = 6 then some (1, b % 32)
    else if b / 16 = 14 then some (2, b % 16)
    else if b / 8 = 30 then some (3, b % 8)
    else none
  let (code, c) ← furtherOctets further start c
  if code.isValidChar then return (Char.ofNat code, c) else none

/-- The characters of a tag, last one first, and the place after them. -/
def tagChars (whole : Bool) : Nat → List Char → Cursor → Option (List Char × Cursor)
  | 0, acc, c => some (acc, c)
  | n + 1, acc, c =>
    match c.rest with
    | [] => some (acc, c)
    | d :: _ =>
      if d == '%' then do
        let (e, c) ← escapedChar c
        tagChars whole n (e :: acc) c
      else if isTagChar whole d then tagChars whole n (d :: acc) c.advance
      else some (acc, c)

/-- The characters of a tag. -/
def tagText (whole : Bool) (c : Cursor) : Option (String × Cursor) := do
  let (cs, c) ← tagChars whole (c.rest.length + 1) [] c
  return (String.ofList cs.reverse, c)

/-- A handle without its first mark: a word, and whether a mark closes it. -/
def handleWord (c : Cursor) : List Char × Bool × Cursor :=
  let (word, c) := c.run isWord
  if c.sees '!' then (word, true, c.advance) else (word, false, c)

/-- A tag from its mark: a handle, which may be empty, a suffix, and the place after. -/
def tag (c : Cursor) : Option (String × String × Cursor) := do
  let inside := c.advance
  if inside.sees '<' then
    let (text, c) ← tagText true inside.advance
    if text = "" then none else return ("", text, ← c.expect '>')
  else
    let (word, closed, c) := handleWord inside
    let (suffix, c) ← tagText false c
    if closed then
      if suffix = "" then none
      else return (String.ofList ('!' :: (word ++ ['!'])), suffix, c)
    else
      let suffix := String.ofList word ++ suffix
      if suffix = "" then return ("", "!", c) else return ("!", suffix, c)

/-! ### Directives -/

/-- A number of at most nine digits. -/
def versionNumber (c : Cursor) : Option (Nat × Cursor) :=
  let (ds, c) := c.run Char.isDigit
  if ds.isEmpty || 9 < ds.length then none
  else some (ds.foldl (fun n d => 10 * n + (d.toNat - '0'.toNat)) 0, c)

/-- The handle that a directive gives a meaning. -/
def directiveHandle (c : Cursor) : Option (String × Cursor) := do
  let (word, closed, c) := handleWord (← c.expect '!')
  if closed then return (String.ofList ('!' :: (word ++ ['!'])), c)
  else if word.isEmpty then return ("!", c)
  else none

/-- A directive from its mark, with the rest of its line. -/
def directive (c : Cursor) : Option (Token × Cursor) := do
  let (name, c) := c.advance.run isWord
  if !Cursor.atGap c.rest then none
  else
    let inside := c.skip isBlank
    match String.ofList name with
    | "YAML" =>
      let (major, c) ← versionNumber inside
      let (minor, c) ← versionNumber (← c.expect '.')
      return (.version major minor, ← c.restOfLine)
    | "TAG" =>
      let (handle, c) ← directiveHandle inside
      if !c.rest.head?.any isBlank then none
      else
        let (beginning, c) ← tagText true (c.skip isBlank)
        if beginning = "" || !Cursor.atGap c.rest then none
        else return (.tagHandle handle beginning, ← c.restOfLine)
    | _ => none

end UiSuite.Yaml
