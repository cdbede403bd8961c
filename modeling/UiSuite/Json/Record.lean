import UiSuite.Json.Shape
import UiSuite.Json.Draft

/-! Records: objects with known fields.

A record is read from an object, whose unknown fields do not count and whose missing
fields keep what they have in the blank record, or from an array of the first fields
in their order. Read from a value, the fields come in the order of their keys. Read
straight from a text, they come as they are written: a field given twice is an error,
and whatever is wrong first, in the text or in the shape, is the error. -/
namespace UiSuite.Json

/-- What is wrong with a text: it is not JSON, or not of the shape asked for. -/
inductive Fault where
  | malformed
  | shape (error : ShapeError)
deriving DecidableEq

namespace Fault

/-- The outcome of a reader as an outcome for texts. -/
def lift : Except ShapeError α → Except Fault α
  | .ok a => .ok a
  | .error e => .error (.shape e)

end Fault

/-- A field of a record: its name and how it is read, from a value and from a draft with
so many containers allowed. -/
structure Field (α : Type) where
  name : String
  read : Json → α → Except ShapeError α
  readDraft : Nat → Draft → α → Except Fault α

/-- The value of a draft as far as its kind shows it: containers come without parts. -/
def Draft.outside : Draft → Option Json
  | missing => none
  | null => some .null
  | bool b => some (.bool b)
  | number n => n.map .number
  | string s => s.map .string
  | array .. => some (.array [])
  | object .. => some (.object [])

namespace Field

/-- A field that takes no container, so that the kind of a value decides. -/
def plain (name : String) (read : Reader β) (set : β → α → α) : Field α where
  name := name
  read j r := (read j).map (set · r)
  readDraft _ d r :=
    match d.outside with
    | none => .error .malformed
    | some j => Fault.lift ((read j).map (set · r))

/-- A field that takes a whole value. -/
def deep (name : String) (read : Reader β) (set : β → α → α) : Field α where
  name := name
  read j r := (read j).map (set · r)
  readDraft limit d r :=
    match d.toJson? limit with
    | none => .error .malformed
    | some j => Fault.lift ((read j).map (set · r))

end Field

/-- A record: its name, its fields in their order and the record without any. -/
structure Record (α : Type) where
  name : String
  blank : α
  fields : List (Field α)

namespace Record

/-- The field of a name. -/
def find? (R : Record α) (name : String) : Option (Field α) :=
  R.fields.find? (·.name == name)

/-! ### From values -/

/-- One field of an object. -/
def takeEntry (R : Record α) (r : α) (entry : String × Json) : Except ShapeError α :=
  match R.find? entry.1 with
  | some f => f.read entry.2 r
  | none => .ok r

/-- Items in the order of the fields, and the items left over. -/
def takeItems : List (Field α) → List Json → α → Except ShapeError (α × List Json)
  | [], items, r => .ok (r, items)
  | _, [], r => .ok (r, [])
  | f :: fs, j :: js, r => do takeItems fs js (← f.read j r)

/-- Reads a record. -/
def read (R : Record α) : Reader α
  | .object fields => fields.foldlM R.takeEntry R.blank
  | .array items => do
    let (r, rest) ← takeItems R.fields items R.blank
    if rest.isEmpty then return r else throw (.surplusItems items.length)
  | j => .error (.wrongType j (.record R.name))

/-! ### From texts -/

/-- The entries of an object as they are written; `seen` are the fields given so far. -/
def takeEntries (R : Record α) (limit : Nat) :
    List (Option String × Draft) → List String → α → Except Fault α
  | [], _, r => .ok r
  | (none, _) :: _, _, _ => .error .malformed
  | (some key, d) :: rest, seen, r =>
    match R.find? key with
    | none => if d.isComplete then takeEntries R limit rest seen r else .error .malformed
    | some f =>
      if key ∈ seen then .error (.shape (.duplicateField key))
      else do takeEntries R limit rest (key :: seen) (← f.readDraft limit d r)

/-- Items in the order of the fields; there may be none left over. -/
def takeDrafts (limit : Nat) : List (Field α) → List Draft → α → Except Fault α
  | _, [], r => .ok r
  | [], _ :: _, _ => .error .malformed
  | f :: fs, d :: ds, r => do takeDrafts limit fs ds (← f.readDraft limit d r)

/-- Reads a record from a draft with so many containers allowed. -/
def readDraft (R : Record α) (limit : Nat) : Draft → Except Fault α
  | .object entries closed => do
    let r ← R.takeEntries (limit - 1) entries [] R.blank
    if closed then return r else throw .malformed
  | .array items closed => do
    let r ← takeDrafts (limit - 1) R.fields items R.blank
    if closed then return r else throw .malformed
  | d =>
    match d.outside with
    | none => .error .malformed
    | some j => .error (.shape (.wrongType j (.record R.name)))

/-- Reads tokens that are one record. -/
def readTokens (R : Record α) (ts : List Token) : Except Fault α := do
  let (draft, alone) := Draft.ofTokens ts
  let r ← R.readDraft deepest draft
  if alone then return r else throw .malformed

/-- Reads a text that is one record. -/
def readText (R : Record α) (text : String) : Except Fault α :=
  R.readTokens (tokens text.toList)

/-- Reads octets that are one record. What is not a text may stand in a part that does not
count. -/
def readOctets (R : Record α) (bytes : List UInt8) : Except Fault α :=
  R.readTokens (tokensOfOctets bytes)

/-- A field that is a record itself. -/
def asField (R : Record β) (name : String) (set : β → α → α) : Field α where
  name := name
  read j r := (R.read j).map (set · r)
  readDraft limit d r := (R.readDraft limit d).map (set · r)

end Record
end UiSuite.Json
