import UiSuite.Json.Token

/-! Drafts: JSON texts as far as they make sense.

A draft is the tree of a text, kept up to the point where the text stops making
sense; a container cut short there is not closed, and a value that should have come
is missing. A reader that needs the first fields only may so answer before the fault.
A draft without any fault is a value (`Draft.toJson?`), in which of two fields with
one key the later counts; containers may nest up to a limit. -/
namespace UiSuite.Json

inductive Draft where
  | missing
  | null
  | bool (value : Bool)
  | number (value : Option Number)
  | string (value : Option String)
  | array (items : List Draft) (closed : Bool)
  | object (entries : List (Option String × Draft)) (closed : Bool)

namespace Draft

/-! ### Reading -/

/-- A container under way, last part first; `entry` is an object whose last key has no
value yet. -/
inductive Frame where
  | items (reversed : List Draft)
  | entries (reversed : List (Option String × Draft))
  | entry (reversed : List (Option String × Draft)) (key : Option String)

namespace Frame

/-- The container with one part more. -/
def put (d : Draft) : Frame → Frame
  | items ds => items (d :: ds)
  | entries es => entries es
  | entry es key => entries ((key, d) :: es)

/-- The container cut short. -/
def cut : Frame → Draft
  | items ds => .array ds.reverse false
  | entries es => .object es.reverse false
  | entry es key => .object ((key, .missing) :: es).reverse false

end Frame

/-- What may come next. -/
inductive Due where
  | value
  | firstItem
  | afterItem
  | firstKey
  | key
  | colon
  | afterEntry

/-- The reading of a text, one token at a time: among containers under way, with the
value complete, or past the point where the text makes sense. -/
inductive Reading where
  | under (frames : List Frame) (due : Due)
  | whole (draft : Draft)
  | broken (draft : Draft)

namespace Reading

def start : Reading := under [] .value

/-- The draft when the text stops making sense among these containers. -/
def cut : List Frame → Draft
  | [] => .missing
  | f :: fs => fs.foldl (fun d f => (f.put d).cut) f.cut

/-- A complete value takes its place. -/
def put (d : Draft) : List Frame → Reading
  | [] => whole d
  | .items ds :: fs => under (.items (d :: ds) :: fs) .afterItem
  | f :: fs => under (f.put d :: fs) .afterEntry

/-- A token where a value is due. -/
def value (frames : List Frame) : Token → Reading
  | .null => put .null frames
  | .bool b => put (.bool b) frames
  | .number n => put (.number n) frames
  | .string s => put (.string s) frames
  | .openArray => under (.items [] :: frames) .firstItem
  | .openObject => under (.entries [] :: frames) .firstKey
  | .closeArray | .closeObject | .comma | .colon | .malformed => broken (cut frames)

/-- What one token does. -/
def step : Reading → Token → Reading
  | whole d, _ => broken d
  | broken d, _ => broken d
  | under frames due, t =>
    match due, frames, t with
    | .value, frames, t => value frames t
    | .firstItem, .items ds :: fs, .closeArray => put (.array ds.reverse true) fs
    | .firstItem, frames, t => value frames t
    | .afterItem, .items ds :: fs, .closeArray => put (.array ds.reverse true) fs
    | .afterItem, frames, .comma => under frames .value
    | .firstKey, .entries es :: fs, .closeObject => put (.object es.reverse true) fs
    | .firstKey, .entries es :: fs, .string key => under (.entry es key :: fs) .colon
    | .key, .entries es :: fs, .string key => under (.entry es key :: fs) .colon
    | .colon, frames, .colon => under frames .value
    | .afterEntry, .entries es :: fs, .closeObject => put (.object es.reverse true) fs
    | .afterEntry, frames, .comma => under frames .key
    | _, frames, _ => broken (cut frames)

/-- The draft when the text ends here, and whether the text is that draft and no more. -/
def finish : Reading → Draft × Bool
  | under frames _ => (cut frames, false)
  | whole d => (d, true)
  | broken d => (d, false)

end Reading

/-- The draft of some tokens, and whether there is nothing besides. -/
def ofTokens (ts : List Token) : Draft × Bool :=
  (ts.foldl Reading.step .start).finish

/-- The draft of a text, and whether the text holds nothing besides. -/
def ofText (text : String) : Draft × Bool :=
  ofTokens (tokens text.toList)

/-! ### Values -/

mutual
/-- The value of a draft without fault, with at most `limit` containers around any
value. -/
def toJson? (limit : Nat) : Draft → Option Json
  | missing => none
  | null => some .null
  | bool b => some (.bool b)
  | number n => n.map .number
  | string s => s.map .string
  | array items closed =>
    match limit with
    | 0 => none
    | limit + 1 => if closed then (itemsToJson? limit items).map .array else none
  | object entries closed =>
    match limit with
    | 0 => none
    | limit + 1 => if closed then (entriesToJson? limit entries).map .ofFields else none

def itemsToJson? (limit : Nat) : List Draft → Option (List Json)
  | [] => some []
  | d :: ds => do
    let j ← toJson? limit d
    let js ← itemsToJson? limit ds
    return j :: js

def entriesToJson? (limit : Nat) : List (Option String × Draft) → Option (List (String × Json))
  | [] => some []
  | (key, d) :: es => do
    let key ← key
    let j ← toJson? limit d
    let js ← entriesToJson? limit es
    return (key, j) :: js
end

mutual
/-- Whether a draft is complete, whatever its strings and numbers denote. -/
def isComplete : Draft → Bool
  | missing => false
  | null | bool _ | number _ | string _ => true
  | array items closed => closed && areComplete items
  | object entries closed => closed && entriesComplete entries

def areComplete : List Draft → Bool
  | [] => true
  | d :: ds => isComplete d && areComplete ds

def entriesComplete : List (Option String × Draft) → Bool
  | [] => true
  | (_, d) :: es => isComplete d && entriesComplete es
end

end Draft

/-- How many containers may stand around a value. -/
def deepest : Nat := 127

/-- Reads a text that is one value with at most `limit` containers around any part. -/
def parseWithin? (limit : Nat) (text : String) : Option Json :=
  let (draft, alone) := Draft.ofText text
  if alone then draft.toJson? limit else none

/-- Reads a text that is one value. -/
def parse? (text : String) : Option Json :=
  parseWithin? deepest text

end UiSuite.Json
