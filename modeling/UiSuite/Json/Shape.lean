import UiSuite.Json.Printer
import UiSuite.Text.Quoted

/-! Readers: from values to the things they describe.

A reader asks a value for a certain shape and says what it found instead. Readers ask
for the first thing that is wrong only, in the order in which the parts of a value
come. -/
namespace UiSuite.Json

/-- The shapes that readers ask for. -/
inductive Shape where
  | text
  | list
  | natural
  | truth
  | nothing
  | choice
  | record (name : String)
deriving DecidableEq

namespace Shape

def describe : Shape → String
  | text => "a string"
  | list => "a sequence"
  | natural => "u64"
  | truth => "a boolean"
  | nothing => "unit"
  | choice => "string or map"
  | record name => "struct " ++ name

end Shape

/-- Why a value does not have the shape asked for. -/
inductive ShapeError where
  | wrongType (found : Json) (wanted : Shape)
  | outOfRange (found : Int) (wanted : Shape)
  | duplicateField (name : String)
  | surplusItems (length : Nat)
  | notOneKey
  | notScalar (found : Json)
deriving DecidableEq

/-- A value named by its kind, scalars with what they are. -/
def describe : Json → String
  | null => "null"
  | bool b => "boolean `" ++ (if b then "true" else "false") ++ "`"
  | number (.integer i) => "integer `" ++ String.ofList (integerChars i) ++ "`"
  | number (.float x) => "floating point `" ++ String.ofList (layout.render x) ++ "`"
  | string s => "string " ++ Text.quoted s
  | array _ => "sequence"
  | object _ => "map"

def ShapeError.message : ShapeError → String
  | wrongType found wanted => "invalid type: " ++ found.describe ++ ", expected " ++ wanted.describe
  | outOfRange found wanted =>
    "invalid value: " ++ describe (.number (.integer found)) ++ ", expected " ++ wanted.describe
  | duplicateField name => "duplicate field `" ++ name ++ "`"
  | surplusItems length =>
    "invalid length " ++ toString length ++ ", expected fewer elements in array"
  | notOneKey => "invalid value: map, expected map with a single key"
  | notScalar found => "expected a scalar value, got " ++ found.render

/-- A reader of values. -/
abbrev Reader (α : Type) := Json → Except ShapeError α

namespace Reader

def text : Reader String
  | .string s => .ok s
  | j => .error (.wrongType j .text)

def truth : Reader Bool
  | .bool b => .ok b
  | j => .error (.wrongType j .truth)

/-- A natural number up to `greatest`. -/
def naturalWithin (greatest : Nat) : Reader Nat
  | .number (.integer i) =>
    if 0 ≤ i ∧ i ≤ greatest then .ok i.toNat else .error (.outOfRange i .natural)
  | j => .error (.wrongType j .natural)

/-- A natural number of 64 bits. -/
def natural : Reader Nat :=
  naturalWithin (UInt64.size - 1)

/-- What may be null. -/
def optional (read : Reader α) : Reader (Option α)
  | .null => .ok none
  | j => (read j).map some

/-- A list, read item by item. -/
def list (read : Reader α) : Reader (List α)
  | .array items => items.mapM read
  | j => .error (.wrongType j .list)

/-- A scalar of any kind, by its text; null stands for none. -/
def scalar : Reader (Option String)
  | .null => .ok none
  | .string s => .ok (some s)
  | .bool b => .ok (some (if b then "true" else "false"))
  | .number n => .ok (some (String.ofList (numberChars n)))
  | j => .error (.notScalar j)

/-- One of several names: a text, or an object with the name as its one key and null
under it. -/
def choice (ofName : String → α) : Reader α
  | .string s => .ok (ofName s)
  | .object [(name, .null)] => .ok (ofName name)
  | .object [(_, j)] => .error (.wrongType j .nothing)
  | .object _ => .error .notOneKey
  | j => .error (.wrongType j .choice)

end Reader
end UiSuite.Json
