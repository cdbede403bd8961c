import UiSuite.Json.Basic
import UiSuite.Decimal.Reading
import UiSuite.Text.Digit

/-! What YAML scalars denote.

A plain scalar without a tag denotes null, a truth value or a number if it is written
like one, and its text otherwise; a scalar in quotes denotes its text. The core tags
decide instead: they demand a spelling, or leave the text as it is. Integers beyond 64
bits denote nothing, those beyond 128 bits are numbers with a fraction. -/
namespace UiSuite.Yaml

open Decimal (Binary64)

def isNull (text : String) : Bool :=
  text == "null" || text == "Null" || text == "NULL" || text == "~"

def truth? (text : String) : Option Bool :=
  if text == "true" || text == "True" || text == "TRUE" then some true
  else if text == "false" || text == "False" || text == "FALSE" then some false
  else none

/-! ### Numbers -/

/-- Digits with a zero before them, which are no number. -/
def hasLeadingZero : List Char → Bool
  | '0' :: c :: cs => (c :: cs).all Char.isDigit
  | _ => false

/-- The value of a number without sign: hexadecimal, octal, binary or decimal. -/
def magnitude? : List Char → Option Nat
  | '0' :: 'x' :: cs => Text.valueIn? 16 cs
  | '0' :: 'o' :: cs => Text.valueIn? 8 cs
  | '0' :: 'b' :: cs => Text.valueIn? 2 cs
  | cs => if hasLeadingZero cs then none else Text.valueIn? 10 cs

/-- The value of an integer, of any size. -/
def integer? (cs : List Char) : Option Int :=
  match cs with
  | '-' :: cs => (magnitude? cs).map fun n => -(n : Int)
  | '+' :: cs => (magnitude? cs).map Int.ofNat
  | cs => (magnitude? cs).map Int.ofNat

/-- The words for what is not a finite number. -/
def isNotFinite (text : String) : Bool :=
  [".inf", ".Inf", ".INF", "+.inf", "+.Inf", "+.INF", "-.inf", "-.Inf", "-.INF",
    ".nan", ".NaN", ".NAN"].contains text

/-- The value of a number with a fraction or a power of ten; the inner option is empty
for a number that is not finite. -/
def float? (text : String) : Option (Option Binary64) :=
  if isNotFinite text then some none
  else match text.toList with
    | '+' :: '+' :: _ | '+' :: '-' :: _ => none
    | cs => (Decimal.parse? cs).map some

/-- A number that is not finite denotes null. -/
def floatJson : Option Binary64 → Json
  | some x => .number (.float x)
  | none => .null

/-- What an integer denotes: nothing when it needs 65 to 128 bits. The inner option is
empty for one beyond that. -/
def integerJson (i : Int) : Option (Option Json) :=
  if Number.least ≤ i ∧ i ≤ Number.greatest then some (some (.number (.integer i)))
  else if -(Nat.pow 2 127 : Nat) ≤ i ∧ i < (Nat.pow 2 128 : Nat) then none
  else some none

/-! ### Scalars -/

/-- What a plain scalar without a tag denotes. -/
def plainJson (text : String) : Option Json :=
  if text == "" || isNull text then some .null
  else match truth? text with
    | some b => some (.bool b)
    | none => do
      match ← ((integer? text.toList).map integerJson).getD (some none) with
      | some j => return j
      | none =>
        let signless := match text.toList with
          | '-' :: cs | '+' :: cs => cs
          | cs => cs
        if hasLeadingZero signless then return .string text
        else match float? text with
          | some x => return floatJson x
          | none => return .string text

/-- Whether a tag is one of the document's own, which no value can have. -/
def isLocal (tag : String) : Bool :=
  tag.toList.head? == some '!'

/-- The core tag with a name. -/
def core (name : String) : String :=
  "tag:yaml.org,2002:" ++ name

/-- What a scalar denotes. -/
def scalarJson (tag : Option String) (isPlain : Bool) (text : String) : Option Json :=
  match tag with
  | none => if isPlain then plainJson text else some (.string text)
  | some tag =>
    if isLocal tag then none
    else if tag = core "bool" then (truth? text).map .bool
    else if tag = core "int" then (integer? text.toList).bind fun i => (integerJson i).join
    else if tag = core "float" then (float? text).map floatJson
    else if tag = core "null" then if isNull text then some .null else none
    else some (.string text)

end UiSuite.Yaml
