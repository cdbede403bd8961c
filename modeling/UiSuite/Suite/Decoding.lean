import UiSuite.Suite.Format
import UiSuite.Yaml.Value

/-! Suites from texts.

A text that begins like a JSON container is JSON, any other is YAML. Its value is a
suite with its cases, a single case with its steps, or a bare list of steps; a case
without a name of its own takes the name it is given (`Suite.ofJson`). -/
namespace UiSuite

open Json (ShapeError)

/-- Values that are no suite whatever is in them. -/
inductive Misshape where
  | casesNotList
  | noCases
  | neither (found : Json)
deriving DecidableEq

/-- Why a text or a value is not a suite. -/
inductive DecodeError where
  | malformedJson
  | malformedYaml
  | field (error : ShapeError)
  | misshape (error : Misshape)
deriving DecidableEq

/-- The kind of a value in words. -/
def Json.kindInWords : Json → String
  | null => "null"
  | bool _ => "a boolean"
  | number _ => "a number"
  | string _ => "a string"
  | array _ => "a list"
  | object _ => "an object"

def Misshape.message : Misshape → String
  | casesNotList => "'testCases' must be a list"
  | noCases => "expected an object with 'testCases' or 'steps'"
  | neither found => "expected an object or a list of steps, got " ++ found.kindInWords

namespace DecodeError

/-- What a message about a text that is not JSON of the right shape begins with. -/
def jsonLabel : String := "invalid JSON payload: "

/-- What a message about a text that is not YAML begins with. -/
def yamlLabel : String := "invalid YAML payload: "

def message : DecodeError → String
  | malformedJson => jsonLabel ++ "malformed text"
  | malformedYaml => yamlLabel ++ "malformed text"
  | field e => jsonLabel ++ e.message
  | misshape e => "unsupported payload shape: " ++ e.message

end DecodeError

/-- Whether a text is taken for JSON. -/
def looksLikeJson (cs : List Char) : Bool :=
  cs.head?.any fun c => c == '\x7b' || c == '['

/-- The value of a text, JSON or YAML, without the blanks around it. -/
def parseValue (text : String) : Except DecodeError Json :=
  let bare := Text.trimmed text
  if looksLikeJson bare.toList then
    match Json.parse? bare with
    | some j => .ok j
    | none => .error .malformedJson
  else
    match Yaml.parse? bare with
    | some j => .ok j
    | none => .error .malformedYaml

namespace Suite

/-- The outcome of reading a part. -/
def part (r : Except ShapeError α) : Except DecodeError α :=
  r.mapError .field

/-- The suite of one case. -/
def ofCase (name : String) (c : TestCase) : Suite :=
  ⟨name, none, [c]⟩

/-- The name a case gives itself, if it is not blank. -/
def ownName (fields : List (String × Json)) : Option String :=
  match Json.get? "name" fields with
  | some (.string s) => if Text.isBlankText s then none else some s
  | _ => none

/-- A suite from a value; `name` is for a case without a name of its own. -/
def ofJson (name : String) : Json → Except DecodeError Suite
  | .array items => do
    let steps ← part (Json.Reader.list Step.record.read (.array items))
    return ofCase name ⟨name, none, steps⟩
  | .object fields =>
    match Json.get? "testCases" fields, Json.get? "steps" fields with
    | some (.array _), _ => part (Suite.record.read (.object fields))
    | some _, _ => .error (.misshape .casesNotList)
    | none, some _ => do
      let name := (ownName fields).getD name
      let c ← part (TestCase.record.read (.object fields))
      return ofCase name
        (if Text.isBlankText c.description then { c with description := name } else c)
    | none, none => .error (.misshape .noCases)
  | j => .error (.misshape (.neither j))

/-- A suite from a text. -/
def decode (text name : String) : Except DecodeError Suite := do
  ofJson name (← parseValue text)

end Suite
end UiSuite
