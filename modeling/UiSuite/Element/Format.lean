import UiSuite.Element.Basic
import UiSuite.Json.Record

/-! Elements as JSON.

An element is a record; what it lacks is left out when it is written. A forest is
written as a list, and may also be given as a single element. -/
namespace UiSuite.Element

open Json (Record Field Reader ShapeError Fault)

/-- The kind from its tag. -/
def Kind.read : Reader Kind :=
  Reader.choice Kind.ofTag

/-- An element whose children are read by `child`. -/
def record (child : Reader Element) : Record Element where
  name := "ElementNode"
  blank := blank
  fields := [
    Field.plain "id" Reader.natural fun v e => { e with id := v },
    Field.plain "kind" Kind.read fun v e => { e with kind := v },
    Field.plain "key" (.optional .text) fun v e => { e with key := v },
    Field.plain "label" (.optional .text) fun v e => { e with label := v },
    Field.plain "text" (.optional .text) fun v e => { e with text := v },
    Field.deep "richText" (.list .text) fun v e => { e with richText := v },
    Field.deep "children" (.list child) fun v e => { e with children := v }]

/-- Reads an element with at most so many generations. -/
def readWithin : Nat → Reader Element
  | 0 => fun j => .error (.wrongType j (.record "ElementNode"))
  | n + 1 => (record (readWithin n)).read

/-- Reads an element: it has no more generations than its value has containers. -/
def read : Reader Element := fun j =>
  readWithin (j.nesting + 1) j

/-- Reads a list of elements, or one element alone. -/
def readForest : Reader (List Element)
  | .array items => items.mapM read
  | j => (read j).map ([·])

/-- Reads a text that is a forest. -/
def parseForest (text : String) : Except Fault (List Element) :=
  match Json.parse? text with
  | none => .error .malformed
  | some j => Fault.lift (readForest j)

/-! ### Writing -/

mutual
def toJson : Element → Json
  | ⟨id, kind, key, label, text, richText, children⟩ =>
    Json.ofFields (
      [("id", Json.ofNat id), ("kind", .string kind.tag)] ++
        Json.presentField "key" (key.map .string) ++
        Json.presentField "label" (label.map .string) ++
        Json.presentField "text" (text.map .string) ++
        (if richText.isEmpty then [] else [("richText", .array (richText.map .string))]) ++
        (match children with
          | [] => []
          | e :: es => [("children", .array (toJson e :: forestToJson es))]))

def forestToJson : List Element → List Json
  | [] => []
  | e :: es => toJson e :: forestToJson es
end

end UiSuite.Element
