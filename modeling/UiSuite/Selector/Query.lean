import UiSuite.Element.Kind
import UiSuite.Decimal.Reading

/-! Queries: what a selector asks for.

A selector is an optional strategy before a colon, a value, and an optional index in
brackets at its end (`parse`); `render` writes a query as a selector. Only the first
colon and the last bracket count, so the value of a text, of a part of a text and of a
label may hold both. -/
namespace UiSuite

/-- How elements are selected. -/
inductive Strategy where
  | exact (text : String)
  | part (text : String)
  | key (key : String)
  | label (label : String)
  | kind (kind : Element.Kind)
  | unknownKind (name : String)
  | reference (name : String)
deriving DecidableEq

/-- A strategy, and which of the matches counts. -/
structure Query where
  strategy : Strategy
  index : Option Nat
deriving DecidableEq

namespace Query

open Text (trim trimmed splitFirst splitLast)

/-- The greatest index. -/
def greatestIndex : Nat := UInt64.size - 1

/-- The body of a selector and the index at its end. -/
def splitIndex (raw : List Char) : List Char × Option Nat :=
  match raw.reverse with
  | ']' :: inner =>
    match splitLast '[' inner.reverse with
    | none => (raw, none)
    | some (body, digits) =>
      if digits.isEmpty || !digits.all Char.isDigit then (raw, none)
      else match Decimal.natural? greatestIndex digits with
        | some n => (body, some n)
        | none => (raw, none)
  | _ => (raw, none)

/-- The strategy of a selector without its index. -/
def strategyOf (body : List Char) : Strategy :=
  match splitFirst ':' body with
  | none => .exact (String.ofList body)
  | some (before, after) =>
    let value := String.ofList after
    match String.ofList (trim before) with
    | "text" => .exact value
    | "contains" => .part value
    | "key" | "id" => .key (trimmed value)
    | "label" => .label value
    | "type" =>
      match Element.Kind.ofTypeName? value with
      | some kind => .kind kind
      | none => .unknownKind (trimmed value)
    | "alias" => .reference (trimmed value)
    | _ => .exact (String.ofList body)

/-- Reads a selector; every text is one. -/
def parse (raw : String) : Query :=
  let (body, index) := splitIndex raw.toList
  ⟨strategyOf body, index⟩

/-- A text as it stands, with no index. -/
def exactText (text : String) : Query :=
  ⟨.exact text, none⟩

/-- A field for text, with no index. -/
def textInput : Query :=
  ⟨.kind .textInput, none⟩

end Query

/-- A strategy as a selector without index. -/
def Strategy.render : Strategy → String
  | .exact text => text
  | .part text => "contains:" ++ text
  | .key k => "key:" ++ k
  | .label l => "label:" ++ l
  | .kind k => "type:" ++ k.name
  | .unknownKind name => "type:" ++ name
  | .reference name => "alias:" ++ name

/-- A query as a selector. -/
def Query.render (q : Query) : String :=
  match q.index with
  | some n => q.strategy.render ++ "[" ++ toString n ++ "]"
  | none => q.strategy.render

end UiSuite
