import UiSuite.Json.Record

/-! Outlines: the names of records and of their fields. -/
namespace UiSuite.Json

/-- The names of a record's fields, in order. -/
def Record.fieldNames (R : Record α) : List String :=
  (R.fields.map (·.name)).mergeSort fun a b => decide (a ≤ b)

/-- A record and the records in it. -/
structure Outline where
  title : String
  fields : List String
  parts : List (String × List String)

/-- The outline of a record with these parts. -/
def Record.outline (R : Record α) (parts : List (String × List String)) : Outline :=
  ⟨R.name, R.fieldNames, parts⟩

/-- A record as a part of an outline. -/
def Record.asPart (R : Record α) : String × List String :=
  (R.name, R.fieldNames)

def Outline.toJson (o : Outline) : Json :=
  .ofFields [("title", .string o.title), ("root", properties o.fields),
    ("defs", .ofFields (o.parts.map fun (name, fields) => (name, properties fields)))]
where
  properties (fields : List String) : Json :=
    .ofFields [("properties", .array (fields.map .string))]

end UiSuite.Json
