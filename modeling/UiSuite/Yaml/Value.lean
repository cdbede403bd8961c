import UiSuite.Yaml.Layout
import UiSuite.Yaml.Anchor
import UiSuite.Yaml.Resolution

/-! YAML texts as JSON values.

A key is the text of its scalar, whatever that would denote. Aliases are replaced by
what they stand for, within a limit that grows with the document, so a document cannot
stand for a value out of proportion; containers may nest 128 deep. -/
namespace UiSuite.Yaml

/-- How many containers may stand around a value. -/
def deepest : Nat := 128

/-- How many aliases may be followed for every part of a document. -/
def aliasesPerPart : Nat := 100

/-- Work that follows aliases, with the number that may still be followed. -/
abbrev Following := StateT Nat Option

/-- A node, or what it stands for. -/
def follow (anchored : List (Nat × Node Nat)) : Node Nat → Following (Node Nat)
  | .reference id => fun left =>
    match left, anchored.find? (·.1 == id) with
    | left + 1, some (_, n) => some (n, left)
    | _, _ => none
  | n => pure n

/-- The text of a key. -/
def keyText (anchored : List (Nat × Node Nat)) (n : Node Nat) : Following String := do
  match ← follow anchored n with
  | .scalar _ _ _ text => return text
  | _ => failure

/-- The value of a node with so many containers allowed. -/
def Node.toJson (anchored : List (Nat × Node Nat)) : Nat → Node Nat → Following Json
  | 0, n => do
    match ← follow anchored n with
    | .scalar _ tag isPlain text => fun left => (scalarJson tag isPlain text).map (·, left)
    | _ => failure
  | depth + 1, n => do
    match ← follow anchored n with
    | .scalar _ tag isPlain text => fun left => (scalarJson tag isPlain text).map (·, left)
    | .reference _ => failure
    | .sequence _ tag items =>
      if tag.any isLocal then failure
      else return .array (← items.mapM (toJson anchored depth))
    | .mapping _ tag entries =>
      if tag.any isLocal then failure
      else
        let fields ← entries.mapM fun (k, v) => do
          let key ← keyText anchored k
          return (key, ← toJson anchored depth v)
        return Json.ofFields fields

/-- The value of a document; of two anchored nodes with one number the later counts. -/
def Node.value (root : Node String) : Option Json := do
  let (root, _) ← root.bound []
  let (j, _) ← Node.toJson root.anchored.reverse deepest root (aliasesPerPart * root.size)
  return j

/-- Reads a text as one document. -/
def parse? (text : String) : Option Json := do
  (← Node.ofTokens? (← tokens text.toList)).value

end UiSuite.Yaml
