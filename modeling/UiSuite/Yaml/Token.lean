/-! Tokens of YAML texts.

Indentation shows in the tokens: a block collection begins with a token of its own and
ends with `blockEnd`, and every key of a mapping has a `key` before it, written or not. -/
namespace UiSuite.Yaml

inductive Token where
  | version (major minor : Nat)
  | tagHandle (handle beginning : String)
  | documentStart
  | documentEnd
  | streamEnd
  | blockSequence
  | blockMapping
  | blockEnd
  | flowSequence
  | flowSequenceEnd
  | flowMapping
  | flowMappingEnd
  | blockEntry
  | flowEntry
  | key
  | value
  | reference (name : String)
  | anchor (name : String)
  | tag (handle suffix : String)
  | scalar (isPlain : Bool) (text : String)
deriving DecidableEq

end UiSuite.Yaml
