import UiSuite.Proofs.Text.Trimming
import UiSuite.Proofs.Yaml.Reading
import UiSuite.Suite.Decoding

/-! YAML texts decoded as written.

The blanks around a text are taken off before it is known to be YAML, where they may count: the
indentation of the first line does, and so do the breaks that end a block scalar
(`parseValue_astray`). Blank lines before a text and spaces and breaks after it do not, as long as
it does not end inside a block scalar or a flow collection (`parseValue_eq_yamlValue`). -/
namespace UiSuite

/-- The value of a text that is YAML. -/
def yamlValue (text : String) : Except DecodeError Json :=
  match Yaml.parse? text with
  | some j => .ok j
  | none => .error .malformedYaml

/-- **A text that is not JSON is decoded as the YAML it is written as**, if it stands below blank
lines only and does not end inside a block scalar or a flow collection. -/
theorem parseValue_eq_yamlValue {text : String} {lead trail : List Char}
    (htext : text.toList = lead ++ (Text.trim text.toList ++ trail)) (hlead : Yaml.BlankLines lead)
    (htrail : Yaml.Spaced trail) (hyaml : looksLikeJson (Text.trim text.toList) = false)
    (hclosed : Yaml.endsOpen (Text.trim text.toList) = false) :
    parseValue text = yamlValue text := by
  have htokens : Yaml.tokens text.toList = Yaml.tokens (Text.trim text.toList) :=
    (congrArg Yaml.tokens htext).trans (Yaml.tokens_margin hlead htrail (fun _ => Text.head_trim)
      (fun _ => Text.getLast_trim) hclosed)
  have hparse : Yaml.parse? (Text.trimmed text) = Yaml.parse? text := by
    rw [Yaml.parse?, Yaml.parse?, Text.toList_trimmed, htokens]
  rw [parseValue, yamlValue, Text.toList_trimmed, hyaml, hparse]
  rfl

/-- Two blank lines stand above a text, and its last line and an empty one end below it. -/
theorem parseValue_eq_yamlValue_blankLines :
    let text := "\n  \nname: a\ntestCases: []\n\n"
    let lead := "\n  \n".toList
    let trail := "\n\n".toList
    text.toList = lead ++ (Text.trim text.toList ++ trail) ∧ Yaml.BlankLines lead ∧
      Yaml.Spaced trail ∧ looksLikeJson (Text.trim text.toList) = false ∧
      Yaml.endsOpen (Text.trim text.toList) = false ∧ parseValue text = yamlValue text ∧
      yamlValue text = .ok (.object [("name", .string "a"), ("testCases", .array [])]) := by
  intro text lead trail
  have htext : text.toList = lead ++ (Text.trim text.toList ++ trail) := by decide +kernel
  have hlead : Yaml.BlankLines lead := by decide +kernel
  have htrail : Yaml.Spaced trail := by decide +kernel
  have hyaml : looksLikeJson (Text.trim text.toList) = false := by decide +kernel
  have hclosed : Yaml.endsOpen (Text.trim text.toList) = false := by decide +kernel
  have hread : yamlValue text =
      .ok (.object [("name", .string "a"), ("testCases", .array [])]) := by decide +kernel
  exact ⟨htext, hlead, htrail, hyaml, hclosed,
    parseValue_eq_yamlValue htext hlead htrail hyaml hclosed, hread⟩

/-- The first line loses its indentation, and the last block scalar its break. -/
theorem parseValue_astray :
    (looksLikeJson (Text.trim "  name: a\n  testCases: []\n".toList) = false ∧
      parseValue "  name: a\n  testCases: []\n" = .error .malformedYaml ∧
      yamlValue "  name: a\n  testCases: []\n" =
        .ok (.object [("name", .string "a"), ("testCases", .array [])])) ∧
    looksLikeJson (Text.trim "description: |\n  x\n".toList) = false ∧
      parseValue "description: |\n  x\n" = .ok (.object [("description", .string "x")]) ∧
      yamlValue "description: |\n  x\n" = .ok (.object [("description", .string "x\n")]) := by
  decide +kernel

end UiSuite
