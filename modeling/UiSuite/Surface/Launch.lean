import UiSuite.Surface.Stage
import UiSuite.Element.Format
import UiSuite.Text.Utf8

/-! Launching a surface from a file that holds its forest. -/
namespace UiSuite.Stage

open Json (Fault)

/-- A stage from the text of a forest. -/
def parse (text : String) : Except Fault Stage :=
  (Element.parseForest text).map ofForest

/-- A stage from the content of a file, if there is one; an error says what was tried. -/
def launch (content : Option (List UInt8)) (path : String) : Except String Stage :=
  match content.map Text.Utf8.decode with
  | some (.ok text) =>
    match parse text with
    | .ok s => .ok s
    | .error _ => .error ("Failed to parse app tree " ++ path)
  | _ => .error ("Failed to read app tree " ++ path)

end UiSuite.Stage
