import UiSuite.Suite.Decoding
import UiSuite.Text.Search
import UiSuite.Text.Utf8

/-! Suites from files.

A suite takes the name of its file where it has none, and the path as the label of the
source. The name of a file is its last part, without an ending after a point that does
not begin it. -/
namespace UiSuite

/-- Why a file cannot be loaded: what was tried, and what the content lacks, if it could be
read. -/
structure LoadError where
  context : String
  cause : Option DecodeError
deriving DecidableEq

namespace Path

/-- The last part of a path that names a file; trailing separators and points for the
place itself do not count. -/
def fileName (path : String) : Option (List Char) :=
  match ((Text.pieces '/' path.toList).filter fun p => p ≠ [] && p ≠ ['.']).getLast? with
  | some ['.', '.'] => none
  | last => last

/-- The name of a file without its ending. -/
def stem (path : String) : Option String :=
  (fileName path).map fun name =>
    match Text.splitLast '.' name with
    | some (before, _) => String.ofList (if before.isEmpty then name else before)
    | none => String.ofList name

end Path

namespace Suite

/-- A suite from the text of a file. -/
def load (text path : String) : Except LoadError Suite :=
  let name := (Path.stem path).getD "suite"
  match decode text name with
  | .ok s => .ok (s.withDefaults name path)
  | .error e => .error ⟨"Failed to decode suite document " ++ path, some e⟩

/-- A suite from the content of a file, if there is one. -/
def loadFile (content : Option (List UInt8)) (path : String) : Except LoadError Suite :=
  match content.map Text.Utf8.decode with
  | some (.ok text) => load text path
  | _ => .error ⟨"Failed to read suite file " ++ path, none⟩

end Suite
end UiSuite
