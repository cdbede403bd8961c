import UiSuite.Text.Search
import UiSuite.Text.Blank

/-! Levels of diagnostics. -/
namespace UiSuite

inductive Level where
  | trace
  | debug
  | info
  | warn
  | error
deriving DecidableEq

namespace Level

def name : Level → String
  | trace => "TRACE"
  | debug => "DEBUG"
  | info => "INFO"
  | warn => "WARN"
  | error => "ERROR"

/-- The level a word names, in any case and with blanks around it. -/
def parse? (raw : String) : Option Level :=
  match String.ofList (Text.foldCase (Text.trimmed raw)) with
  | "trace" => some trace
  | "debug" => some debug
  | "info" => some info
  | "warn" | "warning" => some warn
  | "error" => some error
  | _ => none

end Level
end UiSuite
