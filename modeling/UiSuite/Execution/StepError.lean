import UiSuite.Surface.Basic

/-! Why a step fails. -/
namespace UiSuite

inductive StepError where
  | missingField (action field : String)
  | aliasNotFound (name : String)
  | missingTarget (action : String)
  | unknownTypeName (name : String)
  | timeout (what : String) (millis : Nat)
  | assertion (text : String)
  | indexOutOfRange (query : String) (index found : Nat)
  | surface (error : SurfaceError)
deriving DecidableEq

namespace StepError

/-- The message of an alias that is not there. -/
def aliasMessage (name : String) : String :=
  "alias '" ++ name ++ "' is not registered"

/-- The message of a wait that was over in vain. -/
def timeoutMessage (what : String) (millis : Nat) : String :=
  "timed out after " ++ toString millis ++ "ms waiting for " ++ what

def message : StepError → String
  | missingField action field =>
    "step is missing required field '" ++ field ++ "' for action '" ++ action ++ "'"
  | aliasNotFound name => aliasMessage name
  | missingTarget action => "action '" ++ action ++ "' requires a selector or an alias"
  | unknownTypeName name => "unknown widget type '" ++ name ++ "'"
  | timeout what millis => timeoutMessage what millis
  | assertion text => "assertion failed: " ++ text
  | indexOutOfRange query index found =>
    "index [" ++ toString index ++ "] is out of range (" ++ toString found ++
      " match(es) for '" ++ query ++ "')"
  | surface e => e.message

/-- The name of the cause. -/
def name : StepError → String
  | missingField .. => "MissingField"
  | aliasNotFound _ => "AliasNotFound"
  | missingTarget _ => "MissingTarget"
  | unknownTypeName _ => "UnknownTypeName"
  | timeout .. => "Timeout"
  | assertion _ => "Assertion"
  | indexOutOfRange .. => "IndexOutOfRange"
  | surface (.staleElement _) => "StaleElement"
  | surface (.notEditable _) => "NotEditable"
  | surface (.other _) => "Other"

end StepError

/-- A failed step: its number from 1, what it was about, and why it failed. -/
structure StepFailure where
  step : Nat
  context : String
  error : StepError
deriving DecidableEq

def StepFailure.message (f : StepFailure) : String :=
  "step " ++ toString f.step ++ " (" ++ f.context ++ ") failed: " ++ f.error.message

end UiSuite
