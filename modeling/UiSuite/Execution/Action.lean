import UiSuite.Suite.Basic

/-! Actions: what the words of steps mean. -/
namespace UiSuite

inductive Action where
  | wait
  | click
  | enter
  | assertText
  | assertVisible
  | unknown (tag : String)
deriving DecidableEq

namespace Action

/-- The action of a tag, with blanks around it. -/
def ofTag (tag : String) : Action :=
  match Text.trimmed tag with
  | "wait" => wait
  | "click" => click
  | "type" | "input" => enter
  | "assert_text" | "verify_text" => assertText
  | "assert_visible" | "verify_visible" => assertVisible
  | other => unknown other

/-- The tag of an action; of two tags with one meaning the first. -/
def tag : Action → String
  | wait => "wait"
  | click => "click"
  | enter => "type"
  | assertText => "assert_text"
  | assertVisible => "assert_visible"
  | unknown tag => tag

end Action

namespace Step

/-- The selector of a step, unless it is blank. -/
def usedSelector (s : Step) : Option String :=
  s.selector.filter fun text => !Text.isBlankText text

/-- The alias of a step without blanks around it, unless it is blank. -/
def usedAlias (s : Step) : Option String :=
  (s.aliasName.map Text.trimmed).filter (· ≠ "")

/-- What a step is about, for messages. -/
def context (s : Step) (action : Action) : String :=
  let target := match s.usedSelector, s.aliasName.filter fun text => !Text.isBlankText text with
    | some selector, _ => selector
    | none, some name => "alias:" ++ name
    | none, none => "(fallback)"
  let tag := if action.tag = "" then "<missing action>" else action.tag
  tag ++ " " ++ target

end Step
end UiSuite
