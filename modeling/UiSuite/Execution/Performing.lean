import UiSuite.Execution.Target

/-! Performing steps.

What a step needs is checked before anything is touched. A tap and an entered text let
the surface settle; an assertion about a text looks at the target only where the step
named it, since otherwise the target was found by that very text. -/
namespace UiSuite

inductive StepOutcome where
  | performed
  | skipped (tag : String)
deriving DecidableEq

namespace Step
variable {σ : Type} [Surface σ]

/-- What an assertion about a text finds wrong with a target. -/
def mismatch (expected : String) (t : Target) : Option StepError :=
  let actual := t.element.shownText.getD ""
  if t.isExplicit && !Text.contains actual expected then
    some (.assertion ("expected text of '" ++ t.query.render ++ "' to contain '" ++ expected ++
      "', found '" ++ actual ++ "'"))
  else none

/-- Acts on the target of a step and lets the surface settle. -/
def actOnTarget (config : Config) (action : Action) (fallback : Option Query)
    (act : Nat → σ → Except SurfaceError Unit × σ) (s : Step) (w : World σ) :
    Except StepError StepOutcome × World σ :=
  match s.obtain config action fallback w with
  | (.error e, w) => (.error e, w)
  | (.ok t, w) =>
    match w.act (act t.element.id) with
    | (.error e, w) => (.error (.surface e), w)
    | (.ok (), w) => (.ok .performed, w.settle)

/-- Performs a step whose action is known. -/
def perform (config : Config) (action : Action) (s : Step) (w : World σ) :
    Except StepError StepOutcome × World σ :=
  match action with
  | .unknown tag =>
    if tag = "" then (.error (.missingField "" "action"), w) else (.ok (.skipped tag), w)
  | .wait => (.ok .performed, (w.sleep (s.waitMillis config.waits.waitAction)).settle)
  | .click => s.actOnTarget config action none Surface.tap w
  | .enter =>
    match s.value with
    | none => (.error (.missingField action.tag "value"), w)
    | some value =>
      s.actOnTarget config action (some .textInput) (fun id => Surface.enterText id value) w
  | .assertText =>
    match s.expected with
    | none => (.error (.missingField action.tag "expected"), w)
    | some expected =>
      match s.obtain config action (some (.exactText expected)) w with
      | (.error e, w) => (.error e, w)
      | (.ok t, w) =>
        match mismatch expected t with
        | some e => (.error e, w)
        | none => (.ok .performed, w)
  | .assertVisible =>
    match s.obtain config action none w with
    | (.error e, w) => (.error e, w)
    | (.ok _, w) => (.ok .performed, w)

/-- Executes the step at a place of its case, counted from 0. -/
def execute (config : Config) (index : Nat) (s : Step) (w : World σ) :
    Except StepFailure StepOutcome × World σ :=
  let action := Action.ofTag s.action
  match s.perform config action w with
  | (.error e, w) => (.error ⟨index + 1, s.context action, e⟩, w)
  | (.ok outcome, w) => (.ok outcome, w)

end Step
end UiSuite
