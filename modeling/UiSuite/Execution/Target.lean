import UiSuite.Config.Basic
import UiSuite.Execution.Action
import UiSuite.Execution.StepError
import UiSuite.Execution.Waiting
import UiSuite.Selector.Matching

/-! Targets: the element a step is about.

A step names its target by a selector, else by an alias registered before, else by what
its action falls back on. The step waits until something matches, takes the match its
index names, and registers the query under its own alias. -/
namespace UiSuite

/-- An element that was found, the query it was found by, and whether the step named it. -/
structure Target where
  query : Query
  element : Element
  isExplicit : Bool

namespace Step

/-- The query of a step, and whether the step names it. -/
def query (aliases : AliasTable) (action : Action) (fallback : Option Query) (s : Step) :
    Except StepError (Query × Bool) :=
  match s.usedSelector, s.usedAlias with
  | some selector, _ =>
    match aliases.resolve (.parse selector) with
    | .ok q => .ok (q, true)
    | .error name => .error (.aliasNotFound name)
  | none, some name =>
    match aliases.get? name, fallback with
    | some stored, _ => .ok (stored, true)
    | none, some q => .ok (q, false)
    | none, none => .error (.aliasNotFound name)
  | none, none =>
    match fallback with
    | some q => .ok (q, false)
    | none => .error (.missingTarget action.tag)

/-- An unknown type name, where those are refused. -/
def refusedName (config : Config) (q : Query) : Option String :=
  match q.strategy with
  | .unknownKind name => if config.strictTypeNames then some name else none
  | _ => none

/-- The match a query takes, of those shown. -/
def pick (q : Query) (roots : List Element) : Except StepError Element :=
  let found := q.matching roots
  match found[q.place]? with
  | some e => .ok e
  | none => .error (.indexOutOfRange q.render q.place found.length)

variable {σ : Type} [Surface σ]

/-- Waits for a query to match. -/
def await (config : Config) (q : Query) (s : Step) (w : World σ) : Waited σ :=
  w.waitFor (fun roots => !(q.matching roots).isEmpty)
    (s.waitMillis config.waits.elementTimeout) config.waits.pollInterval

/-- Registers the query of a step under its alias, if it has one. -/
def registerAlias (s : Step) (q : Query) (w : World σ) : World σ :=
  match s.usedAlias with
  | some name => { w with aliases := w.aliases.register name q }
  | none => w

/-- Finds the target of a step. -/
def obtain (config : Config) (action : Action) (fallback : Option Query) (s : Step)
    (w : World σ) : Except StepError Target × World σ :=
  match s.query w.aliases action fallback with
  | .error e => (.error e, w)
  | .ok (q, isExplicit) =>
    match refusedName config q with
    | some name => (.error (.unknownTypeName name), w)
    | none =>
      let waited := s.await config q w
      if !waited.isMet then
        (.error (.timeout ("at least one match for '" ++ q.render ++ "'")
          (s.waitMillis config.waits.elementTimeout)), waited.world)
      else
        let (roots, w) := waited.world.look
        match pick q roots with
        | .error e => (.error e, w)
        | .ok element => (.ok ⟨q, element, isExplicit⟩, s.registerAlias q w)

end Step
end UiSuite
