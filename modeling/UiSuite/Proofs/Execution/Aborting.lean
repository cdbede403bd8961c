import Mathlib.Data.List.Forall2
import UiSuite.Proofs.Execution.History
import UiSuite.Proofs.Surface.Recording

/-! A failed step aborts its case and does nothing else.

A case whose failing step is the last one of it, since what came after was cut off, has the
same deeds (`Chapter.deeds_cut`); so a suite with all its failing cases cut runs as the suite
does. On a stage, a deed records the tap or the text it performed, and a deed that failed or
did something else records nothing (`Deed.exists_records`). Both together are what a failure
can do to a run (`Suite.run_cut`). -/
namespace UiSuite

variable {σ : Type} [Surface σ] (config : Config)

/-! ### Cutting off -/

/-- A failed step tells its place, counted from 1. -/
theorem Deed.step_of_failure {d : Deed σ} {f : StepFailure} (h : d.failure config = some f) :
    f.step = d.place + 1 := by
  have hout := (Deed.failure_eq_some config).1 h
  rw [Deed.outcome, Step.execute_eq] at hout
  cases hperform : (d.step.perform config (Action.ofTag d.step.action) d.before).1 with
  | error e =>
    simp only [hperform, Except.mapError, Except.error.injEq] at hout
    rw [← hout]
  | ok o =>
    simp only [hperform, Except.mapError] at hout
    cases hout

/-- Where steps fail, the failing one is the last executed. -/
theorem step_eq_length {place : Nat} {ss : List Step} {w : World σ} {f : StepFailure}
    (h : (deeds config place ss w).findSome? (Deed.failure config) = some f) :
    f.step = place + (deeds config place ss w).length := by
  induction ss generalizing place w with
  | nil => cases h
  | cons s rest ih =>
    rw [deeds] at h ⊢
    cases hfail : Deed.failure config ⟨place, s, w⟩ with
    | some g =>
      simp only [hfail, List.findSome?_cons, Option.some.injEq] at h
      subst h
      exact Deed.step_of_failure config hfail
    | none =>
      simp only [hfail, List.findSome?_cons] at h
      have hstep := ih h
      simp only [List.length_cons]
      omega

/-- The steps executed, executed by themselves. -/
theorem deeds_map_step (place : Nat) (ss : List Step) (w : World σ) :
    deeds config place ((deeds config place ss w).map (·.step)) w = deeds config place ss w := by
  induction ss generalizing place w with
  | nil => rfl
  | cons s rest ih =>
    rw [deeds]
    cases hfail : Deed.failure config ⟨place, s, w⟩ with
    | some f => simp [deeds, hfail]
    | none => simp [deeds, hfail, ih]

namespace Chapter

/-- The case without what comes after its failing step, if it has one. -/
def cut (ch : Chapter σ) : TestCase :=
  match ch.failure config with
  | none => ch.testCase
  | some f => { ch.testCase with steps := ch.testCase.steps.take f.step }

/-- What is left of a cut case are the steps executed. -/
theorem steps_cut (ch : Chapter σ) :
    (ch.cut config).steps = (ch.deeds config).map (·.step) := by
  cases hfail : ch.failure config with
  | none =>
    rw [failure, List.findSome?_eq_none_iff] at hfail
    rw [cut, failure, List.findSome?_eq_none_iff.2 hfail]
    exact (map_step_deeds config hfail).symm
  | some f =>
    have hbegin := deeds_begin config 0 ch.testCase.steps ch.before
    have hstep := step_eq_length config hfail
    rw [Nat.zero_add] at hstep
    rw [List.prefix_iff_eq_take, List.length_map, ← hstep] at hbegin
    rw [cut, hfail]
    exact hbegin.symm

/-- A cut case is what it was but for its steps. -/
theorem cut_eq (ch : Chapter σ) :
    ch.cut config = { ch.testCase with steps := (ch.deeds config).map (·.step) } := by
  rw [← steps_cut, cut]
  cases ch.failure config <;> rfl

/-- In the same world a cut case has the same deeds. -/
theorem deeds_cut (ch : Chapter σ) :
    Chapter.deeds config ⟨ch.cut config, ch.before⟩ = ch.deeds config := by
  rw [deeds, steps_cut]
  exact deeds_map_step config 0 ch.testCase.steps ch.before

end Chapter

/-- The suite with every failing case cut off after its failing step. -/
def Suite.cut (world : World σ) (suite : Suite) : Suite :=
  { suite with cases := (chapters config suite.cases world).map (Chapter.cut config) }

/-- A cut case runs as the case does. -/
theorem Run.case_cut (suiteSource : Option String) (r : Run σ) (c : TestCase) :
    Run.case config suiteSource r (Chapter.cut config ⟨c, r.world⟩) =
      Run.case config suiteSource r c := by
  have hdeeds := Chapter.deeds_cut config (⟨c, r.world⟩ : Chapter σ)
  rw [Chapter.cut_eq] at hdeeds ⊢
  simp only [Run.case_eq, Chapter.after, Chapter.verdict, Chapter.entries, Chapter.failure,
    Chapter.label, hdeeds]

theorem Run.cases_cut (suiteSource : Option String) (cs : List TestCase) (r : Run σ) :
    Run.cases config suiteSource ((chapters config cs r.world).map (Chapter.cut config)) r =
      Run.cases config suiteSource cs r := by
  induction cs generalizing r with
  | nil => rfl
  | cons c rest ih =>
    have hworld : (Run.case config suiteSource r c).world =
        Chapter.after config ⟨c, r.world⟩ := by rw [Run.case_eq]
    show Run.cases config suiteSource _
        (Run.case config suiteSource r (Chapter.cut config ⟨c, r.world⟩)) =
      Run.cases config suiteSource rest (Run.case config suiteSource r c)
    rw [Run.case_cut, ← hworld, ih]

/-! ### Recording -/

/-- What a deed on a stage records: the tap of the element it found if it performed a click,
the text it entered into it if it performed that, and nothing otherwise. -/
inductive Deed.Records (d : Deed Stage) : List Interaction → Prop
  | tap {t : Target} (hclick : Action.ofTag d.step.action = .click)
      (hperformed : d.outcome config = .ok .performed)
      (hfound : (d.step.obtain config .click none d.before).1 = .ok t) :
      Records d [.tap t.element.id]
  | enterText {t : Target} {value : String} (henter : Action.ofTag d.step.action = .enter)
      (hperformed : d.outcome config = .ok .performed) (hvalue : d.step.value = some value)
      (hfound : (d.step.obtain config .enter (some .textInput) d.before).1 = .ok t) :
      Records d [.enterText t.element.id value]
  | nothing (h : d.outcome config = .ok .performed →
      Action.ofTag d.step.action ≠ .click ∧ Action.ofTag d.step.action ≠ .enter) :
      Records d []

/-- A step that acts on its target has its one interaction recorded if it does not fail, and
none if it fails. -/
theorem Step.actOnTarget_interactions (action : Action) (fallback : Option Query)
    {act : Nat → Stage → Except SurfaceError Unit × Stage} (made : Nat → Interaction)
    (hok : ∀ {id u} {s t : Stage}, act id s = (.ok u, t) →
      t.interactions = s.interactions ++ [made id])
    (herror : ∀ {id e} {s t : Stage}, act id s = (.error e, t) → t = s)
    (s : Step) (w : World Stage) :
    (∃ t, (s.obtain config action fallback w).1 = .ok t ∧
      (s.actOnTarget config action fallback act w).1 = .ok .performed ∧
      (s.actOnTarget config action fallback act w).2.surface.interactions =
        w.surface.interactions ++ [made t.element.id]) ∨
    (∃ e, (s.actOnTarget config action fallback act w).1 = .error e) ∧
      (s.actOnTarget config action fallback act w).2.surface.interactions =
        w.surface.interactions := by
  have hwait := Stage.interactions_of_idles (Step.obtain_idles config action fallback s w)
  rcases hact : s.actOnTarget config action fallback act w with ⟨r, w'⟩
  cases r with
  | ok o =>
    obtain ⟨rfl, t, w₁, surface, hobtain, hdone, rfl⟩ := Step.actOnTarget_ok hact
    rw [hobtain] at hwait
    refine .inl ⟨t, by rw [hobtain], rfl, ?_⟩
    show (Stage.settle surface).interactions = _
    rw [Stage.settle_interactions, hok hdone, hwait]
  | error e =>
    refine .inr ⟨⟨e, rfl⟩, ?_⟩
    rcases Step.actOnTarget_error hact with hidles | ⟨t, w₁, cause, surface, hobtain, hdone, -, rfl⟩
    · exact Stage.interactions_of_idles hidles
    · rw [hobtain] at hwait
      show surface.interactions = _
      rw [herror hdone, hwait]

namespace Deed
variable {config}

theorem outcome_of_perform {d : Deed σ} {action : Action}
    (haction : Action.ofTag d.step.action = action) {o : StepOutcome}
    (h : (d.step.perform config action d.before).1 = .ok o) : d.outcome config = .ok o := by
  rw [outcome, Step.execute_eq, haction, h]
  rfl

theorem not_performed_of_perform {d : Deed σ} {action : Action}
    (haction : Action.ofTag d.step.action = action) {e : StepError}
    (h : (d.step.perform config action d.before).1 = .error e) :
    d.outcome config ≠ .ok .performed := by
  rw [outcome, Step.execute_eq, haction, h]
  intro hok
  cases hok

theorem after_eq (d : Deed σ) :
    d.after config = (d.step.perform config (Action.ofTag d.step.action) d.before).2 := by
  rw [after, Step.execute_eq]

end Deed

/-- A click that is performed records its tap. -/
theorem Deed.records_click {d : Deed Stage} (hclick : Action.ofTag d.step.action = .click) :
    ∃ is, d.Records config is ∧
      (d.after config).surface.interactions = d.before.surface.interactions ++ is := by
  rw [after_eq, hclick]
  rcases Step.actOnTarget_interactions config .click none .tap
      (fun h => by rw [Stage.tap_ok h]; rfl) Stage.tap_error d.step d.before with
    ⟨t, hfound, hperformed, hmade⟩ | ⟨⟨e, hfailed⟩, hsame⟩
  · exact ⟨_, .tap hclick (outcome_of_perform hclick hperformed) hfound, hmade⟩
  · have hnot : d.outcome config ≠ .ok .performed := not_performed_of_perform hclick hfailed
    refine ⟨[], .nothing fun h => absurd h hnot, ?_⟩
    rw [List.append_nil]
    exact hsame

/-- An entry of text that is performed records the text. -/
theorem Deed.records_enter {d : Deed Stage} (henter : Action.ofTag d.step.action = .enter) :
    ∃ is, d.Records config is ∧
      (d.after config).surface.interactions = d.before.surface.interactions ++ is := by
  rw [after_eq, henter]
  cases hvalue : d.step.value with
  | none =>
    have hperform : d.step.perform config .enter d.before =
        (.error (.missingField Action.enter.tag "value"), d.before) := by
      rw [Step.perform, hvalue]
    have hfailed := congrArg Prod.fst hperform
    have hnot := not_performed_of_perform henter hfailed
    refine ⟨[], .nothing fun h => absurd h hnot, ?_⟩
    rw [hperform, List.append_nil]
  | some value =>
    have hperform : d.step.perform config .enter d.before =
        d.step.actOnTarget config .enter (some .textInput)
          (fun id => Surface.enterText id value) d.before := by
      rw [Step.perform, hvalue]
    have houtcome := congrArg Prod.fst hperform
    rw [hperform]
    rcases Step.actOnTarget_interactions config .enter (some .textInput)
        (fun id => .enterText id value)
        (fun h => by obtain ⟨roots, -, rfl⟩ := Stage.enterText_ok h; rfl)
        Stage.enterText_error d.step d.before with
      ⟨t, hfound, hperformed, hmade⟩ | ⟨⟨e, hfailed⟩, hsame⟩
    · have hok := outcome_of_perform henter (houtcome.trans hperformed)
      exact ⟨_, .enterText henter hok hvalue hfound, hmade⟩
    · have hnot := not_performed_of_perform henter (houtcome.trans hfailed)
      refine ⟨[], .nothing fun h => absurd h hnot, ?_⟩
      rw [List.append_nil]
      exact hsame

/-- Every deed on a stage leaves its records, after what was there. -/
theorem Deed.exists_records (d : Deed Stage) :
    ∃ is, d.Records config is ∧
      (d.after config).surface.interactions = d.before.surface.interactions ++ is := by
  by_cases hclick : Action.ofTag d.step.action = .click
  · exact records_click config hclick
  · by_cases henter : Action.ofTag d.step.action = .enter
    · exact records_enter config henter
    · refine ⟨[], .nothing fun _ => ⟨hclick, henter⟩, ?_⟩
      rw [after_eq, List.append_nil]
      exact Stage.interactions_of_idles (Step.perform_idles hclick henter)

/-- What the steps of a case leave recorded. -/
theorem deeds_records (place : Nat) (ss : List Step) (w : World Stage) :
    ∃ records, List.Forall₂ (Deed.Records config) (deeds config place ss w) records ∧
      (worldAfter config w (deeds config place ss w)).surface.interactions =
        w.surface.interactions ++ records.flatten := by
  induction ss generalizing place w with
  | nil => exact ⟨[], .nil, (List.append_nil _).symm⟩
  | cons s rest ih =>
    obtain ⟨is, hrecords, hafter⟩ := Deed.exists_records config ⟨place, s, w⟩
    rw [deeds]
    cases hfail : Deed.failure config ⟨place, s, w⟩ with
    | some f =>
      refine ⟨[is], .cons hrecords .nil, ?_⟩
      simp only [worldAfter, List.foldl_cons, List.foldl_nil, List.flatten_cons,
        List.flatten_nil, List.append_nil]
      exact hafter
    | none =>
      obtain ⟨records, hrest, hend⟩ := ih (place + 1) (Deed.after config ⟨place, s, w⟩)
      refine ⟨is :: records, .cons hrecords hrest, ?_⟩
      rw [List.flatten_cons, ← List.append_assoc, ← hafter]
      exact hend

/-- What the cases of a suite leave recorded. -/
theorem chapters_records (cs : List TestCase) (w : World Stage) :
    ∃ records, List.Forall₂ (Deed.Records config)
        ((chapters config cs w).flatMap (Chapter.deeds config)) records ∧
      ((chapters config cs w).foldl (fun _ ch => ch.after config) w).surface.interactions =
        w.surface.interactions ++ records.flatten := by
  induction cs generalizing w with
  | nil => exact ⟨[], .nil, (List.append_nil _).symm⟩
  | cons c rest ih =>
    obtain ⟨first, hfirst, hafter⟩ := deeds_records config 0 c.steps w
    obtain ⟨later, hlater, hend⟩ := ih (Chapter.after config ⟨c, w⟩)
    refine ⟨first ++ later, List.rel_append hfirst hlater, ?_⟩
    rw [List.flatten_append, ← List.append_assoc, ← hafter]
    exact hend

/-! ### The run of a suite -/

/-- **What a failure can do to a run.** Cutting off what comes after the failing steps, where
the steps executed end, changes nothing about the run. What the stage has recorded at the end
are the records of all deeds in their order. -/
theorem Suite.run_cut (suite : Suite) (world : World Stage) (source : Option String) :
    let chs := chapters config suite.cases world
    (suite.cut config world).run config world source = suite.run config world source ∧
      chs.map (·.testCase) = suite.cases ∧
      (∀ ch ∈ chs, (ch.cut config).steps = (ch.deeds config).map (·.step) ∧
        (∀ d ∈ (ch.deeds config).dropLast, d.failure config = none) ∧
        ((∀ d ∈ ch.deeds config, d.failure config = none) → ch.cut config = ch.testCase)) ∧
      ∃ records, List.Forall₂ (Deed.Records config) (chs.flatMap (Chapter.deeds config)) records ∧
        (suite.run config world source).world.surface.interactions =
          world.surface.interactions ++ records.flatten := by
  intro chs
  refine ⟨?_, map_testCase_chapters config suite.cases world, ?_, ?_⟩
  · have hcases := Run.cases_cut config suite.source suite.cases (Run.start world source)
    rw [Suite.run, Suite.run]
    exact congrArg Run.summarize hcases
  · intro ch _
    refine ⟨ch.steps_cut config, fun d hd => failure_of_mem_dropLast config hd, fun h => ?_⟩
    rw [Chapter.cut, Chapter.failure, List.findSome?_eq_none_iff.2 h]
  · obtain ⟨records, hrecords, hend⟩ := chapters_records config suite.cases world
    refine ⟨records, hrecords, ?_⟩
    rw [Suite.run, Run.cases_eq]
    exact hend

end UiSuite
