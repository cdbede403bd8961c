import UiSuite.Proofs.Execution.Performing
import UiSuite.Proofs.Execution.Succession

/-! Steps that are skipped.

A step is foreign if its tag names no action. It is skipped, whatever else it holds; only a blank
tag is an error. Without foreign steps a case comes to the same world, and if it fails, the same
step fails for the same cause, under another number perhaps (`Chapter.cause_withoutForeign`). So
foreign steps do not show in the run of a suite, but for that number and the lines that tell of
them (`Suite.run_withoutForeign`). -/
namespace UiSuite

open Report (Event)

/-- The tags of all actions. -/
def Action.tags : List String :=
  ["wait", "click", "type", "input", "assert_text", "verify_text", "assert_visible",
    "verify_visible"]

/-- Whether the tag of a step is not blank and names no action. -/
def Step.isForeign (s : Step) : Bool :=
  Text.trimmed s.action ≠ "" ∧ Text.trimmed s.action ∉ Action.tags

/-- The case without its foreign steps. -/
def TestCase.withoutForeign (c : TestCase) : TestCase :=
  { c with steps := c.steps.filter (!·.isForeign) }

/-- The suite without the foreign steps of its cases. -/
def Suite.withoutForeign (s : Suite) : Suite :=
  { s with cases := s.cases.map TestCase.withoutForeign }

@[simp] theorem Suite.cases_withoutForeign (s : Suite) :
    s.withoutForeign.cases = s.cases.map TestCase.withoutForeign :=
  rfl

@[simp] theorem Suite.source_withoutForeign (s : Suite) : s.withoutForeign.source = s.source :=
  rfl

/-- What a failure says, but for the number of the step. -/
def StepFailure.cause (f : StepFailure) : String × StepError :=
  (f.context, f.error)

/-- An event without the reason it gives, if it gives one. -/
def Report.Event.withoutReason : Event → Event
  | caseResult description status _ label => caseResult description status none label
  | e => e

/-- A reason announces no source label. -/
theorem announcedAfter_withoutReason (last : Option String) (es : List Event) :
    announcedAfter last (es.map Event.withoutReason) = announcedAfter last es := by
  have hsame : Event.announced? ∘ Event.withoutReason = Event.announced? := by
    funext e
    cases e <;> rfl
  rw [announcedAfter, announcedAfter, List.filterMap_map, hsame]

variable {σ : Type} [Surface σ] (config : Config)

/-! ### Steps -/

theorem Action.ofTag_of_not_mem {tag : String} (h : Text.trimmed tag ∉ tags) :
    ofTag tag = .unknown (Text.trimmed tag) := by
  rw [ofTag]
  split <;> simp_all [tags]

/-- A foreign step is skipped, and the world is as before. -/
theorem Step.execute_of_isForeign {s : Step} (h : s.isForeign) (place : Nat) (w : World σ) :
    s.execute config place w = (.ok (.skipped (Text.trimmed s.action)), w) := by
  obtain ⟨hpresent, hforeign⟩ := of_decide_eq_true h
  rw [execute_eq, Action.ofTag_of_not_mem hforeign, perform, if_neg hpresent]
  rfl

namespace Deed

theorem failure_of_isForeign {d : Deed σ} (h : d.step.isForeign) : d.failure config = none := by
  rw [failure, outcome, d.step.execute_of_isForeign config h]

theorem after_of_isForeign {d : Deed σ} (h : d.step.isForeign) : d.after config = d.before := by
  rw [after, d.step.execute_of_isForeign config h]

/-- Why a step fails is the same at every place. -/
theorem cause_place (i j : Nat) (s : Step) (w : World σ) :
    (failure config ⟨i, s, w⟩).map StepFailure.cause =
      (failure config ⟨j, s, w⟩).map StepFailure.cause := by
  rw [failure, failure, outcome, outcome, Step.execute_eq, Step.execute_eq]
  cases (s.perform config (Action.ofTag s.action) w).1 <;> rfl

/-- What a step leaves is the same at every place. -/
theorem after_place (i j : Nat) (s : Step) (w : World σ) :
    after config ⟨i, s, w⟩ = after config ⟨j, s, w⟩ := by
  rw [after, after, Step.execute_eq, Step.execute_eq]

end Deed

/-- Steps without the foreign ones come to the same end, at whatever place they begin. -/
theorem deeds_filter_isForeign (i j : Nat) (ss : List Step) (w : World σ) :
    let kept := deeds config i (ss.filter (!·.isForeign)) w
    let all := deeds config j ss w
    (kept.findSome? (Deed.failure config)).map StepFailure.cause =
        (all.findSome? (Deed.failure config)).map StepFailure.cause ∧
      worldAfter config w kept = worldAfter config w all := by
  induction ss generalizing i j w with
  | nil => exact ⟨rfl, rfl⟩
  | cons s rest ih =>
    by_cases hforeign : s.isForeign
    · -- The step is left out of the one list, and does nothing in the other.
      have hfail := Deed.failure_of_isForeign config (d := ⟨j, s, w⟩) hforeign
      have hafter := Deed.after_of_isForeign config (d := ⟨j, s, w⟩) hforeign
      have hrest := ih i (j + 1) w
      simpa [hforeign, deeds, hfail, hafter, worldAfter] using hrest
    · -- The step is executed in both, and fails in both or in none.
      have hcause := Deed.cause_place config i j s w
      have hafter := Deed.after_place config i j s w
      cases hfail : Deed.failure config ⟨j, s, w⟩ with
      | some f =>
        rw [hfail, Option.map_some, Option.map_eq_some_iff] at hcause
        obtain ⟨g, hg, hsame⟩ := hcause
        simp [hforeign, deeds, hfail, hg, hsame, hafter, worldAfter]
      | none =>
        rw [hfail, Option.map_none, Option.map_eq_none_iff] at hcause
        have hrest := ih (i + 1) (j + 1) (Deed.after config ⟨j, s, w⟩)
        simpa [hforeign, deeds, hfail, hcause, hafter, worldAfter] using hrest

/-! ### Cases -/

namespace Chapter

/-- The case without its foreign steps, in the world it began in. -/
def withoutForeign (ch : Chapter σ) : Chapter σ :=
  ⟨ch.testCase.withoutForeign, ch.before⟩

theorem cause_withoutForeign (ch : Chapter σ) :
    (ch.withoutForeign.failure config).map StepFailure.cause =
      (ch.failure config).map StepFailure.cause :=
  (deeds_filter_isForeign config 0 0 ch.testCase.steps ch.before).1

theorem after_withoutForeign (ch : Chapter σ) : ch.withoutForeign.after config = ch.after config :=
  (deeds_filter_isForeign config 0 0 ch.testCase.steps ch.before).2

/-- The case passes or fails as it does with all its steps. -/
theorem verdict_withoutForeign (ch : Chapter σ) :
    ch.withoutForeign.verdict config = ch.verdict config := by
  have hsome := congrArg Option.isSome (ch.cause_withoutForeign config)
  rw [Option.isSome_map, Option.isSome_map] at hsome
  rw [verdict, verdict, verdictOf, verdictOf, hsome]
  rfl

theorem events_withoutForeign (suiteSource last : Option String) (ch : Chapter σ) :
    (ch.withoutForeign.events config suiteSource last).map Event.withoutReason =
      (ch.events config suiteSource last).map Event.withoutReason := by
  simp only [events, verdict_withoutForeign, List.map_append, List.map_cons, Event.withoutReason]
  rfl

end Chapter

theorem chapters_withoutForeign (cs : List TestCase) (w : World σ) :
    chapters config (cs.map TestCase.withoutForeign) w =
      (chapters config cs w).map Chapter.withoutForeign := by
  induction cs generalizing w with
  | nil => rfl
  | cons c rest ih =>
    have hafter := Chapter.after_withoutForeign config ⟨c, w⟩
    rw [List.map_cons, chapters, chapters, List.map_cons, ← ih, ← hafter]
    rfl

theorem eventsTold_withoutForeign (suiteSource last : Option String) (chs : List (Chapter σ)) :
    (eventsTold config suiteSource last (chs.map Chapter.withoutForeign)).map Event.withoutReason =
      (eventsTold config suiteSource last chs).map Event.withoutReason := by
  induction chs generalizing last with
  | nil => rfl
  | cons ch rest ih =>
    rw [List.map_cons, eventsTold, eventsTold, List.map_append, List.map_append,
      ch.events_withoutForeign, ← ih]
    rfl

/-! ### Suites -/

theorem Suite.tally_withoutForeign (suite : Suite) (world : World σ) (source : Option String) :
    (suite.withoutForeign.run config world source).tally =
      (suite.run config world source).tally := by
  rw [Suite.tally_run, Suite.tally_run, Suite.cases_withoutForeign, chapters_withoutForeign,
    List.map_map]
  exact congrArg _ (List.map_congr_left fun ch _ => ch.verdict_withoutForeign config)

theorem Suite.world_withoutForeign (suite : Suite) (world : World σ) (source : Option String) :
    (suite.withoutForeign.run config world source).world =
      (suite.run config world source).world := by
  rw [Suite.world_run, Suite.world_run, Suite.cases_withoutForeign, chapters_withoutForeign,
    List.foldl_map]
  simp only [Chapter.after_withoutForeign]

theorem Suite.events_withoutForeign (suite : Suite) (world : World σ) (source : Option String) :
    (suite.withoutForeign.run config world source).events.map Event.withoutReason =
      (suite.run config world source).events.map Event.withoutReason := by
  rw [Suite.events_eq, Suite.events_eq, Suite.tally_withoutForeign, Suite.cases_withoutForeign,
    Suite.source_withoutForeign, chapters_withoutForeign, List.map_append, List.map_append,
    eventsTold_withoutForeign]

/-- **Foreign steps do not show in a run.** Without them the tally, the world and the source label
announced last are the same, and so are the events, but for the reasons they give. -/
theorem Suite.run_withoutForeign (suite : Suite) (world : World σ) (source : Option String) :
    let all := suite.run config world source
    let kept := suite.withoutForeign.run config world source
    kept.tally = all.tally ∧ kept.world = all.world ∧ kept.source = all.source ∧
      kept.events.map Event.withoutReason = all.events.map Event.withoutReason := by
  intro all kept
  have hworld : kept.world = all.world := suite.world_withoutForeign config world source
  have hevents : kept.events.map Event.withoutReason = all.events.map Event.withoutReason :=
    suite.events_withoutForeign config world source
  have hsource : kept.source = all.source := by
    calc kept.source = announcedAfter source (kept.events.map Event.withoutReason) := by
          rw [announcedAfter_withoutReason]
          exact suite.withoutForeign.source_run config world source
      _ = announcedAfter source (all.events.map Event.withoutReason) := by rw [hevents]
      _ = all.source := by
          rw [announcedAfter_withoutReason]
          exact (suite.source_run config world source).symm
  exact ⟨suite.tally_withoutForeign config world source, hworld, hsource, hevents⟩

-- A step with a blank tag stays: it is not skipped but fails.
example :
    (TestCase.mk "open" none [⟨" hover ", some "door", some "d", none, none, none⟩,
      { Step.blank with action := " " }]).withoutForeign =
        ⟨"open", none, [{ Step.blank with action := " " }]⟩ := by
  decide

end UiSuite
