import UiSuite.Proofs.Execution.History
import UiSuite.Proofs.Report.Lines
import UiSuite.Surface.Stage

/-! The events of a run.

Who reads the lines of a run finds its cases in order, each with its start and its end, and
the summary after them; no text of a suite adds an event or hides one. The tally of the run
is what these events count (`Suite.events_run`). -/
namespace UiSuite

open Report (Entry Event Tally events failedDescriptions)

variable {σ : Type} [Surface σ] (config : Config)

namespace Chapter

/-- The events of the case: its source label unless that was announced last, its start, and
how it ended. -/
def events (suiteSource last : Option String) (ch : Chapter σ) : List Event :=
  let label := ch.label suiteSource
  ((label.filter (some · ≠ last)).map Event.sourceFile).toList ++
    [.caseStart ch.testCase.description label,
      .caseResult ch.testCase.description (ch.verdict config).status
        ((ch.failure config).map StepFailure.message) label]

end Chapter

/-- The events of cases, after a source label was announced last. -/
def eventsTold (suiteSource : Option String) : Option String → List (Chapter σ) → List Event
  | _, [] => []
  | last, ch :: rest =>
    ch.events config suiteSource last ++
      eventsTold suiteSource ((ch.label suiteSource).or last) rest

/-! ### What is written for each occasion -/

theorem Chapter.faithful_banner (last label : Option String) :
    ∀ e ∈ Chapter.banner last label, e.Faithful := by
  cases label with
  | none => exact List.forall_mem_nil _
  | some path =>
    rw [Chapter.banner]
    split
    · exact List.forall_mem_nil _
    · exact Entry.faithful_ofSource path

theorem Deed.faithful_entries (d : Deed σ) : ∀ e ∈ d.entries config, e.Faithful := by
  rw [Deed.entries]
  split
  · exact Entry.faithful_ofSkip _ _
  · exact List.forall_mem_nil _
  · exact List.forall_mem_nil _

theorem Chapter.faithful_ending (description : String) (label : Option String)
    (failure : Option StepFailure) :
    ∀ e ∈ Chapter.ending description label failure, e.Faithful := by
  cases failure with
  | none => exact Entry.faithful_ofPass description label
  | some f => exact Entry.faithful_ofFailure description f.message label

theorem Chapter.faithful_entries (suiteSource last : Option String) (ch : Chapter σ) :
    ∀ e ∈ ch.entries config suiteSource last, e.Faithful := by
  simp only [Chapter.entries, List.forall_mem_append]
  refine ⟨⟨⟨faithful_banner last _, Entry.faithful_ofStart _ _⟩, ?_⟩, faithful_ending _ _ _⟩
  intro e he
  obtain ⟨d, -, he⟩ := List.mem_flatMap.1 he
  exact d.faithful_entries config e he

theorem faithful_told (suiteSource last : Option String) (chs : List (Chapter σ)) :
    ∀ e ∈ told config suiteSource last chs, e.Faithful := by
  induction chs generalizing last with
  | nil => exact List.forall_mem_nil _
  | cons ch rest ih =>
    exact List.forall_mem_append.2 ⟨ch.faithful_entries config suiteSource last, ih _⟩

/-! ### The events among the entries -/

theorem Chapter.events_banner (last label : Option String) :
    (Chapter.banner last label).filterMap Entry.event? =
      ((label.filter (some · ≠ last)).map Event.sourceFile).toList := by
  cases label with
  | none => rfl
  | some path =>
    by_cases h : last = some path
    · simp [Chapter.banner, h]
    · have hne : some path ≠ last := fun he => h he.symm
      simp [Chapter.banner, h, hne, Option.filter, Entry.ofSource, Entry.event?]

/-- Steps tell no event. -/
theorem Deed.events_entries (d : Deed σ) : (d.entries config).filterMap Entry.event? = [] := by
  rw [Deed.entries]
  split <;> rfl

theorem Chapter.events_ending (description : String) (label : Option String)
    (failure : Option StepFailure) :
    (Chapter.ending description label failure).filterMap Entry.event? =
      [.caseResult description (Chapter.verdictOf description failure).status
        (failure.map StepFailure.message) label] := by
  cases failure <;> rfl

theorem Chapter.events_entries (suiteSource last : Option String) (ch : Chapter σ) :
    (ch.entries config suiteSource last).filterMap Entry.event? =
      ch.events config suiteSource last := by
  have hsteps : ((ch.deeds config).flatMap (Deed.entries config)).filterMap Entry.event? = [] := by
    rw [List.filterMap_flatMap]
    simp [Deed.events_entries]
  simp only [Chapter.entries, List.filterMap_append, events_banner, hsteps, events_ending,
    List.append_assoc]
  rfl

theorem events_told (suiteSource last : Option String) (chs : List (Chapter σ)) :
    (told config suiteSource last chs).filterMap Entry.event? =
      eventsTold config suiteSource last chs := by
  induction chs generalizing last with
  | nil => rfl
  | cons ch rest ih => rw [told, List.filterMap_append, Chapter.events_entries, ih, eventsTold]

omit [Surface σ] in
theorem events_ofSummary (passed failed : Nat) (failedTests : List String) :
    (Entry.ofSummary passed failed failedTests).filterMap Entry.event? =
      [.summary passed failed failedTests] := by
  by_cases hempty : failedTests = []
  · subst hempty
    rfl
  · simp [Entry.ofSummary, Entry.event?, hempty]

/-- Every case tells one verdict, its own. -/
theorem verdicts_eventsTold (suiteSource last : Option String) (chs : List (Chapter σ)) :
    (eventsTold config suiteSource last chs).filterMap Event.verdict? =
      chs.map (Chapter.verdict config) := by
  induction chs generalizing last with
  | nil => rfl
  | cons ch rest ih =>
    have hbanner : (((ch.label suiteSource).filter (some · ≠ last)).map
        Event.sourceFile).toList.filterMap Event.verdict? = [] := by
      cases (ch.label suiteSource).filter (some · ≠ last) <;> rfl
    rw [eventsTold, List.filterMap_append, ih, Chapter.events, List.filterMap_append, hbanner]
    rfl

/-! ### The run of a suite -/

/-- A run comes to the world its last case left. -/
theorem Suite.world_run (suite : Suite) (world : World σ) (source : Option String) :
    (suite.run config world source).world =
      (chapters config suite.cases world).foldl (fun _ ch => ch.after config) world := by
  rw [Suite.run, Run.cases_eq]
  rfl

/-- A run counts the verdicts of its cases. -/
theorem Suite.tally_run (suite : Suite) (world : World σ) (source : Option String) :
    (suite.run config world source).tally =
      .ofVerdicts ((chapters config suite.cases world).map (Chapter.verdict config)) := by
  rw [Suite.run, Run.cases_eq]
  rfl

/-- A run writes what is told of its cases, and the summary. -/
theorem Suite.entries_run (suite : Suite) (world : World σ) (source : Option String) :
    (suite.run config world source).entries =
      told config suite.source source (chapters config suite.cases world) ++
        Entry.ofSummary (suite.run config world source).tally.passed
          (suite.run config world source).tally.failed
          (suite.run config world source).tally.failedTests := by
  rw [Suite.run, Run.cases_eq]
  simp [Run.summarize, Run.write, Run.start]

/-- Every case is counted once. -/
theorem Suite.total_run (suite : Suite) (world : World σ) (source : Option String) :
    (suite.run config world source).tally.total = suite.cases.length := by
  rw [Suite.tally_run, Tally.total_ofVerdicts, List.length_map,
    ← List.length_map (f := Chapter.testCase), map_testCase_chapters]

/-- Every line a run writes shows its entry for what it is. -/
theorem Suite.faithful_run (suite : Suite) (world : World σ) (source : Option String)
    (h : suite.cases.length < UInt64.size) :
    ∀ e ∈ (suite.run config world source).entries, e.Faithful := by
  have htotal := suite.total_run config world source
  rw [Tally.total] at htotal
  rw [Suite.entries_run]
  refine List.forall_mem_append.2 ⟨faithful_told config _ _ _, ?_⟩
  exact Entry.faithful_ofSummary _ (by omega) (by omega)

/-- **The events in the lines of a run.** They are those of its cases in order and a summary
of its tally. A case failed exactly when a step of it did, and the tally counts what the
events tell. A suite in memory has fewer cases than 64 bits can count. -/
theorem Suite.events_run (suite : Suite) (world : World σ) (source : Option String)
    (h : suite.cases.length < UInt64.size) :
    let r := suite.run config world source
    let chs := chapters config suite.cases world
    let es := events (r.entries.map Entry.line)
    let vs := es.filterMap Event.verdict?
    chs.map (·.testCase) = suite.cases ∧
      es = eventsTold config suite.source source chs ++
        [.summary r.tally.passed r.tally.failed r.tally.failedTests] ∧
      (∀ ch ∈ chs, ∀ f, ch.failure config = some f ↔
        ∃ d ∈ ch.deeds config, d.outcome config = .error f) ∧
      r.tally.passed + r.tally.failed = suite.cases.length ∧
      r.tally.passed = vs.countP (·.status = .passed) ∧
      r.tally.failed = vs.countP (·.status = .failed) ∧
      r.tally.failedTests = (failedDescriptions vs).eraseDups := by
  intro r chs es vs
  have htotal : r.tally.passed + r.tally.failed = suite.cases.length :=
    suite.total_run config world source
  have hes : es = eventsTold config suite.source source chs ++
      [.summary r.tally.passed r.tally.failed r.tally.failedTests] := by
    show events (r.entries.map Entry.line) = _
    rw [Report.events_map_line (suite.faithful_run config world source h),
      show r.entries = _ from suite.entries_run config world source, List.filterMap_append,
      events_told, events_ofSummary]
  have hvs : vs = chs.map (Chapter.verdict config) := by
    show es.filterMap Event.verdict? = _
    rw [hes, List.filterMap_append, verdicts_eventsTold]
    simp [Event.verdict?]
  have htally : r.tally = Tally.ofVerdicts vs := by
    rw [hvs]
    exact suite.tally_run config world source
  rw [Tally.ofVerdicts_eq] at htally
  refine ⟨map_testCase_chapters config _ _, hes, fun ch _ f => Chapter.failure_eq_some config,
    htotal, ?_, ?_, ?_⟩
  · rw [htally]
  · rw [htally]
  · rw [htally]

/-- A suite of a case that fails, as its step names no target, and a case without steps. -/
def doorSuite : Suite :=
  ⟨"doors", some "doors.yaml",
    [⟨"open", none, [{ Step.blank with action := "click" }]⟩, ⟨"wait", some "b.yaml", []⟩]⟩

/-- The suite of doors tells of both its cases, although the first one fails. -/
theorem Suite.events_run_doorSuite :
    doorSuite.cases.length < UInt64.size ∧
      events ((doorSuite.run Config.standard (.start Stage.empty) none).entries.map Entry.line) =
        [.sourceFile "doors.yaml", .caseStart "open" (some "doors.yaml"),
          .caseResult "open" .failed
            (some "step 1 (click (fallback)) failed: action 'click' requires a selector or an alias")
            (some "doors.yaml"),
          .sourceFile "b.yaml", .caseStart "wait" (some "b.yaml"),
          .caseResult "wait" .passed none (some "b.yaml"), .summary 1 1 ["open"]] := by
  have hlength : doorSuite.cases.length < UInt64.size := by decide
  have hevents := (Suite.events_run Config.standard doorSuite (.start Stage.empty) none hlength).2.1
  exact ⟨hlength, hevents.trans (by decide)⟩

end UiSuite
