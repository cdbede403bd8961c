import Mathlib.Data.List.Destutter
import UiSuite.Proofs.Execution.Events

/-! Runs one after the other.

What a run takes over from the one before it is the world and the source label announced last;
what it has counted and written stays its own. So a suite in two parts runs as the whole does,
but for the summaries (`Suite.run_split`). And whatever suites one runner runs, a source label
is announced where it changes, so the one announced last before a case is the one of the case
(`Suite.announced_runs`). -/
namespace UiSuite

open Report (Entry Event Tally)

variable {σ : Type} [Surface σ] (config : Config)

/-! ### A suite in two parts -/

/-- The summary that a tally is told by. -/
def Report.Tally.summary (t : Tally) : List Entry :=
  Entry.ofSummary t.passed t.failed t.failedTests

/-- Cases that a run goes on with do what they do in a run of their own: the world and the label
are the same, and what they count and write comes after what was there. -/
theorem Run.cases_resume (suiteSource : Option String) (cs : List TestCase)
    {vs : List Report.Verdict} {r : Run σ} (htally : r.tally = .ofVerdicts vs) :
    let own := Run.cases config suiteSource cs (.start r.world r.source)
    let whole := Run.cases config suiteSource cs r
    whole.world = own.world ∧ whole.source = own.source ∧
      whole.tally = r.tally.merge own.tally ∧ whole.entries = r.entries ++ own.entries := by
  intro own whole
  have hown : own = _ := Run.cases_eq config suiteSource cs (.start r.world r.source)
  have hwhole : whole = _ := Run.cases_eq config suiteSource cs r
  rw [hown, hwhole]
  refine ⟨rfl, rfl, ?_, rfl⟩
  rw [htally]
  exact Tally.foldl_add_ofVerdicts vs _

/-- **A suite in two parts.** Running its first cases, and then the others in the world and with
the label that the first run left, comes to the same world and the same label as running all of
them. Without its summary, what the whole run writes is what the two write without theirs, and its
tally is theirs merged. -/
theorem Suite.run_split (name : String) (label : Option String) (a b : List TestCase)
    (world : World σ) (source : Option String) :
    let whole := Suite.run config ⟨name, label, a ++ b⟩ world source
    let first := Suite.run config ⟨name, label, a⟩ world source
    let second := Suite.run config ⟨name, label, b⟩ first.world first.source
    second.world = whole.world ∧ second.source = whole.source ∧
      whole.tally = first.tally.merge second.tally ∧
      ∃ before after, first.entries = before ++ first.tally.summary ∧
        second.entries = after ++ second.tally.summary ∧
        whole.entries = before ++ after ++ whole.tally.summary := by
  intro whole first second
  have hfirst := Suite.tally_run config ⟨name, label, a⟩ world source
  obtain ⟨hworld, hsource, htally, hentries⟩ :=
    Run.cases_resume config label b (r := Run.cases config label a (.start world source)) hfirst
  rw [← Run.cases_append] at hworld hsource htally hentries
  refine ⟨hworld.symm, hsource.symm, htally, _, _, rfl, rfl, ?_⟩
  exact congrArg (· ++ whole.tally.summary) hentries

/-! ### Source labels -/

/-- The source label an event announces, if it announces one. -/
def Report.Event.announced? : Event → Option String
  | sourceFile path => some path
  | caseStart .. | caseResult .. | summary .. => none

/-- The source label announced last after events, and before them. -/
def announcedAfter (last : Option String) (es : List Event) : Option String :=
  (es.filterMap Event.announced?).getLast?.or last

/-- Whether every case with a source label starts when that label was announced last. -/
def Labelled : Option String → List Event → Prop
  | _, [] => True
  | _, .sourceFile path :: es => Labelled (some path) es
  | last, .caseStart _ label :: es =>
    (∀ path, label = some path → last = some path) ∧ Labelled last es
  | last, .caseResult .. :: es | last, .summary .. :: es => Labelled last es

/-- Labels that differ from the one before them. -/
def changes : Option String → List String → List String
  | _, [] => []
  | last, path :: rest =>
    if last = some path then changes last rest else path :: changes (some path) rest

/-- The source labels of the cases of a suite that have one, in order. -/
def Suite.labels (s : Suite) : List String :=
  s.cases.filterMap fun c => c.sourceFile.or s.source

theorem getLast?_cons_or (last : Option String) (path : String) (rest : List String) :
    (path :: rest).getLast?.or last = rest.getLast?.or (some path) := by
  cases h : rest.getLast? <;> simp [List.getLast?_cons, h]

theorem changes_append (last : Option String) (a b : List String) :
    changes last (a ++ b) = changes last a ++ changes (a.getLast?.or last) b := by
  induction a generalizing last with
  | nil => rfl
  | cons path rest ih =>
    rw [getLast?_cons_or, List.cons_append, changes, changes]
    split
    · rename_i hlast
      rw [ih, hlast]
    · rw [ih, List.cons_append]

/-- The last label is the last that differs from the one before it. -/
theorem getLast?_changes (last : Option String) (paths : List String) :
    (changes last paths).getLast?.or last = paths.getLast?.or last := by
  induction paths generalizing last with
  | nil => rfl
  | cons path rest ih =>
    rw [getLast?_cons_or, changes]
    split
    · rename_i hlast
      rw [ih, hlast]
    · rw [getLast?_cons_or, ih]

/-- Where no label was announced before, the changes are the labels without those that repeat the
one before them. -/
theorem changes_none (paths : List String) : changes none paths = paths.destutter (· ≠ ·) := by
  have hafter (path : String) (rest : List String) :
      rest.destutter' (· ≠ ·) path = path :: changes (some path) rest := by
    induction rest generalizing path with
    | nil => rfl
    | cons next rest ih =>
      rw [List.destutter'_cons, changes, ih, ih]
      by_cases h : path = next <;> simp [h]
  cases paths with
  | nil => rfl
  | cons path rest => exact (hafter path rest).symm

theorem announcedAfter_append (last : Option String) (a b : List Event) :
    announcedAfter last (a ++ b) = announcedAfter (announcedAfter last a) b := by
  rw [announcedAfter, announcedAfter, announcedAfter, List.filterMap_append, List.getLast?_append,
    Option.or_assoc]

theorem labelled_append (last : Option String) (a b : List Event) :
    Labelled last (a ++ b) ↔ Labelled last a ∧ Labelled (announcedAfter last a) b := by
  induction a generalizing last with
  | nil => exact ⟨fun h => ⟨trivial, h⟩, And.right⟩
  | cons e rest ih =>
    cases e with
    | sourceFile path =>
      have hafter : announcedAfter last (.sourceFile path :: rest) =
          announcedAfter (some path) rest := getLast?_cons_or last path _
      rw [List.cons_append, hafter]
      exact ih (some path)
    | caseStart description label => exact (and_congr_right fun _ => ih last).trans and_assoc.symm
    | caseResult description status reason label => exact ih last
    | summary passed failed failedTests => exact ih last

/-- The label of a case that starts was announced last. -/
theorem Labelled.announced {last : Option String} {before after : List Event}
    {description path : String}
    (h : Labelled last (before ++ .caseStart description (some path) :: after)) :
    announcedAfter last before = some path := by
  rw [labelled_append] at h
  exact h.2.1 path rfl

/-! ### Source labels of runs -/

/-- A case announces its source label, if it has one and another was announced last, and goes on
with its start and its end. -/
theorem Chapter.events_eq (suiteSource last : Option String) (ch : Chapter σ) :
    ch.events config suiteSource last =
      (changes last (ch.label suiteSource).toList).map Event.sourceFile ++
        [.caseStart ch.testCase.description (ch.label suiteSource),
          .caseResult ch.testCase.description (ch.verdict config).status
            ((ch.failure config).map StepFailure.message) (ch.label suiteSource)] := by
  rw [Chapter.events]
  cases ch.label suiteSource with
  | none => rfl
  | some path =>
    by_cases hlast : last = some path
    · simp [hlast, changes]
    · have hne : some path ≠ last := fun h => hlast h.symm
      simp [hlast, hne, changes, Option.filter]

theorem Chapter.announced_events (suiteSource last : Option String) (ch : Chapter σ) :
    (ch.events config suiteSource last).filterMap Event.announced? =
      changes last (ch.label suiteSource).toList := by
  have hbanner (paths : List String) :
      (paths.map Event.sourceFile).filterMap Event.announced? = paths := by
    rw [List.filterMap_map]
    exact List.filterMap_some
  rw [Chapter.events_eq, List.filterMap_append, hbanner]
  exact List.append_nil _

theorem Chapter.announcedAfter_events (suiteSource last : Option String) (ch : Chapter σ) :
    announcedAfter last (ch.events config suiteSource last) = (ch.label suiteSource).or last := by
  rw [announcedAfter, announced_events, getLast?_changes]
  cases ch.label suiteSource <;> rfl

/-- A case starts when its source label was announced last. -/
theorem Chapter.labelled_events (suiteSource last : Option String) (ch : Chapter σ) :
    Labelled last (ch.events config suiteSource last) := by
  rw [Chapter.events_eq]
  cases ch.label suiteSource with
  | none => exact ⟨nofun, trivial⟩
  | some path =>
    rw [Option.toList_some, changes]
    split
    · rename_i hlast
      subst hlast
      exact ⟨fun _ h => h, trivial⟩
    · exact ⟨fun _ h => h, trivial⟩

/-- The source labels told of cases are those that differ from the one before them. -/
theorem announced_eventsTold (suiteSource last : Option String) (chs : List (Chapter σ)) :
    (eventsTold config suiteSource last chs).filterMap Event.announced? =
      changes last (chs.filterMap (Chapter.label suiteSource)) := by
  induction chs generalizing last with
  | nil => rfl
  | cons ch rest ih =>
    rw [eventsTold, List.filterMap_append, ih, ch.announced_events, filterMap_cons_toList,
      changes_append]
    cases ch.label suiteSource <;> rfl

theorem announcedAfter_eventsTold (suiteSource last : Option String) (chs : List (Chapter σ)) :
    announcedAfter last (eventsTold config suiteSource last chs) =
      chs.foldl (fun last ch => (ch.label suiteSource).or last) last := by
  induction chs generalizing last with
  | nil => rfl
  | cons ch rest ih =>
    rw [eventsTold, announcedAfter_append, ch.announcedAfter_events, ih, List.foldl_cons]

theorem labelled_eventsTold (suiteSource last : Option String) (chs : List (Chapter σ)) :
    Labelled last (eventsTold config suiteSource last chs) := by
  induction chs generalizing last with
  | nil => trivial
  | cons ch rest ih =>
    refine (labelled_append last _ _).2 ⟨ch.labelled_events config suiteSource last, ?_⟩
    rw [ch.announcedAfter_events]
    exact ih _

/-- The events a run tells. -/
def Run.events (r : Run σ) : List Event :=
  r.entries.filterMap Entry.event?

theorem Suite.events_eq (suite : Suite) (world : World σ) (source : Option String) :
    (suite.run config world source).events =
      eventsTold config suite.source source (chapters config suite.cases world) ++
        [.summary (suite.run config world source).tally.passed
          (suite.run config world source).tally.failed
          (suite.run config world source).tally.failedTests] := by
  rw [Run.events, Suite.entries_run, List.filterMap_append, events_told, events_ofSummary]

theorem Suite.labels_eq (suite : Suite) (world : World σ) :
    (chapters config suite.cases world).filterMap (Chapter.label suite.source) = suite.labels := by
  have hcases := map_testCase_chapters config suite.cases world
  rw [Suite.labels]
  conv_rhs => rw [← hcases, List.filterMap_map]
  rfl

/-- A run announces the source labels of its cases that differ from the one before them. -/
theorem Suite.announced_run (suite : Suite) (world : World σ) (source : Option String) :
    (suite.run config world source).events.filterMap Event.announced? =
      changes source suite.labels := by
  rw [Suite.events_eq, List.filterMap_append, announced_eventsTold, Suite.labels_eq]
  exact List.append_nil _

theorem Suite.labelled_run (suite : Suite) (world : World σ) (source : Option String) :
    Labelled source (suite.run config world source).events := by
  rw [Suite.events_eq]
  exact (labelled_append source _ _).2 ⟨labelled_eventsTold config _ _ _, trivial⟩

/-- A run keeps the source label it announced last. -/
theorem Suite.source_run (suite : Suite) (world : World σ) (source : Option String) :
    (suite.run config world source).source =
      announcedAfter source (suite.run config world source).events := by
  rw [Suite.events_eq, announcedAfter_append, announcedAfter_eventsTold, Suite.run, Run.cases_eq]
  rfl

/-- The runs of suites one after the other, each in the world it comes to, by a runner that
announced a source label last. -/
def runs : Option String → List (Suite × World σ) → List (Run σ)
  | _, [] => []
  | last, (suite, world) :: rest =>
    let r := suite.run config world last
    r :: runs r.source rest

theorem announced_events_runs (last : Option String) (bill : List (Suite × World σ)) :
    ((runs config last bill).flatMap Run.events).filterMap Event.announced? =
      changes last (bill.flatMap (·.1.labels)) := by
  induction bill generalizing last with
  | nil => rfl
  | cons entry rest ih =>
    obtain ⟨suite, world⟩ := entry
    rw [runs, List.flatMap_cons, List.filterMap_append, ih, suite.announced_run, List.flatMap_cons,
      changes_append, suite.source_run, announcedAfter, suite.announced_run, getLast?_changes]

theorem labelled_runs (last : Option String) (bill : List (Suite × World σ)) :
    Labelled last ((runs config last bill).flatMap Run.events) := by
  induction bill generalizing last with
  | nil => trivial
  | cons entry rest ih =>
    obtain ⟨suite, world⟩ := entry
    refine (labelled_append last _ _).2 ⟨suite.labelled_run config world last, ?_⟩
    rw [← suite.source_run]
    exact ih _

/-- **The source labels announced** by a runner, from its first suite on. They are the labels of
all cases that have one, in order, each block of the same label once. When a case with a source
label starts, that label was announced last. -/
theorem Suite.announced_runs (bill : List (Suite × World σ)) :
    let es := (runs config none bill).flatMap Run.events
    es.filterMap Event.announced? = (bill.flatMap (·.1.labels)).destutter (· ≠ ·) ∧
      ∀ before description path after, es = before ++ .caseStart description (some path) :: after →
        (before.filterMap Event.announced?).getLast? = some path := by
  intro es
  refine ⟨?_, fun before description path after hes => ?_⟩
  · rw [← changes_none]
    exact announced_events_runs config none bill
  · have hlabelled : Labelled none es := labelled_runs config none bill
    rw [hes] at hlabelled
    have hlast := hlabelled.announced
    rwa [announcedAfter, Option.or_none] at hlast

end UiSuite
