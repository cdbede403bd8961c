import UiSuite.CommandLine.Execution
import UiSuite.Proofs.Interactive.Rounds

/-! How a run ends.

The rounds of a run are its own suite and those that its session fetches (`rounds`). Their cases
are counted round by round and the counts are merged, which is to count all cases of the run
(`tally_polling`). So the exit code and the list at the end agree: a run ends badly and lists
what failed exactly when a case failed. -/
namespace UiSuite

open Report (Entry Tally Verdict failedDescriptions)

/-! ### Sessions over a server -/

section
variable {σ : Type} [Surface σ] (config : Config)

/-- How the cases of a round ended. -/
def Round.verdicts (r : Round σ) : List Verdict :=
  (chapters config r.suite.cases r.world).map (Chapter.verdict config)

theorem Round.tally_run (r : Round σ) : (r.run config).tally = .ofVerdicts (r.verdicts config) :=
  r.suite.tally_run config r.world r.source

/-- Whether a step of a case failed. -/
def Chapter.Fails (ch : Chapter σ) : Prop :=
  ∃ d ∈ ch.deeds config, ∃ f, d.outcome config = .error f

theorem Chapter.status_verdict {ch : Chapter σ} :
    (ch.verdict config).status = .failed ↔ ch.Fails config := by
  have hstatus : (ch.verdict config).status = .failed ↔ (ch.failure config).isSome := by
    rw [verdict, verdictOf]
    cases ch.failure config <;> simp
  rw [hstatus, Option.isSome_iff_exists]
  constructor
  · rintro ⟨f, hf⟩
    obtain ⟨d, hd, hd'⟩ := (Chapter.failure_eq_some config).1 hf
    exact ⟨d, hd, f, hd'⟩
  · rintro ⟨d, hd, f, hf⟩
    exact ⟨f, (Chapter.failure_eq_some config).2 ⟨d, hd, hf⟩⟩

/-- The descriptions that failed in rounds are those of the cases of which a step failed. -/
theorem mem_failedDescriptions {rs : List (Round σ)} {description : String} :
    description ∈ failedDescriptions (rs.flatMap (Round.verdicts config)) ↔
      ∃ r ∈ rs, ∃ ch ∈ chapters config r.suite.cases r.world,
        ch.testCase.description = description ∧ ch.Fails config := by
  simp only [failedDescriptions, List.mem_map, List.mem_filter, List.mem_flatMap, Round.verdicts,
    decide_eq_true_eq]
  constructor
  · rintro ⟨v, ⟨⟨r, hr, ch, hch, rfl⟩, hv⟩, rfl⟩
    exact ⟨r, hr, ch, hch, rfl, (Chapter.status_verdict config).1 hv⟩
  · rintro ⟨r, hr, ch, hch, rfl, hd⟩
    exact ⟨_, ⟨⟨r, hr, ch, hch, rfl⟩, (Chapter.status_verdict config).2 hd⟩, rfl⟩

/-- The server that is polled, if polling is enabled and there is one. -/
def Polling.server? (p : Polling) : Option String :=
  if p.enabled then p.endpoint else none

variable {τ : Type} [Transport τ] (polls : Nat) (transport : τ) (s : Session σ)

namespace Session

/-- The rounds of a session over the server of a configuration. -/
def rounds : List (Round σ) :=
  match config.polling.server? with
  | none => []
  | some url =>
    (visits config url (Source.outcomes polls (⟨url, transport⟩ : Endpoint τ)) s).filterMap
      (Visit.round? config url)

/-- What a session over the server of a configuration writes. -/
def written : List Entry :=
  match config.polling.server? with
  | none => []
  | some url =>
    (visits config url (Source.outcomes polls (⟨url, transport⟩ : Endpoint τ)) s).flatMap
      (Visit.written config url)

theorem polling_of_none (h : config.polling.server? = none) :
    (s.polling config polls transport).1 = s := by
  rw [polling]
  split
  · rename_i henabled hendpoint
    rw [Polling.server?, if_pos henabled, hendpoint] at h
    cases h
  · rfl

theorem polling_of_some {url : String} (h : config.polling.server? = some url) :
    (s.polling config polls transport).1 =
      (poll config polls s (⟨url, transport⟩ : Endpoint τ)).1 := by
  rw [Polling.server?, Option.ite_none_right_eq_some] at h
  rw [polling, h.1, h.2]

theorem entries_polling :
    (s.polling config polls transport).1.entries =
      s.entries ++ s.written config polls transport := by
  cases hserver : config.polling.server? with
  | none => simp [polling_of_none config polls transport s hserver, written, hserver]
  | some url =>
    simp only [polling_of_some config polls transport s hserver, written, hserver]
    exact entries_poll config (fun _ => rfl) polls s (⟨url, transport⟩ : Endpoint τ)

/-- **A session counts the cases of its rounds**, after those that were counted before. -/
theorem tally_polling {vs : List Verdict} (h : s.tally = .ofVerdicts vs) :
    (s.polling config polls transport).1.tally =
      .ofVerdicts (vs ++ (s.rounds config polls transport).flatMap (Round.verdicts config)) := by
  cases hserver : config.polling.server? with
  | none => simp [polling_of_none config polls transport s hserver, rounds, hserver, h]
  | some url =>
    have htally := tally_poll config (fun _ => rfl) polls s (⟨url, transport⟩ : Endpoint τ)
    simp only [h, Round.tally_run] at htally
    simp only [polling_of_some config polls transport s hserver, rounds, hserver]
    rw [List.flatMap_def, ← Tally.foldl_merge_ofVerdicts, List.map_map]
    exact htally

end Session
end

namespace CommandLine
variable (config : Config) (suite : Option Suite) (stage : Stage)

/-- The round of a run's own suite, if it has one. -/
def ownRounds : List (Round Stage) :=
  (suite.map fun suite => ⟨suite, .start stage, none⟩).toList

theorem entries_opening :
    (opening config suite stage).entries =
      (ownRounds suite stage).flatMap fun r => (r.run config).entries := by
  cases suite with
  | none => rfl
  | some suite => exact (List.flatMap_singleton _ _).symm

theorem tally_opening :
    (opening config suite stage).tally =
      .ofVerdicts ((ownRounds suite stage).flatMap (Round.verdicts config)) := by
  cases suite with
  | none => rfl
  | some suite =>
    let own : Round Stage := ⟨suite, .start stage, none⟩
    have hverdicts : (ownRounds (some suite) stage).flatMap (Round.verdicts config) =
        own.verdicts config := List.flatMap_singleton _ _
    calc (opening config (some suite) stage).tally
      _ = (Tally.ofVerdicts []).merge (own.run config).tally := rfl
      _ = (Tally.ofVerdicts []).merge (.ofVerdicts (own.verdicts config)) := by
        rw [Round.tally_run]
      _ = _ := by rw [← Tally.ofVerdicts_append, List.nil_append, hverdicts]

variable {τ : Type} [Transport τ] (polls : Nat) (transport : τ)

/-- The rounds of a run on a stage: its own suite's, and those of its session. -/
def rounds : List (Round Stage) :=
  ownRounds suite stage ++ (opening config suite stage).rounds config polls transport

/-- What a run writes before the list at its end. -/
def written : List Entry :=
  (ownRounds suite stage).flatMap (fun r => (r.run config).entries) ++
    (opening config suite stage).written config polls transport

/-- The list at the end of a run, of descriptions that failed. -/
def failureBlock (failed : List String) : List String :=
  if failed = [] then [] else "Failed tests:" :: failed.eraseDups.map ("  - " ++ ·)

theorem failureBlock_eq_nil_iff {failed : List String} : failureBlock failed = [] ↔ failed = [] := by
  by_cases h : failed = [] <;> simp [failureBlock, h]

theorem closing_eq {s : Session Stage} {vs : List Verdict} (h : s.tally = .ofVerdicts vs) :
    closing s = ⟨if failedDescriptions vs = [] then 0 else 1,
      s.entries.map Entry.line ++ failureBlock (failedDescriptions vs)⟩ := by
  have hlisted : (failedDescriptions vs).eraseDups.isEmpty = (failedDescriptions vs).isEmpty := by
    cases failedDescriptions vs <;> simp [List.eraseDups_cons]
  rw [closing, h, Tally.isSuccess_ofVerdicts, failureLines, Tally.ofVerdicts_eq, failureBlock]
  simp only [hlisted, List.isEmpty_iff]

/-- What a run comes to by the failures of its rounds. -/
theorem run_eq {files : Files} {o : RunOptions} (hconfig : o.configuration files = some config)
    (hstage : Stage.launch (files o.app) o.app = .ok stage)
    (hsuite : o.loadSuite files = some suite) :
    let failed := failedDescriptions
      ((rounds config suite stage polls transport).flatMap (Round.verdicts config))
    run files polls transport o = ⟨if failed = [] then 0 else 1,
      (written config suite stage polls transport).map Entry.line ++ failureBlock failed⟩ := by
  intro failed
  have hopening : o.opening files = some (config, opening config suite stage) := by
    simp [RunOptions.opening, hconfig, hstage, hsuite, Except.toOption]
  have htally := Session.tally_polling config polls transport (opening config suite stage)
    (tally_opening config suite stage)
  rw [← List.flatMap_append] at htally
  rw [run, hopening]
  simp only [closing_eq htally, Session.entries_polling, entries_opening]
  rfl

/-- **A run fails exactly when a case of it failed, and then it lists what failed.** A run that
can load what it names writes what its rounds and its session write, and after that the list of
failures, if a step of a case in a round failed. Each description that failed is listed once,
in the order in which they failed first, those of its own suite before those of its session. -/
theorem run_failures {files : Files} {o : RunOptions} (hconfig : o.configuration files = some config)
    (hstage : Stage.launch (files o.app) o.app = .ok stage)
    (hsuite : o.loadSuite files = some suite) :
    let rs := rounds config suite stage polls transport
    let failed := failedDescriptions (rs.flatMap (Round.verdicts config))
    let outcome := run files polls transport o
    let listed := failed.eraseDups
    let block := failureBlock failed
    outcome.lines = (written config suite stage polls transport).map Entry.line ++ block ∧
      (outcome.code = 0 ∨ outcome.code = 1) ∧
      (outcome.code = 1 ↔
        ∃ r ∈ rs, ∃ ch ∈ chapters config r.suite.cases r.world, ch.Fails config) ∧
      (outcome.code = 1 ↔ block ≠ []) ∧
      (block ≠ [] → block = "Failed tests:" :: listed.map ("  - " ++ ·)) ∧
      listed.Nodup ∧
      (∀ description, description ∈ listed ↔
        ∃ r ∈ rs, ∃ ch ∈ chapters config r.suite.cases r.world,
          ch.testCase.description = description ∧ ch.Fails config) ∧
      listed.Pairwise (failed.idxOf · < failed.idxOf ·) := by
  intro rs failed outcome listed block
  have houtcome : outcome = _ := run_eq config suite stage polls transport hconfig hstage hsuite
  have hcode : outcome.code = 1 ↔ failed ≠ [] := by
    rw [houtcome]
    by_cases h : failed = [] <;> simp [h, failed, rs]
  have horder : failed.eraseDups.Pairwise (failed.idxOf · < failed.idxOf ·) :=
    Tally.pairwise_eraseDups failed
  refine ⟨?_, ?_, ?_, ?_, ?_, ?_, ?_, horder⟩
  · rw [houtcome]
  · rw [houtcome]
    simp only
    split <;> simp
  · rw [hcode]
    constructor
    · intro hne
      obtain ⟨description, hmem⟩ := List.exists_mem_of_ne_nil _ hne
      obtain ⟨r, hr, ch, hch, -, hd⟩ := (mem_failedDescriptions config).1 hmem
      exact ⟨r, hr, ch, hch, hd⟩
    · rintro ⟨r, hr, ch, hch, hd⟩
      exact List.ne_nil_of_mem ((mem_failedDescriptions config).2 ⟨r, hr, ch, hch, rfl, hd⟩)
  · exact hcode.trans (not_congr failureBlock_eq_nil_iff.symm)
  · intro hne
    exact if_neg fun h => hne (failureBlock_eq_nil_iff.2 h)
  · exact Tally.nodup_eraseDups failed
  · intro description
    rw [List.mem_eraseDups]
    exact mem_failedDescriptions config

/-- An app without elements, and a suite of one step that names no target. -/
def gateFiles : Files := fun path =>
  if path = "app.json" then some (Text.Utf8.encode "[]")
  else if path = "gate.json" then some (Text.Utf8.encode "[\x7b\"action\":\"click\"\x7d]")
  else none

/-- Running that suite, and those of a server. -/
def gateOptions : RunOptions :=
  ⟨"app.json", some "gate.json", none, true, some "http://host/next", none, none⟩

/-- A server of the same step, and of a case that is described like the first. -/
def gateServer : Queue.Server :=
  ⟨"/next", .exitWhenEmpty, "exit", ⟨["[\x7b\"action\":\"click\"\x7d]",
    "\x7b\"name\":\"gate\",\"steps\":[\x7b\"action\":\"click\"\x7d]\x7d"]⟩⟩

def gateSuite : Suite :=
  ⟨"gate", some "gate.json",
    [⟨"gate", some "gate.json", [{ Step.blank with action := "click" }]⟩]⟩

/-- All three cases fail, and two descriptions are listed. -/
theorem run_failures_gate :
    let config := gateOptions.override .standard
    gateOptions.configuration gateFiles = some config ∧
      Stage.launch (gateFiles "app.json") "app.json" = .ok .empty ∧
      gateOptions.loadSuite gateFiles = some (some gateSuite) ∧
      (run gateFiles 3 gateServer gateOptions).code = 1 ∧
      ∃ before, (run gateFiles 3 gateServer gateOptions).lines =
        before ++ ["Failed tests:", "  - gate", "  - Interactive Suite 1"] := by
  intro config
  have hconfig : gateOptions.configuration gateFiles = some config := by decide +kernel
  have hstage : Stage.launch (gateFiles "app.json") "app.json" = .ok .empty := rfl
  have hsuite : gateOptions.loadSuite gateFiles = some (some gateSuite) := by decide +kernel
  have hblock : failureBlock (failedDescriptions
      ((rounds config (some gateSuite) .empty 3 gateServer).flatMap (Round.verdicts config))) =
        ["Failed tests:", "  - gate", "  - Interactive Suite 1"] := by decide +kernel
  obtain ⟨hlines, -, -, hcode, -⟩ :=
    run_failures config (some gateSuite) .empty 3 gateServer hconfig hstage hsuite
  rw [hblock] at hlines hcode
  exact ⟨hconfig, hstage, hsuite, hcode.2 (List.cons_ne_nil _ _), _, hlines⟩

end CommandLine
end UiSuite
