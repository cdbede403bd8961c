import UiSuite.Interactive.Session
import UiSuite.Proofs.Execution.Succession
import UiSuite.Proofs.Json.Records
import UiSuite.Suite.Loading

/-! The labels of suites.

A suite that is loaded or received has a name and a source label, and so has each of its cases,
their own or those in reserve (`Stamped`); nothing else of it changes, and filling in labels once
more changes nothing (`Suite.withDefaults_withDefaults`). So every event about a case tells where
the case comes from (`Suite.stamped_loaded`). -/
namespace UiSuite

open Report (Event)

namespace Suite

/-- A suite with its labels filled in: a name in place of a blank one, a source label where
there was none, and the label of the suite on each case without its own. -/
structure Stamped (decoded : Suite) (name source : String) (s : Suite) : Prop where
  name_eq : s.name = if Text.isBlankText decoded.name then name else decoded.name
  source_eq : s.source = some (decoded.source.getD source)
  cases_eq : s.cases = decoded.cases.map fun c =>
    { c with sourceFile := some (c.sourceFile.getD (decoded.source.getD source)) }

/-! ### Filling in labels -/

theorem withSource_eq (c : TestCase) (source : String) :
    c.withSource source = { c with sourceFile := some (c.sourceFile.getD source) } := by
  cases h : c.sourceFile <;> simp [TestCase.withSource, h]

theorem stamped_withDefaults (s : Suite) (name source : String) :
    s.Stamped name source (s.withDefaults name source) where
  name_eq := rfl
  source_eq := rfl
  cases_eq := List.map_congr_left fun c _ => withSource_eq c _

/-- Labels that were filled in stay, unless the name in reserve was blank. -/
theorem withDefaults_withDefaults (s : Suite) {name : String} (source : String)
    (h : Text.isBlankText name = false) (other label : String) :
    (s.withDefaults name source).withDefaults other label = s.withDefaults name source := by
  have hname : Text.isBlankText (s.withDefaults name source).name = false := by
    rw [withDefaults]
    split
    · exact h
    · next hown => exact Bool.eq_false_iff.2 hown
  have hcases : ((s.withDefaults name source).cases.map
      (·.withSource (s.source.getD source))) = (s.withDefaults name source).cases := by
    rw [withDefaults, List.map_map]
    refine List.map_congr_left fun c _ => ?_
    rw [Function.comp_apply, withSource_eq, withSource_eq]
    rfl
  rw [withDefaults, hname]
  exact congrArg (Suite.mk _ _) hcases

/-! ### Suites that are loaded or received -/

theorem stamped_load {text path : String} {s : Suite} (h : load text path = .ok s) :
    let name := (Path.stem path).getD "suite"
    ∃ decoded, decode text name = .ok decoded ∧ decoded.Stamped name path s := by
  intro name
  rw [load] at h
  split at h
  · next decoded hdecoded =>
    cases h
    exact ⟨decoded, hdecoded, stamped_withDefaults decoded name path⟩
  · cases h

theorem stamped_received {sourceName body : String} {number : Nat} {s : Suite}
    (h : Session.decode sourceName number body = .ok s) :
    let name := "Interactive Suite " ++ toString number
    ∃ decoded, decode body name = .ok decoded ∧
      decoded.Stamped name (sourceName ++ "#" ++ toString number) s := by
  intro name
  obtain ⟨decoded, hdecoded, hs⟩ := Json.bind_eq_ok.1 h
  cases hs
  exact ⟨decoded, hdecoded, stamped_withDefaults decoded name _⟩

end Suite

/-! ### Events about cases -/

/-- The description and the source label of the case an event is about, if it is about one. -/
def Report.Event.subject? : Event → Option (String × Option String)
  | caseStart description label | caseResult description _ _ label => some (description, label)
  | sourceFile _ | summary .. => none

variable {σ : Type} [Surface σ] (config : Config)

/-- Each case is the subject of its start and of its result. -/
theorem subjects_eventsTold (suiteSource last : Option String) (chs : List (Chapter σ)) :
    (eventsTold config suiteSource last chs).filterMap Event.subject? =
      chs.flatMap fun ch =>
        List.replicate 2 (ch.testCase.description, ch.testCase.sourceFile.or suiteSource) := by
  induction chs generalizing last with
  | nil => rfl
  | cons ch rest ih =>
    have hbanner (paths : List String) :
        (paths.map Event.sourceFile).filterMap Event.subject? = [] := by
      rw [List.filterMap_map]
      exact List.filterMap_eq_nil_iff.2 fun _ _ => rfl
    rw [eventsTold, List.filterMap_append, ih, Chapter.events_eq, List.filterMap_append, hbanner,
      List.flatMap_cons]
    rfl

namespace Suite

theorem subjects_run (s : Suite) (world : World σ) (last : Option String) :
    (s.run config world last).events.filterMap Event.subject? =
      s.cases.flatMap fun c => List.replicate 2 (c.description, c.sourceFile.or s.source) := by
  rw [events_eq, List.filterMap_append, subjects_eventsTold]
  conv_rhs => rw [← map_testCase_chapters config s.cases world, List.flatMap_map]
  exact List.append_nil _

/-- Every event about a case of a stamped suite tells the label of the case, its own or that of
the suite. -/
theorem Stamped.subjects_run {decoded s : Suite} {name source : String}
    (h : decoded.Stamped name source s) (world : World σ) (last : Option String) :
    (s.run config world last).events.filterMap Event.subject? =
      decoded.cases.flatMap fun c => List.replicate 2
        (c.description, some (c.sourceFile.getD (decoded.source.getD source))) := by
  rw [Suite.subjects_run, h.cases_eq, List.flatMap_map]
  rfl

/-- **The labels of suites that are loaded or received.** Each is the suite that was decoded,
stamped with its labels; to stamp it again changes nothing. Its run tells of each case, where it
starts and where it ends, with the label of the case, its own or that of the suite. -/
theorem stamped_loaded :
    (∀ text path s, load text path = .ok s →
      let name := (Path.stem path).getD "suite"
      ∃ decoded, decode text name = .ok decoded ∧ decoded.Stamped name path s) ∧
    (∀ sourceName number body s, Session.decode sourceName number body = .ok s →
      let name := "Interactive Suite " ++ toString number
      ∃ decoded, decode body name = .ok decoded ∧
        decoded.Stamped name (sourceName ++ "#" ++ toString number) s) ∧
    (∀ (s : Suite) name source, Text.isBlankText name = false → ∀ other label,
      (s.withDefaults name source).withDefaults other label = s.withDefaults name source) ∧
    ∀ decoded name source s, Stamped decoded name source s →
      ∀ (world : World σ) (last : Option String),
        (s.run config world last).events.filterMap Event.subject? =
          decoded.cases.flatMap fun c => List.replicate 2
            (c.description, some (c.sourceFile.getD (decoded.source.getD source))) := by
  refine ⟨fun _ _ _ => stamped_load, fun _ _ _ _ => stamped_received,
    fun s _ source h => s.withDefaults_withDefaults source h, ?_⟩
  exact fun _ _ _ _ h => h.subjects_run config

/-- A suite without a label of its own, of a case with one and a case without. -/
def twoCases : String :=
  "\x7b\"testCases\":[\x7b\"sourceFile\":\"b.yaml\"\x7d,\x7b\"description\":\"late\"\x7d]\x7d"

def twoCasesRead : Suite :=
  ⟨"", none, [⟨"", some "b.yaml", []⟩, ⟨"late", none, []⟩]⟩

/-- Its run tells the label of the first case and the path for the second; a session has its own
label for the second. -/
theorem stamped_loaded_twoCases :
    let world : World Stage := .start .empty
    (∃ s, load twoCases "a/two.json" = .ok s ∧
      (s.run Config.standard world none).events.filterMap Event.subject? =
        [("", some "b.yaml"), ("", some "b.yaml"),
          ("late", some "a/two.json"), ("late", some "a/two.json")]) ∧
    (∃ s, Session.decode "remote" 7 twoCases = .ok s ∧
      (s.run Config.standard world none).events.filterMap Event.subject? =
        [("", some "b.yaml"), ("", some "b.yaml"),
          ("late", some "remote#7"), ("late", some "remote#7")]) ∧
    Text.isBlankText "two" = false ∧
      (blank.withDefaults "two" "a").withDefaults "b" "c" = blank.withDefaults "two" "a" := by
  intro world
  obtain ⟨hload, hreceived, hagain, hsubjects⟩ := stamped_loaded (σ := Stage) Config.standard
  have hname : Text.isBlankText "two" = false := by decide
  have hpath : load twoCases "a/two.json" = .ok ⟨"two", some "a/two.json",
      [⟨"", some "b.yaml", []⟩, ⟨"late", some "a/two.json", []⟩]⟩ := by decide +kernel
  have hnumber : Session.decode "remote" 7 twoCases = .ok ⟨"Interactive Suite 7", some "remote#7",
      [⟨"", some "b.yaml", []⟩, ⟨"late", some "remote#7", []⟩]⟩ := by decide +kernel
  refine ⟨⟨_, hpath, ?_⟩, ⟨_, hnumber, ?_⟩, hname, hagain blank "two" "a" hname "b" "c"⟩
  · obtain ⟨decoded, hsuite, hstamped⟩ := hload _ _ _ hpath
    have hown : decode twoCases ((Path.stem "a/two.json").getD "suite") = .ok twoCasesRead := by
      decide +kernel
    cases hown.symm.trans hsuite
    exact hsubjects _ _ _ _ hstamped world none
  · obtain ⟨decoded, hsuite, hstamped⟩ := hreceived _ _ _ _ hnumber
    have hown : decode twoCases ("Interactive Suite " ++ toString 7) = .ok twoCasesRead := by
      decide +kernel
    cases hown.symm.trans hsuite
    exact hsubjects _ _ _ _ hstamped world none

end Suite
end UiSuite
