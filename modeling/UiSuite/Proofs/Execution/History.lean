import UiSuite.Execution.Run
import UiSuite.Proofs.Lists
import UiSuite.Proofs.Report.Counting

/-! What happens in a run, one deed after the other.

A deed is a step in the world it was executed in, a chapter is a case in the world it began
in. How each ends is what its execution says, so a history holds no more than who came
when: `deeds` are the steps of a case up to the first that fails, `chapters` the cases of a
suite. A run is told by its history (`Run.steps_eq`, `Run.case_eq`, `Run.cases_eq`). -/
namespace UiSuite

open Report (Entry Tally Verdict)

/-- A step at its place in its case, in the world it was executed in. -/
structure Deed (σ : Type) where
  place : Nat
  step : Step
  before : World σ

/-- A case in the world it began in. -/
structure Chapter (σ : Type) where
  testCase : TestCase
  before : World σ

variable {σ : Type} [Surface σ] (config : Config)

namespace Deed

/-- How the step ended. -/
def outcome (d : Deed σ) : Except StepFailure StepOutcome :=
  (d.step.execute config d.place d.before).1

/-- The world after the step. -/
def after (d : Deed σ) : World σ :=
  (d.step.execute config d.place d.before).2

/-- The failure of the step, if it failed. -/
def failure (d : Deed σ) : Option StepFailure :=
  match d.outcome config with
  | .error f => some f
  | .ok _ => none

/-- What is written about the step. -/
def entries (d : Deed σ) : List Entry :=
  match d.outcome config with
  | .ok (.skipped tag) => Entry.ofSkip (d.place + 1) tag
  | .ok .performed | .error _ => []

theorem failure_eq_some {d : Deed σ} {f : StepFailure} :
    d.failure config = some f ↔ d.outcome config = .error f := by
  rw [failure]
  cases d.outcome config with
  | error g => simp
  | ok o => simp

end Deed

/-! ### Steps -/

/-- The steps executed from a place on, up to the first that fails. -/
def deeds : Nat → List Step → World σ → List (Deed σ)
  | _, [], _ => []
  | place, s :: rest, w =>
    let d : Deed σ := ⟨place, s, w⟩
    match d.failure config with
    | some _ => [d]
    | none => d :: deeds (place + 1) rest (d.after config)

/-- The world after deeds that began in a world. -/
def worldAfter (w : World σ) (ds : List (Deed σ)) : World σ :=
  ds.foldl (fun _ d => d.after config) w

/-- Executing steps tells their deeds. -/
theorem Run.steps_eq (place : Nat) (ss : List Step) (r : Run σ) :
    Run.steps config place ss r =
      ((deeds config place ss r.world).findSome? (Deed.failure config),
        { r with
          world := worldAfter config r.world (deeds config place ss r.world)
          entries := r.entries ++
            (deeds config place ss r.world).flatMap (Deed.entries config) }) := by
  induction ss generalizing place r with
  | nil => simp [Run.steps, deeds, worldAfter]
  | cons s rest ih =>
    rcases hexec : s.execute config place r.world with ⟨outcome, after⟩
    have houtcome : Deed.outcome config ⟨place, s, r.world⟩ = outcome := by
      rw [Deed.outcome, hexec]
    have hafter : Deed.after config ⟨place, s, r.world⟩ = after := by rw [Deed.after, hexec]
    rw [Run.steps, hexec, deeds, Deed.failure, houtcome, hafter]
    -- An executed step either ends the case, or the rest is executed after it.
    match outcome with
    | .error f =>
      simp [Deed.failure, Deed.entries, houtcome, worldAfter, hafter]
    | .ok .performed =>
      simp [ih, Deed.failure, Deed.entries, houtcome, worldAfter, hafter]
    | .ok (.skipped tag) =>
      simp [ih, Run.write, Deed.failure, Deed.entries, houtcome, worldAfter, hafter]

/-- Of the steps executed none fails but the last. -/
theorem failure_of_mem_dropLast {place : Nat} {ss : List Step} {w : World σ} {d : Deed σ}
    (hd : d ∈ (deeds config place ss w).dropLast) : d.failure config = none := by
  induction ss generalizing place w with
  | nil => cases hd
  | cons s rest ih =>
    rw [deeds] at hd
    cases hfail : Deed.failure config ⟨place, s, w⟩ with
    | some f =>
      rw [hfail] at hd
      cases hd
    | none =>
      rw [hfail] at hd
      rcases eq_or_mem_dropLast hd with rfl | hd
      · exact hfail
      · exact ih hd

/-- Where no step executed fails, all steps are executed. -/
theorem map_step_deeds {place : Nat} {ss : List Step} {w : World σ}
    (h : ∀ d ∈ deeds config place ss w, d.failure config = none) :
    (deeds config place ss w).map (·.step) = ss := by
  induction ss generalizing place w with
  | nil => rfl
  | cons s rest ih =>
    rw [deeds] at h ⊢
    cases hfail : Deed.failure config ⟨place, s, w⟩ with
    | some f =>
      simp only [hfail, List.mem_singleton, forall_eq] at h
      cases h
    | none =>
      simp only [hfail, List.forall_mem_cons] at h
      rw [List.map_cons, ih h.2]

/-- The steps executed are steps of the case from its beginning on, in their places. -/
theorem deeds_begin (place : Nat) (ss : List Step) (w : World σ) :
    (deeds config place ss w).map (·.step) <+: ss := by
  induction ss generalizing place w with
  | nil => exact List.prefix_rfl
  | cons s rest ih =>
    rw [deeds]
    cases hfail : Deed.failure config ⟨place, s, w⟩ with
    | some f => exact ⟨rest, rfl⟩
    | none => exact List.cons_prefix_cons.2 ⟨rfl, ih (place + 1) _⟩

/-! ### Cases -/

namespace Chapter

/-- The steps of the case that were executed. -/
def deeds (ch : Chapter σ) : List (Deed σ) :=
  UiSuite.deeds config 0 ch.testCase.steps ch.before

/-- The failure that ended the case, if one did. -/
def failure (ch : Chapter σ) : Option StepFailure :=
  (ch.deeds config).findSome? (Deed.failure config)

/-- The world after the case. -/
def after (ch : Chapter σ) : World σ :=
  worldAfter config ch.before (ch.deeds config)

/-- The source label of the case, in a suite with a label. -/
def label (suiteSource : Option String) (ch : Chapter σ) : Option String :=
  ch.testCase.sourceFile.or suiteSource

/-- How a case with a description ended, by the failure of a step if there was one. -/
def verdictOf (description : String) (failure : Option StepFailure) : Verdict :=
  ⟨description, if failure.isSome then .failed else .passed⟩

/-- How the case ended. -/
def verdict (ch : Chapter σ) : Verdict :=
  verdictOf ch.testCase.description (ch.failure config)

/-- What is written before a case with a source label, after another was announced last. -/
def banner (last label : Option String) : List Entry :=
  match label with
  | none => []
  | some path => if last = some path then [] else Entry.ofSource path

/-- What is written when a case ends. -/
def ending (description : String) (label : Option String) : Option StepFailure → List Entry
  | none => Entry.ofPass description label
  | some f => Entry.ofFailure description f.message label

/-- What is written about the case, after a source label was announced last. -/
def entries (suiteSource last : Option String) (ch : Chapter σ) : List Entry :=
  banner last (ch.label suiteSource) ++
    Entry.ofStart ch.testCase.description (ch.label suiteSource) ++
    (ch.deeds config).flatMap (Deed.entries config) ++
    ending ch.testCase.description (ch.label suiteSource) (ch.failure config)

end Chapter

/-- A case fails with the failure of a step of it. -/
theorem Chapter.failure_eq_some {ch : Chapter σ} {f : StepFailure} :
    ch.failure config = some f ↔ ∃ d ∈ ch.deeds config, d.outcome config = .error f := by
  constructor
  · intro h
    obtain ⟨d, hd, hf⟩ := List.exists_of_findSome?_eq_some h
    exact ⟨d, hd, (Deed.failure_eq_some config).1 hf⟩
  · rintro ⟨d, hd, hf⟩
    have hfail := (Deed.failure_eq_some config).2 hf
    -- Only the last step executed can fail, so it is the one found.
    obtain ⟨init, last, hds⟩ : ∃ init last, ch.deeds config = init ++ [last] :=
      ⟨_, _, (List.dropLast_concat_getLast (List.ne_nil_of_mem hd)).symm⟩
    have hinit : ∀ e ∈ init, e.failure config = none := fun e he =>
      failure_of_mem_dropLast config (by rw [← Chapter.deeds, hds, List.dropLast_concat]; exact he)
    rw [hds, List.mem_append, List.mem_singleton] at hd
    have hlast : d = last := hd.resolve_left fun hmem => by
      rw [hinit d hmem] at hfail
      cases hfail
    rw [Chapter.failure, hds, List.findSome?_append, List.findSome?_eq_none_iff.2 hinit, ← hlast]
    simp [hfail]

/-- The cases of a suite, each in the world the one before it left. -/
def chapters : List TestCase → World σ → List (Chapter σ)
  | [], _ => []
  | c :: rest, w =>
    let ch : Chapter σ := ⟨c, w⟩
    ch :: chapters rest (ch.after config)

/-- Every case has its chapter. -/
theorem map_testCase_chapters (cs : List TestCase) (w : World σ) :
    (chapters config cs w).map (·.testCase) = cs := by
  induction cs generalizing w with
  | nil => rfl
  | cons c rest ih => rw [chapters, List.map_cons, ih]

/-- What is written about cases, after a source label was announced last. -/
def told (suiteSource : Option String) : Option String → List (Chapter σ) → List Entry
  | _, [] => []
  | last, ch :: rest =>
    ch.entries config suiteSource last ++ told suiteSource ((ch.label suiteSource).or last) rest

omit [Surface σ] in
theorem Run.announce_eq (label : Option String) (r : Run σ) :
    r.announce label =
      { r.write (Chapter.banner r.source label) with source := label.or r.source } := by
  cases label with
  | none => simp [Run.announce, Run.write, Chapter.banner]
  | some path =>
    by_cases h : r.source = some path
    · obtain ⟨world, source, tally, entries⟩ := r
      subst h
      simp [Run.announce, Run.write, Chapter.banner]
    · simp [Run.announce, Run.write, Chapter.banner, h]

omit [Surface σ] in
theorem Run.conclude_eq (description : String) (label : Option String)
    (failure : Option StepFailure) (r : Run σ) :
    r.conclude description label failure =
      { r.write (Chapter.ending description label failure) with
        tally := r.tally.add (Chapter.verdictOf description failure) } := by
  cases failure <;> rfl

/-- Running a case tells its chapter. -/
theorem Run.case_eq (suiteSource : Option String) (r : Run σ) (c : TestCase) :
    Run.case config suiteSource r c =
      let ch : Chapter σ := ⟨c, r.world⟩
      { world := ch.after config
        source := (ch.label suiteSource).or r.source
        tally := r.tally.add (ch.verdict config)
        entries := r.entries ++ ch.entries config suiteSource r.source } := by
  rw [Run.case, Run.announce_eq, Run.steps_eq]
  simp only [Run.conclude_eq, Run.write, Chapter.entries, List.append_assoc]
  rfl

/-- Running cases tells their chapters. -/
theorem Run.cases_eq (suiteSource : Option String) (cs : List TestCase) (r : Run σ) :
    Run.cases config suiteSource cs r =
      let chs := chapters config cs r.world
      { world := chs.foldl (fun _ ch => ch.after config) r.world
        source := chs.foldl (fun last ch => (ch.label suiteSource).or last) r.source
        tally := (chs.map (Chapter.verdict config)).foldl Tally.add r.tally
        entries := r.entries ++ told config suiteSource r.source chs } := by
  induction cs generalizing r with
  | nil => simp [Run.cases, chapters, told]
  | cons c rest ih =>
    have hcons : Run.cases config suiteSource (c :: rest) r =
        Run.cases config suiteSource rest (Run.case config suiteSource r c) := rfl
    rw [hcons, ih, Run.case_eq]
    simp [chapters, told]

end UiSuite
