import UiSuite.Proofs.Execution.History

/-! Calls on a session.

A session is a world that calls are made on, one after the other: a step is executed, its target
is looked for, a suite is run, the aliases are forgotten, or the surface changes from outside.
What every step of some kind keeps is kept by a suite of such steps (`Suite.run_keeps`), and
what every call of some kind keeps by any number of them (`World.calls_keeps`). -/
namespace UiSuite

open Report (Entry)

variable {σ : Type} [Surface σ]

/-! ### Running suites -/

section Keeping
variable {config : Config} {P : World σ → Prop} {allowed : Step → Prop}
  (hstep : ∀ index s w, allowed s → P w → P (s.execute config index w).2)
include hstep

theorem Run.steps_keeps (ss : List Step) (hall : ∀ s ∈ ss, allowed s) (index : Nat) (r : Run σ)
    (h : P r.world) : P (Run.steps config index ss r).2.world := by
  induction ss generalizing index r with
  | nil => exact h
  | cons s rest ih =>
    rw [List.forall_mem_cons] at hall
    have hnext := hstep index s r.world hall.1 h
    rw [Run.steps]
    split
    · rename_i f w hexec
      rw [hexec] at hnext
      exact hnext
    · rename_i w hexec
      rw [hexec] at hnext
      exact ih hall.2 (index + 1) _ hnext
    · rename_i tag w hexec
      rw [hexec] at hnext
      exact ih hall.2 (index + 1) _ hnext

theorem Run.case_keeps (suiteSource : Option String) (c : TestCase) (hall : ∀ s ∈ c.steps, allowed s)
    (r : Run σ) (h : P r.world) : P (Run.case config suiteSource r c).world := by
  have hbegun : P ((r.announce (c.sourceFile.or suiteSource)).write
      (Entry.ofStart c.description (c.sourceFile.or suiteSource))).world := by
    rw [Run.announce_eq]
    exact h
  have hended := Run.steps_keeps hstep c.steps hall 0 _ hbegun
  rw [Run.case]
  split
  rename_i failure ended hsteps
  rw [hsteps] at hended
  rw [Run.conclude_eq]
  exact hended

theorem Run.cases_keeps (suiteSource : Option String) (cs : List TestCase)
    (hall : ∀ c ∈ cs, ∀ s ∈ c.steps, allowed s) (r : Run σ) (h : P r.world) :
    P (Run.cases config suiteSource cs r).world := by
  induction cs generalizing r with
  | nil => exact h
  | cons c rest ih =>
    rw [List.forall_mem_cons] at hall
    exact ih hall.2 _ (Run.case_keeps hstep suiteSource c hall.1 r h)

/-- **What every step of a suite keeps, a run of the suite keeps.** -/
theorem Suite.run_keeps (suite : Suite) (hall : ∀ c ∈ suite.cases, ∀ s ∈ c.steps, allowed s)
    (w : World σ) (source : Option String) (h : P w) : P (suite.run config w source).world :=
  Run.cases_keeps hstep suite.source suite.cases hall _ h

end Keeping

/-! ### Calls -/

/-- A call on a session. -/
inductive Call (σ : Type) where
  | execute (config : Config) (index : Nat) (s : Step)
  | obtain (config : Config) (action : Action) (fallback : Option Query) (s : Step)
  | run (config : Config) (suite : Suite) (source : Option String)
  | reset
  | change (f : σ → σ)

namespace World

/-- The world after a call. -/
def call (w : World σ) : Call σ → World σ
  | .execute config index s => (s.execute config index w).2
  | .obtain config action fallback s => (s.obtain config action fallback w).2
  | .run config suite source => (suite.run config w source).world
  | .reset => w.reset
  | .change f => { w with surface := f w.surface }

/-- The world after calls. -/
def calls (w : World σ) (cs : List (Call σ)) : World σ :=
  cs.foldl call w

/-- **What every call keeps, all calls keep.** -/
theorem calls_keeps {P : World σ → Prop} {allowed : Call σ → Prop}
    (hcall : ∀ c w, allowed c → P w → P (w.call c)) (cs : List (Call σ))
    (hall : ∀ c ∈ cs, allowed c) (w : World σ) (h : P w) : P (w.calls cs) := by
  induction cs generalizing w with
  | nil => exact h
  | cons c rest ih =>
    rw [List.forall_mem_cons] at hall
    exact ih hall.2 _ (hcall c w hall.1 h)

end World
end UiSuite
