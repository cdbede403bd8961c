import UiSuite.Proofs.Execution.Calls
import UiSuite.Proofs.Execution.Searching

/-! The clock never goes back.

Only sleeps move it, in a wait for a target (`World.clock_le_waitFrom`) and in a step that waits
(`Step.clock_le_execute`), and what every step of a suite keeps the suite keeps
(`Suite.clock_le_run`). So the time between two moments of a session is a difference of its clock. -/
namespace UiSuite
variable {σ : Type}

namespace World

@[simp] theorem clock_sleep (millis : Nat) (w : World σ) :
    (w.sleep millis).clock = w.clock + millis := rfl

@[simp] theorem clock_reset (w : World σ) : w.reset.clock = w.clock := rfl

variable [Surface σ]

@[simp] theorem clock_settle (w : World σ) : w.settle.clock = w.clock := rfl

@[simp] theorem clock_look (w : World σ) : w.look.2.clock = w.clock := rfl

theorem clock_le_waitFrom (isMet : List Element → Bool) (interval sleeps left looks : Nat)
    (w : World σ) : w.clock ≤ (waitFrom isMet interval sleeps left looks w).world.clock := by
  induction sleeps generalizing left looks w with
  | zero =>
    rw [waitFrom_zero isMet interval left looks rfl]
    exact Nat.le_refl _
  | succ n ih =>
    have hlooked : w.settle.look = (w.settle.look.1, w.settle.look.2) := rfl
    rw [waitFrom_succ isMet interval n left looks hlooked]
    split
    · exact Nat.le_refl _
    · exact Nat.le_trans (Nat.le_add_right _ _)
        (ih _ _ (w.settle.look.2.sleep (min interval left)))

end World

namespace Step
variable {config : Config} {s : Step} {w : World σ}

theorem clock_registerAlias (s : Step) (q : Query) (w : World σ) :
    (s.registerAlias q w).clock = w.clock := by
  rw [registerAlias]
  cases s.usedAlias <;> rfl

variable [Surface σ]

theorem clock_le_obtain (config : Config) (action : Action) (fallback : Option Query) (s : Step)
    (w : World σ) : w.clock ≤ (s.obtain config action fallback w).2.clock := by
  rw [obtain]
  split
  · exact Nat.le_refl _
  · split
    · exact Nat.le_refl _
    · rename_i q _ _ _ _
      have hawait : w.clock ≤ (s.await config q w).world.clock :=
        World.clock_le_waitFrom _ _ _ _ _ w
      simp only
      split
      · exact hawait
      · split
        · exact hawait
        · rw [clock_registerAlias]
          exact hawait

/-- The search a step comes to takes its time. -/
theorem clock_le_of_search? {r : Except StepError Target × World σ}
    (h : s.search? config w = some r) : w.clock ≤ r.2.clock := by
  obtain ⟨fallback, -, rfl⟩ := Option.map_eq_some_iff.1 h
  exact clock_le_obtain config _ fallback s w

theorem Course.clock_le {r : Except StepError StepOutcome × World σ} (h : s.Course config w r) :
    w.clock ≤ r.2.clock := by
  cases h with
  | refused hsearch hkind => exact Nat.le_refl _
  | skipped hsearch => exact Nat.le_refl _
  | waited hsearch => exact Nat.le_add_right _ _
  | failed hsearch => exact clock_le_of_search? hsearch
  | seen hsearch => exact clock_le_of_search? hsearch
  | mismatched hsearch hkind => exact clock_le_of_search? hsearch
  | acted hsearch hact hdone => exact clock_le_of_search? hsearch
  | repelled hsearch hact hdone => exact clock_le_of_search? hsearch

theorem clock_le_execute (config : Config) (index : Nat) (s : Step) (w : World σ) :
    w.clock ≤ (s.execute config index w).2.clock := by
  rw [execute_eq]
  exact (course config s w).clock_le

end Step

/-- **A suite does not turn the clock back.** -/
theorem Suite.clock_le_run [Surface σ] (config : Config) (suite : Suite) (w : World σ)
    (source : Option String) : w.clock ≤ (suite.run config w source).world.clock := by
  have hstep (index : Nat) (s : Step) (w' : World σ) (_ : True) (h : w.clock ≤ w'.clock) :
      w.clock ≤ (s.execute config index w').2.clock :=
    Nat.le_trans h (Step.clock_le_execute config index s w')
  exact Suite.run_keeps (P := fun w' => w.clock ≤ w'.clock) hstep suite
    (fun _ _ _ _ => trivial) w source (Nat.le_refl _)

end UiSuite
