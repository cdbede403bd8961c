import UiSuite.Execution.Performing

/-! What a step can do to a surface.

While a step waits for its target, the surface settles and is looked at, and nothing else
happens to it (`Idles`). Only a click and an entry of text go on to act on the target they
found; either the action fails, and the step with it, or the surface settles once more
(`actOnTarget_ok`, `actOnTarget_error`). -/
namespace UiSuite

/-- A state a surface comes to by settling and being looked at. -/
inductive Idles {σ : Type} [Surface σ] (s : σ) : σ → Prop
  | refl : Idles s s
  | settle {t : σ} (h : Idles s t) : Idles s (Surface.settle t)
  | look {t : σ} (h : Idles s t) : Idles s (Surface.snapshot t).2

theorem Idles.trans {σ : Type} [Surface σ] {s t u : σ} (h : Idles s t) (h' : Idles t u) :
    Idles s u := by
  induction h' with
  | refl => exact h
  | settle _ ih => exact ih.settle
  | look _ ih => exact ih.look

/-- What settling and looking keep is kept by idling. -/
theorem Idles.keeps {σ α : Type} [Surface σ] {f : σ → α}
    (hsettle : ∀ s, f (Surface.settle s) = f s) (hlook : ∀ s, f (Surface.snapshot s).2 = f s)
    {s t : σ} (h : Idles s t) : f t = f s := by
  induction h with
  | refl => rfl
  | settle _ ih => rw [hsettle, ih]
  | look _ ih => rw [hlook, ih]

variable {σ : Type} [Surface σ]

/-- One look of a wait. -/
theorem World.looked {w w₁ : World σ} {roots : List Element} (h : w.settle.look = (roots, w₁)) :
    Idles w.surface w₁.surface ∧ w₁.aliases = w.aliases := by
  have hworld : w₁ = w.settle.look.2 := by rw [h]
  subst hworld
  exact ⟨Idles.refl.settle.look, rfl⟩

/-- The last look of a wait. -/
theorem World.waitFrom_zero (isMet : List Element → Bool) (interval left looks : Nat)
    {w w₁ : World σ} {roots : List Element} (h : w.settle.look = (roots, w₁)) :
    waitFrom isMet interval 0 left looks w = ⟨isMet roots, looks + 1, w₁⟩ := by
  rw [waitFrom, h]
  cases hmet : isMet roots <;> simp [hmet]

/-- A look of a wait, and the wait that is left after it. -/
theorem World.waitFrom_succ (isMet : List Element → Bool) (interval n left looks : Nat)
    {w w₁ : World σ} {roots : List Element} (h : w.settle.look = (roots, w₁)) :
    waitFrom isMet interval (n + 1) left looks w =
      if isMet roots ∨ left = 0 then ⟨isMet roots, looks + 1, w₁⟩
      else waitFrom isMet interval n (left - min interval left) (looks + 1)
        (w₁.sleep (min interval left)) := by
  rw [waitFrom, h]
  cases hmet : isMet roots <;> simp [hmet]

/-- A wait ends with the look that shows what is wanted. -/
theorem World.waitFrom_of_isMet {isMet : List Element → Bool} {w w₁ : World σ}
    {roots : List Element} (h : w.settle.look = (roots, w₁)) (hmet : isMet roots = true)
    (interval sleeps left looks : Nat) :
    waitFrom isMet interval sleeps left looks w = ⟨true, looks + 1, w₁⟩ := by
  cases sleeps with
  | zero => rw [waitFrom_zero isMet interval left looks h, hmet]
  | succ n => rw [waitFrom_succ isMet interval n left looks h, hmet, if_pos (.inl rfl)]

/-- A wait ends with the look at the deadline. -/
theorem World.waitFrom_deadline (isMet : List Element → Bool) (interval sleeps looks : Nat)
    {w w₁ : World σ} {roots : List Element} (h : w.settle.look = (roots, w₁)) :
    waitFrom isMet interval sleeps 0 looks w = ⟨isMet roots, looks + 1, w₁⟩ := by
  cases sleeps with
  | zero => exact waitFrom_zero isMet interval 0 looks h
  | succ n => rw [waitFrom_succ isMet interval n 0 looks h, if_pos (.inr rfl)]

/-- A wait for what shows at once ends with the first look. -/
theorem World.waitFor_of_isMet {isMet : List Element → Bool} {w w₁ : World σ}
    {roots : List Element} (h : w.settle.look = (roots, w₁)) (hmet : isMet roots = true)
    (time interval : Nat) : w.waitFor isMet time interval = ⟨true, 1, w₁⟩ :=
  waitFrom_of_isMet h hmet interval _ time 0

/-- Waiting lets the surface idle, and the aliases are as before. -/
theorem World.waitFrom_idles (isMet : List Element → Bool) (interval sleeps left looks : Nat)
    (w : World σ) :
    Idles w.surface (waitFrom isMet interval sleeps left looks w).world.surface ∧
      (waitFrom isMet interval sleeps left looks w).world.aliases = w.aliases := by
  induction sleeps generalizing left looks w with
  | zero =>
    rcases hw : w.settle.look with ⟨roots, w₁⟩
    rw [waitFrom_zero isMet interval left looks hw]
    exact looked hw
  | succ n ih =>
    rcases hw : w.settle.look with ⟨roots, w₁⟩
    obtain ⟨hidles, haliases⟩ := looked hw
    rw [waitFrom_succ isMet interval n left looks hw]
    split
    · exact ⟨hidles, haliases⟩
    · obtain ⟨hrest, hkept⟩ :=
        ih (left - min interval left) (looks + 1) (w₁.sleep (min interval left))
      exact ⟨hidles.trans hrest, hkept.trans haliases⟩

namespace Step
variable {config : Config} {action : Action} {fallback : Option Query} {s : Step} {w : World σ}

theorem await_idles (config : Config) (q : Query) (s : Step) (w : World σ) :
    Idles w.surface (s.await config q w).world.surface ∧
      (s.await config q w).world.aliases = w.aliases :=
  World.waitFrom_idles _ _ _ _ _ w

/-- Looking for a target lets the surface idle. -/
theorem obtain_idles (config : Config) (action : Action) (fallback : Option Query) (s : Step)
    (w : World σ) : Idles w.surface (s.obtain config action fallback w).2.surface := by
  rw [obtain]
  split
  · exact .refl
  · split
    · exact .refl
    · rename_i q _ _ _ _
      have hawait := (await_idles config q s w).1
      simp only
      split
      · exact hawait
      · split
        · exact hawait.look
        · rw [registerAlias]
          split <;> exact hawait.look

variable {act : Nat → σ → Except SurfaceError Unit × σ}

/-- A step that acts on its target and does not fail found the target, the action on it
succeeded, and the surface settled after it. -/
theorem actOnTarget_ok {o : StepOutcome} {w' : World σ}
    (h : s.actOnTarget config action fallback act w = (.ok o, w')) :
    o = .performed ∧ ∃ t w₁ surface, s.obtain config action fallback w = (.ok t, w₁) ∧
      act t.element.id w₁.surface = (.ok (), surface) ∧
      w' = ({ w₁ with surface := surface } : World σ).settle := by
  rw [actOnTarget] at h
  split at h
  · cases h
  · rename_i t w₁ hobtain
    rcases hact : act t.element.id w₁.surface with ⟨r, surface⟩
    simp only [World.act, hact] at h
    cases r with
    | error e => cases h
    | ok u =>
      cases h
      exact ⟨rfl, t, w₁, surface, hobtain, hact, rfl⟩

/-- A step that acts on its target and fails did so before the action, or the action
failed. -/
theorem actOnTarget_error {e : StepError} {w' : World σ}
    (h : s.actOnTarget config action fallback act w = (.error e, w')) :
    Idles w.surface w'.surface ∨
      ∃ t w₁ cause surface, s.obtain config action fallback w = (.ok t, w₁) ∧
        act t.element.id w₁.surface = (.error cause, surface) ∧ e = .surface cause ∧
        w' = { w₁ with surface := surface } := by
  rw [actOnTarget] at h
  split at h
  · rename_i f w₁ hobtain
    cases h
    have hidles := obtain_idles config action fallback s w
    rw [hobtain] at hidles
    exact .inl hidles
  · rename_i t w₁ hobtain
    rcases hact : act t.element.id w₁.surface with ⟨r, surface⟩
    simp only [World.act, hact] at h
    cases r with
    | error cause =>
      cases h
      exact .inr ⟨t, w₁, cause, surface, hobtain, hact, rfl, rfl⟩
    | ok u => cases h

/-- A step of any other kind lets the surface idle, whatever its outcome. -/
theorem perform_idles (hclick : action ≠ .click) (henter : action ≠ .enter) :
    Idles w.surface (s.perform config action w).2.surface := by
  have hobtain (fallback : Option Query) :
      Idles w.surface (s.obtain config action fallback w).2.surface :=
    obtain_idles config action fallback s w
  cases action with
  | click => exact absurd rfl hclick
  | enter => exact absurd rfl henter
  | wait => exact Idles.refl.settle
  | unknown tag =>
    rw [perform]
    split <;> exact .refl
  | assertText =>
    rw [perform]
    split
    · exact .refl
    · rename_i expected hexpected
      have hidles := hobtain (some (.exactText expected))
      split
      · rename_i e w' hw
        rw [hw] at hidles
        exact hidles
      · rename_i t w' hw
        rw [hw] at hidles
        split <;> exact hidles
  | assertVisible =>
    rw [perform]
    have hidles := hobtain none
    split
    · rename_i e w' hw
      rw [hw] at hidles
      exact hidles
    · rename_i t w' hw
      rw [hw] at hidles
      exact hidles

/-- A step is executed by performing its action; a failure tells the place of the step. -/
theorem execute_eq (index : Nat) :
    s.execute config index w =
      ((s.perform config (Action.ofTag s.action) w).1.mapError fun e =>
        ⟨index + 1, s.context (Action.ofTag s.action), e⟩,
      (s.perform config (Action.ofTag s.action) w).2) := by
  rw [execute]
  split
  · rename_i e w' h
    rw [h]
    rfl
  · rename_i o w' h
    rw [h]
    rfl

end Step
end UiSuite
