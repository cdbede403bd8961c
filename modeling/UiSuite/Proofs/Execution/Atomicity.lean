import UiSuite.Proofs.Execution.Searching
import UiSuite.Surface.Faulty
import UiSuite.Proofs.Surface.Recording

/-! What a step leaves behind when it fails.

A step that lacks a field or names no target fails before anything happened to the world. One
that waited in vain let time pass and the surface settle, and did nothing else. The aliases
change in one place only and for one reason: the step found its target and has an alias, which
stands for the query of the target from then on, whatever becomes of the step afterwards
(`Step.execute_atomic`). -/
namespace UiSuite

/-- A record that a surface keeps of what is done to it; settling and looking are not recorded. -/
structure Recording (σ : Type) [Surface σ] where
  interactions : σ → List Interaction
  settle : ∀ s, interactions (Surface.settle s) = interactions s
  look : ∀ s, interactions (Surface.snapshot s).2 = interactions s

namespace Recording
variable {σ : Type} [Surface σ]

theorem idles (recording : Recording σ) {s t : σ} (h : Idles s t) :
    recording.interactions t = recording.interactions s :=
  h.keeps recording.settle recording.look

/-- The record of a stage. -/
def stage : Recording Stage where
  interactions := Stage.interactions
  settle := Stage.settle_interactions
  look _ := rfl

/-- The record of a surface with faults is that of the surface behind them. -/
def faulty (recording : Recording σ) : Recording (Faulty σ) where
  interactions s := recording.interactions s.base
  settle s := recording.settle s.base
  look s := by
    show recording.interactions (Faulty.snapshot s).2.base = _
    rw [Faulty.snapshot]
    split
    · rfl
    · exact recording.look s.base
    · exact recording.look s.base

end Recording

variable {σ : Type} [Surface σ] {config : Config} {s : Step} {w : World σ}

namespace Step

/-- Of all searches only one that succeeds changes the aliases. -/
theorem Search.aliases {action : Action} {fallback : Option Query}
    {r : Except StepError Target × World σ} (h : s.Search config action fallback w r) :
    r.2.aliases = s.enlist w.aliases r.1.toOption := by
  cases h with
  | refused hkind => rfl
  | missed hkind hidles haliases => exact haliases
  | @found q isExplicit before e w' hquery hidles hpick hsurface haliases =>
    have hregister := s.aliases_registerAlias ⟨q, e, isExplicit⟩ w'
    rw [haliases] at hregister
    exact hregister

/-- The search of a step, with the aliases it leaves. -/
theorem aliases_of_search? {r : Except StepError Target} {w' : World σ}
    (h : s.search? config w = some (r, w')) :
    w'.aliases = s.enlist w.aliases (s.found? config w) := by
  obtain ⟨fallback, hends⟩ := search_of_search? h
  rw [found?, h]
  exact hends.aliases

/-- The aliases after a step: only its search for a target can have changed them. -/
theorem Course.aliases {r : Except StepError StepOutcome} {w' : World σ}
    (h : s.Course config w (r, w')) : w'.aliases = s.enlist w.aliases (s.found? config w) := by
  have hnone (hsearch : s.search? config w = none) :
      w.aliases = s.enlist w.aliases (s.found? config w) := by
    rw [found?, hsearch]
    rfl
  cases h with
  | refused hsearch | skipped hsearch | waited hsearch => exact hnone hsearch
  | failed hsearch | seen hsearch | mismatched hsearch => exact aliases_of_search? hsearch
  | acted hsearch | repelled hsearch => exact (aliases_of_search? hsearch :)

/-- A step that fails for its own fields or its selector fails before anything happened. -/
theorem Course.eq_of_refused {e : StepError} {w' : World σ} (h : s.Course config w (.error e, w'))
    (hkind : e.kind = .config ∨ e.kind = .selector) : w' = w := by
  cases h with
  | refused => rfl
  | failed hsearch =>
    obtain ⟨fallback, hends⟩ := search_of_search? hsearch
    cases hends with
    | refused => rfl
    | missed hmissed => rcases hkind with h | h <;> simp [h] at hmissed
  | mismatched hsearch hassertion => simp [hassertion] at hkind
  | repelled => simp [StepError.kind] at hkind

/-- A step that finds no target in time, or none at its place, let the surface idle. -/
theorem Course.idles_of_missed {e : StepError} {w' : World σ} (h : s.Course config w (.error e, w'))
    (hkind : e.kind = .timeout ∨ e.kind = .indexOutOfRange) :
    w'.aliases = w.aliases ∧ Idles w.surface w'.surface := by
  cases h with
  | refused hsearch hconfig => simp [hconfig] at hkind
  | failed hsearch =>
    obtain ⟨fallback, hends⟩ := search_of_search? hsearch
    cases hends with
    | refused hselector => simp [hselector] at hkind
    | missed hmissed hidles haliases => exact ⟨haliases, hidles⟩
  | mismatched hsearch hassertion => simp [hassertion] at hkind
  | repelled => simp [StepError.kind] at hkind

/-- Executing a step takes its course; a failure tells the error. -/
theorem course_execute (config : Config) (index : Nat) (s : Step) (w : World σ) :
    ∃ r, s.Course config w (r, (s.execute config index w).2) ∧
      ∀ f, (s.execute config index w).1 = .error f → r = .error f.error := by
  have hcourse := course config s w
  rw [execute_eq]
  generalize s.perform config (Action.ofTag s.action) w = performed at hcourse ⊢
  obtain ⟨r, w'⟩ := performed
  refine ⟨r, hcourse, fun f hf => ?_⟩
  cases r with
  | error e =>
    cases hf
    rfl
  | ok o => cases hf

/-- **What a step leaves behind.** If it fails for its own fields or its selector, the world is
as before. If it fails because nothing matched in time or at its place, the aliases and the
interactions are as before: the surface only settled and was looked at. In every case the
aliases change exactly if the step has an alias and found its target, and then only the alias
of the step does: it stands for the query of the target. -/
theorem execute_atomic (recording : Recording σ) (config : Config) (index : Nat) (s : Step)
    (w : World σ) :
    (∀ f, (s.execute config index w).1 = .error f →
        f.error.kind = .config ∨ f.error.kind = .selector → (s.execute config index w).2 = w) ∧
      (∀ f, (s.execute config index w).1 = .error f →
        f.error.kind = .timeout ∨ f.error.kind = .indexOutOfRange →
          (s.execute config index w).2.aliases = w.aliases ∧
            Idles w.surface (s.execute config index w).2.surface ∧
            recording.interactions (s.execute config index w).2.surface =
              recording.interactions w.surface) ∧
      ((s.execute config index w).2.aliases =
        match s.found? config w, s.usedAlias with
        | some t, some name => w.aliases.register name t.query
        | some _, none | none, _ => w.aliases) ∧
      ∀ name, s.usedAlias ≠ some name →
        (s.execute config index w).2.aliases.get? name = w.aliases.get? name := by
  obtain ⟨r, hcourse, herror⟩ := course_execute config index s w
  refine ⟨fun f hf hkind => ?_, fun f hf hkind => ?_, ?_, fun name hname => ?_⟩
  · rw [herror f hf] at hcourse
    exact hcourse.eq_of_refused hkind
  · rw [herror f hf] at hcourse
    obtain ⟨haliases, hidles⟩ := hcourse.idles_of_missed hkind
    exact ⟨haliases, hidles, recording.idles hidles⟩
  · rw [hcourse.aliases]
    unfold enlist
    cases s.found? config w <;> cases s.usedAlias <;> rfl
  · rw [hcourse.aliases]
    exact get?_enlist hname w.aliases _

/-- A button that cannot be tapped. -/
def stuckButton : World (Faulty Stage) :=
  .start ⟨Stage.ofForest [{ Element.blank with kind := .button, key := some "go" }], some "stuck", none,
    none⟩

/-- A click on it, with an alias. -/
def stuckClick : Step :=
  { Step.blank with action := "click", selector := some "key:go[0]", aliasName := some " go " }

/-- A click on another button, which is not there. -/
def goneClick : Step :=
  { Step.blank with
    action := "click", selector := some "key:gone", waitTime := some (.millis 60) }

/-- The click fails, and its alias stands for the button all the same. A step without an action
leaves everything as it is, and waiting for the other button records nothing. -/
theorem execute_atomic_stuckButton :
    (stuckClick.execute .standard 0 stuckButton).1 =
        .error ⟨1, "click key:go[0]", .surface (.other "stuck")⟩ ∧
      (stuckClick.execute .standard 0 stuckButton).2.aliases.entries =
        [("go", ⟨.key "go", some 0⟩)] ∧
      (Step.blank.execute .standard 1 stuckButton).2 = stuckButton ∧
      Recording.stage.faulty.interactions (goneClick.execute .standard 2 stuckButton).2.surface =
        [] := by
  have hstuck : (stuckClick.execute .standard 0 stuckButton).1 =
      .error ⟨1, "click key:go[0]", .surface (.other "stuck")⟩ := rfl
  have hrefused : (Step.blank.execute .standard 1 stuckButton).1 =
      .error ⟨2, "<missing action> (fallback)", .missingField "" "action"⟩ := rfl
  have hgone : (goneClick.execute .standard 2 stuckButton).1 =
      .error ⟨3, "click key:gone", .timeout "at least one match for 'key:gone'" 60⟩ := rfl
  obtain ⟨-, -, haliases, -⟩ :=
    execute_atomic Recording.stage.faulty .standard 0 stuckClick stuckButton
  obtain ⟨hblank, -⟩ := execute_atomic Recording.stage.faulty .standard 1 Step.blank stuckButton
  obtain ⟨-, hmissed, -⟩ := execute_atomic Recording.stage.faulty .standard 2 goneClick stuckButton
  refine ⟨hstuck, ?_, hblank _ hrefused (.inl rfl), (hmissed _ hgone (.inl rfl)).2.2⟩
  rw [haliases]
  decide +kernel

end Step
end UiSuite
