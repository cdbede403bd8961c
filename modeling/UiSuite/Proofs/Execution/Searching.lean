import UiSuite.Proofs.Execution.Performing

/-! How a step comes to its target and what it does then.

The search for a target ends in one of three ways (`Step.Search`): it is refused before
anything happened, it waited in vain, or a query had a match and the alias of the step stands
for that query from then on. What a step does is told by its search (`Step.Course`): only a
step that found its target goes on, and what it does then leaves the aliases alone. -/
namespace UiSuite

/-- What kind of failure an error is. -/
inductive StepError.Kind where
  | config
  | selector
  | timeout
  | indexOutOfRange
  | assertion
  | surface
deriving DecidableEq

def StepError.kind : StepError → Kind
  | missingField .. => .config
  | aliasNotFound _ | missingTarget _ | unknownTypeName _ => .selector
  | timeout .. => .timeout
  | indexOutOfRange .. => .indexOutOfRange
  | assertion _ => .assertion
  | surface _ => .surface

/-- The match a query takes stands at its place. -/
theorem Step.pick_eq_ok {q : Query} {roots : List Element} {e : Element} :
    pick q roots = .ok e ↔ (q.matching roots)[q.place]? = some e := by
  rw [pick]
  split
  · rename_i found hfound
    rw [hfound, Except.ok.injEq, Option.some.injEq]
  · rename_i hnone
    rw [hnone]
    simp

/-- A match a query takes is one that its strategy accepts. -/
theorem Step.accepts_of_pick {q : Query} {roots : List Element} {e : Element}
    (h : pick q roots = .ok e) : q.strategy.accepts e = true :=
  (List.mem_filter.1 (List.mem_of_getElem? (pick_eq_ok.1 h))).2

/-- There is no match at the place of a query when there are fewer. -/
theorem Step.pick_eq_error {q : Query} {roots : List Element} {e : StepError} :
    pick q roots = .error e ↔
      e = .indexOutOfRange q.render q.place (q.matching roots).length ∧
        (q.matching roots).length ≤ q.place := by
  rw [← List.getElem?_eq_none_iff, pick]
  split
  · rename_i found hfound
    simp [hfound]
  · rename_i hnone
    simp [hnone, eq_comm]

theorem Step.kind_of_pick {q : Query} {roots : List Element} {e : StepError}
    (h : pick q roots = .error e) : e.kind = .indexOutOfRange := by
  obtain ⟨rfl, -⟩ := pick_eq_error.1 h
  rfl

/-- Only unknown types are refused. -/
theorem Step.refusedName_of_known {q : Query} (h : ∀ name, q.strategy ≠ .unknownKind name)
    (config : Config) : refusedName config q = none := by
  unfold refusedName
  split
  · rename_i name hname
    exact absurd hname (h name)
  · rfl

/-- Without a query there is no target. -/
theorem Step.kind_of_query {aliases : AliasTable} {action : Action} {fallback : Option Query}
    {s : Step} {e : StepError} (h : s.query aliases action fallback = .error e) :
    e.kind = .selector := by
  unfold query at h
  split at h
  · split at h <;> cases h
    rfl
  · split at h <;> cases h
    rfl
  · split at h <;> cases h
    rfl

variable {σ : Type}

/-- The aliases after a search for the target of a step: if there is a target, the alias of the
step stands for its query. -/
def Step.enlist (s : Step) (aliases : AliasTable) (found : Option Target) : AliasTable :=
  match found, s.usedAlias with
  | some t, some name => aliases.register name t.query
  | some _, none | none, _ => aliases

/-- Only the alias of the step can stand for something else. -/
theorem Step.get?_enlist {s : Step} {name : String} (h : s.usedAlias ≠ some name)
    (aliases : AliasTable) (found : Option Target) :
    (s.enlist aliases found).get? name = aliases.get? name := by
  unfold enlist
  split
  · rename_i t used hused
    have hne : name ≠ used := fun heq => h (heq ▸ hused)
    rw [AliasTable.get?_register, if_neg hne]
  · rfl
  · rfl

theorem Step.aliases_registerAlias (s : Step) (t : Target) (w : World σ) :
    (s.registerAlias t.query w).aliases = s.enlist w.aliases (some t) := by
  cases h : s.usedAlias <;> simp [registerAlias, enlist, h]

theorem Step.surface_registerAlias (s : Step) (q : Query) (w : World σ) :
    (s.registerAlias q w).surface = w.surface := by
  rw [registerAlias]
  cases s.usedAlias <;> rfl

variable [Surface σ]

/-! ### The search for a target -/

/-- How the search for a target ends. -/
inductive Step.Search (config : Config) (action : Action) (fallback : Option Query) (s : Step)
    (w : World σ) : Except StepError Target × World σ → Prop
  | refused {e : StepError} (hkind : e.kind = .selector) : Search config action fallback s w (.error e, w)
  | missed {e : StepError} {w' : World σ} (hkind : e.kind = .timeout ∨ e.kind = .indexOutOfRange)
      (hidles : Idles w.surface w'.surface) (haliases : w'.aliases = w.aliases) :
      Search config action fallback s w (.error e, w')
  | found {q : Query} {isExplicit : Bool} {before : σ} {e : Element} {w' : World σ}
      (hquery : s.query w.aliases action fallback = .ok (q, isExplicit))
      (hidles : Idles w.surface before) (hpick : pick q (Surface.snapshot before).1 = .ok e)
      (hsurface : w'.surface = (Surface.snapshot before).2) (haliases : w'.aliases = w.aliases) :
      Search config action fallback s w (.ok ⟨q, e, isExplicit⟩, s.registerAlias q w')

theorem Step.search (config : Config) (action : Action) (fallback : Option Query) (s : Step)
    (w : World σ) : Search config action fallback s w (s.obtain config action fallback w) := by
  rw [obtain]
  split
  · rename_i e hquery
    exact .refused (kind_of_query hquery)
  · rename_i q isExplicit hquery
    split
    · exact .refused rfl
    · obtain ⟨hidles, haliases⟩ := await_idles config q s w
      simp only
      split
      · exact .missed (.inl rfl) hidles haliases
      · split
        · rename_i e hpick
          exact .missed (.inr (kind_of_pick hpick)) hidles.look haliases
        · rename_i e hpick
          exact .found hquery hidles hpick rfl haliases

/-- The search for a query that may be looked for: what the last look of the wait shows decides. -/
theorem Step.obtain_of_query {config : Config} {action : Action} {fallback : Option Query}
    {s : Step} {w : World σ} {q : Query} {isExplicit : Bool}
    (hquery : s.query w.aliases action fallback = .ok (q, isExplicit))
    (hknown : refusedName config q = none) :
    s.obtain config action fallback w =
      if (s.await config q w).isMet then
        match pick q (s.await config q w).world.look.1 with
        | .error e => (.error e, (s.await config q w).world.look.2)
        | .ok e =>
          (.ok ⟨q, e, isExplicit⟩, s.registerAlias q (s.await config q w).world.look.2)
      else
        (.error (.timeout ("at least one match for '" ++ q.render ++ "'")
          (s.waitMillis config.waits.elementTimeout)), (s.await config q w).world) := by
  rw [obtain, hquery]
  simp only [hknown]
  cases (s.await config q w).isMet <;> rfl

/-- The search that found a target. -/
theorem Step.search_of_toOption {config : Config} {action : Action} {fallback : Option Query}
    {s : Step} {w : World σ} {t : Target}
    (h : (s.obtain config action fallback w).1.toOption = some t) :
    s.Search config action fallback w (.ok t, (s.obtain config action fallback w).2) := by
  have hsearch := search config action fallback s w
  generalize s.obtain config action fallback w = found at h hsearch ⊢
  obtain ⟨r, w'⟩ := found
  cases r with
  | error e => cases h
  | ok t' =>
    cases h
    exact hsearch

/-- A target that was found was found by the query of the step. -/
theorem Step.Search.query {config : Config} {action : Action} {fallback : Option Query} {s : Step}
    {w w' : World σ} {t : Target} (h : s.Search config action fallback w (.ok t, w')) :
    s.query w.aliases action fallback = .ok (t.query, t.isExplicit) := by
  cases h with
  | found hquery hidles hpick hsurface haliases => exact hquery

/-- A target that was found is one that the strategy of its query accepts. -/
theorem Step.Search.accepts {config : Config} {action : Action} {fallback : Option Query}
    {s : Step} {w w' : World σ} {t : Target}
    (h : s.Search config action fallback w (.ok t, w')) :
    t.query.strategy.accepts t.element = true := by
  cases h with
  | found hquery hidles hpick hsurface haliases => exact accepts_of_pick hpick

/-! ### The course of a step -/

/-- What the target of a step may be, where its selector and its alias name none; nothing where
the step does not come to looking for one. -/
def Step.fallback? (s : Step) : Option (Option Query) :=
  match Action.ofTag s.action with
  | .click | .assertVisible => some none
  | .enter => s.value.map fun _ => some .textInput
  | .assertText => s.expected.map fun expected => some (.exactText expected)
  | .wait | .unknown _ => none

/-- The query a step comes to look for, if it does, and whether the step names it. -/
def Step.usedQuery? (s : Step) (aliases : AliasTable) : Option (Query × Bool) :=
  s.fallback?.bind fun fallback => (s.query aliases (Action.ofTag s.action) fallback).toOption

/-- The search for a target that a step comes to, if it does. -/
def Step.search? (config : Config) (s : Step) (w : World σ) :
    Option (Except StepError Target × World σ) :=
  s.fallback?.map fun fallback => s.obtain config (Action.ofTag s.action) fallback w

/-- The target a step finds, if it comes to looking for one and finds it. -/
def Step.found? (config : Config) (s : Step) (w : World σ) : Option Target :=
  (s.search? config w).bind fun found => found.1.toOption

/-- The world after the search that a step comes to. -/
def Step.searched (config : Config) (s : Step) (w : World σ) : World σ :=
  ((s.search? config w).map (·.2)).getD w

/-- What can be done to a target. -/
inductive Target.Act (t : Target) : (σ → Except SurfaceError Unit × σ) → Prop
  | tap : Act t (Surface.tap t.element.id)
  | enterText (text : String) : Act t (Surface.enterText t.element.id text)

/-- What a step does, told by its search for a target. -/
inductive Step.Course (config : Config) (s : Step) (w : World σ) :
    Except StepError StepOutcome × World σ → Prop
  | refused {e : StepError} (hsearch : s.search? config w = none) (hkind : e.kind = .config) :
      Course config s w (.error e, w)
  | skipped {tag : String} (hsearch : s.search? config w = none) :
      Course config s w (.ok (.skipped tag), w)
  | waited {millis : Nat} (hsearch : s.search? config w = none) :
      Course config s w (.ok .performed, (w.sleep millis).settle)
  | failed {e : StepError} {w' : World σ} (hsearch : s.search? config w = some (.error e, w')) :
      Course config s w (.error e, w')
  | seen {t : Target} {w' : World σ} (hsearch : s.search? config w = some (.ok t, w')) :
      Course config s w (.ok .performed, w')
  | mismatched {t : Target} {e : StepError} {w' : World σ}
      (hsearch : s.search? config w = some (.ok t, w')) (hkind : e.kind = .assertion) :
      Course config s w (.error e, w')
  | acted {t : Target} {act : σ → Except SurfaceError Unit × σ} {w' : World σ} {surface : σ}
      (hsearch : s.search? config w = some (.ok t, w')) (hact : t.Act act)
      (hdone : act w'.surface = (.ok (), surface)) :
      Course config s w (.ok .performed, ({ w' with surface := surface } : World σ).settle)
  | repelled {t : Target} {act : σ → Except SurfaceError Unit × σ} {cause : SurfaceError}
      {w' : World σ} {surface : σ}
      (hsearch : s.search? config w = some (.ok t, w')) (hact : t.Act act)
      (hdone : act w'.surface = (.error cause, surface)) :
      Course config s w (.error (.surface cause), { w' with surface := surface })

namespace Step
variable {config : Config} {s : Step} {w : World σ}

theorem search?_eq_none (h : s.fallback? = none) : s.search? config w = none := by
  rw [search?, h]
  rfl

theorem search?_eq {action : Action} {fallback : Option Query}
    (haction : Action.ofTag s.action = action) (hfallback : s.fallback? = some fallback) :
    s.search? config w = some (s.obtain config action fallback w) := by
  rw [search?, hfallback, haction]
  rfl

/-- The query a step uses is that of its search. -/
theorem usedQuery?_eq {aliases : AliasTable} {fallback : Option Query}
    (hfallback : s.fallback? = some fallback) :
    s.usedQuery? aliases = (s.query aliases (Action.ofTag s.action) fallback).toOption := by
  rw [usedQuery?, hfallback]
  rfl

theorem usedQuery?_eq_some {aliases : AliasTable} {used : Query × Bool} :
    s.usedQuery? aliases = some used ↔ ∃ fallback, s.fallback? = some fallback ∧
      s.query aliases (Action.ofTag s.action) fallback = .ok used := by
  have htoOption (r : Except StepError (Query × Bool)) : r.toOption = some used ↔ r = .ok used := by
    cases r <;> simp [Except.toOption]
  simp only [usedQuery?, Option.bind_eq_some_iff, htoOption]

/-- The search a step comes to ends like any other. -/
theorem search_of_search? {r : Except StepError Target × World σ}
    (h : s.search? config w = some r) :
    ∃ fallback, s.Search config (Action.ofTag s.action) fallback w r := by
  obtain ⟨fallback, -, rfl⟩ := Option.map_eq_some_iff.1 h
  exact ⟨fallback, search config _ fallback s w⟩

/-- A target that was found, with the search that found it. -/
theorem search_of_found? {t : Target} (h : s.found? config w = some t) :
    ∃ fallback, s.Search config (Action.ofTag s.action) fallback w (.ok t, s.searched config w) := by
  obtain ⟨found, hsearch, ht⟩ := Option.bind_eq_some_iff.1 h
  rw [searched, hsearch]
  obtain ⟨fallback, -, rfl⟩ := Option.map_eq_some_iff.1 hsearch
  exact ⟨fallback, search_of_toOption ht⟩

theorem idles_searched (config : Config) (s : Step) (w : World σ) :
    Idles w.surface (s.searched config w).surface := by
  rw [searched, search?]
  cases s.fallback? with
  | none => exact .refl
  | some fallback => exact obtain_idles config (Action.ofTag s.action) fallback s w

/-- A step that acts on its target. -/
theorem course_actOnTarget {action : Action} {fallback : Option Query}
    {act : Nat → σ → Except SurfaceError Unit × σ} (haction : Action.ofTag s.action = action)
    (hfallback : s.fallback? = some fallback) (hact : ∀ t : Target, t.Act (act t.element.id)) :
    s.Course config w (s.actOnTarget config action fallback act w) := by
  have hsearch : s.search? config w = _ := search?_eq haction hfallback
  rcases h : s.obtain config action fallback w with ⟨r, w'⟩
  rw [h] at hsearch
  rw [actOnTarget, h]
  cases r with
  | error e => exact .failed hsearch
  | ok t =>
    rcases hdone : act t.element.id w'.surface with ⟨done, surface⟩
    simp only [World.act, hdone]
    cases done with
    | error cause => exact .repelled hsearch (hact t) hdone
    | ok _ => exact .acted hsearch (hact t) hdone

/-- What an assertion finds wrong is the assertion. -/
theorem kind_of_mismatch {expected : String} {t : Target} {e : StepError}
    (h : mismatch expected t = some e) : e.kind = .assertion := by
  simp only [mismatch] at h
  split at h <;> cases h
  rfl

/-- **What a step does.** -/
theorem course (config : Config) (s : Step) (w : World σ) :
    s.Course config w (s.perform config (Action.ofTag s.action) w) := by
  cases haction : Action.ofTag s.action with
  | unknown tag =>
    have hfallback : s.fallback? = none := by rw [fallback?, haction]
    rw [perform]
    split
    · exact .refused (search?_eq_none hfallback) rfl
    · exact .skipped (search?_eq_none hfallback)
  | wait =>
    have hfallback : s.fallback? = none := by rw [fallback?, haction]
    exact .waited (search?_eq_none hfallback)
  | click =>
    have hfallback : s.fallback? = some none := by rw [fallback?, haction]
    exact course_actOnTarget haction hfallback fun t => .tap
  | enter =>
    rw [perform]
    split
    · rename_i hvalue
      have hfallback : s.fallback? = none := by
        rw [fallback?, haction, hvalue]
        rfl
      exact .refused (search?_eq_none hfallback) rfl
    · rename_i value hvalue
      have hfallback : s.fallback? = some (some .textInput) := by
        rw [fallback?, haction, hvalue]
        rfl
      exact course_actOnTarget haction hfallback fun t => .enterText value
  | assertText =>
    rw [perform]
    split
    · rename_i hexpected
      have hfallback : s.fallback? = none := by
        rw [fallback?, haction, hexpected]
        rfl
      exact .refused (search?_eq_none hfallback) rfl
    · rename_i expected hexpected
      have hfallback : s.fallback? = some (some (.exactText expected)) := by
        rw [fallback?, haction, hexpected]
        rfl
      have hsearch : s.search? config w = _ := search?_eq haction hfallback
      split
      · rename_i e w' hobtain
        exact .failed (hobtain ▸ hsearch)
      · rename_i t w' hobtain
        split
        · rename_i e hmismatch
          exact .mismatched (hobtain ▸ hsearch) (kind_of_mismatch hmismatch)
        · exact .seen (hobtain ▸ hsearch)
  | assertVisible =>
    have hfallback : s.fallback? = some none := by rw [fallback?, haction]
    have hsearch : s.search? config w = _ := search?_eq haction hfallback
    rw [perform]
    split
    · rename_i e w' hobtain
      exact .failed (hobtain ▸ hsearch)
    · rename_i t w' hobtain
      exact .seen (hobtain ▸ hsearch)

end Step
end UiSuite
