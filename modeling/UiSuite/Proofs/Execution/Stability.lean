import UiSuite.Proofs.Execution.Registering
import UiSuite.Proofs.Execution.Sighting

/-! What an alias stands for, in the long run.

On a stage an alias whose query does not ask for texts keeps its element. The stage only grows,
so the query keeps its match; and a step that refers to the alias by name registers the query it
finds there (`Held`). This lasts until the aliases are forgotten or a step gives the alias to what
its own selector names (`Call.Spares`). All steps in between that refer to the alias obtain the
same element (`Step.obtain_stable`). -/
namespace UiSuite

/-- Whether a stage shows an element at the place a query takes, but for texts that were
entered. -/
def Stage.Shows (s : Stage) (q : Query) (e : Element) : Prop :=
  ∃ e', Step.pick q s.roots = .ok e' ∧ e'.unwritten = e.unwritten

theorem Stage.Grows.shows {s t : Stage} (h : s.Grows t) {q : Query}
    (hq : q.strategy.IgnoresText) {e : Element} (he : s.Shows q e) : t.Shows q e := by
  obtain ⟨e', hpick, hsame⟩ := he
  obtain ⟨e'', hat, hkept⟩ := h.matching hq (Step.pick_eq_ok.1 hpick)
  exact ⟨e'', Step.pick_eq_ok.2 hat, hkept.trans hsame⟩

/-! ### Steps on a stage -/

theorem Target.Act.grows {t : Target} {act : Stage → Except SurfaceError Unit × Stage}
    (h : t.Act act) (s : Stage) : s.Grows (act s).2 := by
  cases h with
  | tap => exact s.grows_tap t.element.id
  | enterText text => exact s.grows_enterText t.element.id text

namespace Step
variable {config : Config} {s : Step} {w w' : World Stage}

/-- What a step does after its search lets the stage grow. -/
theorem Course.grows_searched {r : Except StepError StepOutcome} (h : s.Course config w (r, w')) :
    (s.searched config w).surface.Grows w'.surface := by
  rw [searched]
  cases h with
  | refused hsearch | skipped hsearch | failed hsearch | seen hsearch | mismatched hsearch =>
    rw [hsearch]
    exact .refl _
  | waited hsearch =>
    rw [hsearch]
    exact Stage.grows_settle _
  | @acted t act found surface hsearch hact hdone =>
    have hacted := hact.grows found.surface
    rw [hdone] at hacted
    rw [hsearch]
    exact hacted.trans (Stage.grows_settle _)
  | @repelled t act cause found surface hsearch hact hdone =>
    have hacted := hact.grows found.surface
    rw [hdone] at hacted
    rw [hsearch]
    exact hacted

/-- A step lets the stage grow. -/
theorem Course.grows {r : Except StepError StepOutcome} (h : s.Course config w (r, w')) :
    w.surface.Grows w'.surface :=
  (Stage.grows_of_idles (idles_searched config s w)).trans h.grows_searched

/-- The target of a step is shown at the place its query takes. -/
theorem shows_of_found? {t : Target} (h : s.found? config w = some t) :
    (s.searched config w).surface.Shows t.query t.element := by
  obtain ⟨fallback, hsearch⟩ := search_of_found? h
  exact ⟨t.element, hsearch.pick, rfl⟩

/-- A match that shows when the stage settles is obtained, at the first look. -/
theorem obtain_of_shows {action : Action} {fallback : Option Query} {q : Query} {isExplicit : Bool}
    {e : Element} (hquery : s.query w.aliases action fallback = .ok (q, isExplicit))
    (hshows : w.surface.settle.Shows q e) :
    ∃ e', (s.obtain config action fallback w).1 = .ok ⟨q, e', isExplicit⟩ ∧
      e'.unwritten = e.unwritten := by
  obtain ⟨e', hpick, hsame⟩ := hshows
  exact ⟨e', by rw [obtain_of_pick hquery hpick], hsame⟩

end Step

/-! ### Aliases that keep their element -/

/-- An alias stands for a query, and the stage shows an element at the place the query takes. -/
structure Held (name : String) (q : Query) (e : Element) (w : World Stage) : Prop where
  named : w.aliases.get? name = some q
  shows : w.surface.Shows q e

/-- Whether a step does not give an alias to what its own selector names. -/
def Step.Spares (name : String) (s : Step) : Prop :=
  s.usedSelector = none ∨ s.usedAlias ≠ some name

/-- Whether a step refers to an alias, as its own or by its selector, and means the alias itself
and not one with an index. -/
def Step.Refers (name : String) (s : Step) : Prop :=
  s.usedSelector = none ∧ s.usedAlias = some name ∨
    s.selector = some ("alias:" ++ name) ∧ ∀ body n, ¬ Query.Indexed name.toList body n

/-- Whether a call does not take an alias away from its query. What changes the stage from outside
is a move. -/
def Call.Spares (name : String) : Call Stage → Prop
  | .execute _ _ s | .obtain _ _ _ s => s.Spares name
  | .run _ suite _ => ∀ c ∈ suite.cases, ∀ s ∈ c.steps, s.Spares name
  | .reset => False
  | .change f => ∃ m : Move, ∀ s, f s = s.move m

variable {name : String} {q : Query} {e : Element}

/-- A step that names its target by an alias finds the query of the alias, whatever its action. -/
theorem Step.query_of_alias {s : Step} {aliases : AliasTable} (hselector : s.usedSelector = none)
    (hname : s.usedAlias = some name) (hget : aliases.get? name = some q) (action : Action)
    (fallback : Option Query) : s.query aliases action fallback = .ok (q, true) := by
  unfold query
  simp only [hselector, hname, hget]

/-- So does one whose selector refers to it. -/
theorem Step.query_of_reference {s : Step} {aliases : AliasTable}
    (hselector : s.selector = some ("alias:" ++ name))
    (hplain : ∀ body n, ¬ Query.Indexed name.toList body n) (htrimmed : Text.trimmed name = name)
    (hget : aliases.get? name = some q) (action : Action) (fallback : Option Query) :
    s.query aliases action fallback = .ok (q, true) := by
  have hused : s.usedSelector = some ("alias:" ++ name) := by
    have hshown : Text.isBlankText ("alias:" ++ name) = false := by
      rw [Text.isBlankText, String.toList_append, List.all_append]
      rfl
    rw [usedSelector, hselector, Option.filter_some, hshown]
    rfl
  have hresolve : aliases.resolve (.parse ("alias:" ++ name)) = .ok q := by
    rw [Query.parse_reference, Query.splitIndex_of_not_indexed hplain, String.ofList_toList,
      htrimmed, AliasTable.resolve_named, hget]
    rfl
  unfold query
  simp only [hused, hresolve]

/-- A search that does not give the alias to something else leaves it its query. -/
theorem Step.get?_enlist_of_spares {s : Step} {aliases : AliasTable} {found : Option Target}
    (hspares : s.Spares name) (hget : aliases.get? name = some q)
    (hfound : ∀ t, found = some t → ∃ action fallback,
      s.query aliases action fallback = .ok (t.query, t.isExplicit)) :
    (s.enlist aliases found).get? name = some q := by
  by_cases hname : s.usedAlias = some name
  · have hselector : s.usedSelector = none := hspares.resolve_right fun hne => hne hname
    cases found with
    | none =>
      unfold enlist
      exact hget
    | some t =>
      -- The query it finds is the one that is registered again.
      obtain ⟨action, fallback, hquery⟩ := hfound t rfl
      rw [query_of_alias hselector hname hget, Except.ok.injEq, Prod.mk.injEq] at hquery
      simp only [enlist, hname, AliasTable.get?_register, if_true, hquery.1]
  · rw [get?_enlist hname, hget]

namespace Held

theorem grows {w w' : World Stage} (h : Held name q e w) (hq : q.strategy.IgnoresText)
    (hgrows : w.surface.Grows w'.surface) (hget : w'.aliases.get? name = some q) :
    Held name q e w' :=
  ⟨hget, hgrows.shows hq h.shows⟩

theorem execute {s : Step} {w : World Stage} (h : Held name q e w) (hq : q.strategy.IgnoresText)
    (hspares : s.Spares name) (config : Config) (index : Nat) :
    Held name q e (s.execute config index w).2 := by
  obtain ⟨r, hcourse, -⟩ := Step.course_execute config index s w
  refine h.grows hq hcourse.grows ?_
  rw [hcourse.aliases]
  refine Step.get?_enlist_of_spares hspares h.named fun t ht => ?_
  obtain ⟨fallback, hsearch⟩ := Step.search_of_found? ht
  exact ⟨_, fallback, hsearch.query⟩

theorem obtain {s : Step} {w : World Stage} (h : Held name q e w) (hq : q.strategy.IgnoresText)
    (hspares : s.Spares name) (config : Config) (action : Action) (fallback : Option Query) :
    Held name q e (s.obtain config action fallback w).2 := by
  refine h.grows hq (Stage.grows_of_idles (Step.obtain_idles config action fallback s w)) ?_
  rw [(Step.search config action fallback s w).aliases]
  exact Step.get?_enlist_of_spares hspares h.named fun t ht =>
    ⟨action, fallback, (Step.search_of_toOption ht).query⟩

/-- A call that does not take the alias away lets it keep its element. -/
theorem call {w : World Stage} (h : Held name q e w) (hq : q.strategy.IgnoresText)
    {c : Call Stage} (hspares : c.Spares name) : Held name q e (w.call c) := by
  cases c with
  | execute config index s => exact h.execute hq hspares config index
  | obtain config action fallback s => exact h.obtain hq hspares config action fallback
  | run config suite source =>
    have hstep (index : Nat) (s : Step) (w : World Stage) (hspares : s.Spares name)
        (h : Held name q e w) := h.execute hq hspares config index
    exact Suite.run_keeps hstep suite hspares w source h
  | reset => cases hspares
  | change f =>
    obtain ⟨m, hm⟩ := hspares
    refine h.grows hq ?_ h.named
    show w.surface.Grows (f w.surface)
    rw [hm]
    exact w.surface.grows_move m

/-- A step that finds its target and gives it an alias, by a query that does not ask for texts. -/
theorem of_found? {config : Config} {s : Step} {w : World Stage} {t : Target}
    (hname : s.usedAlias = some name) (hfound : s.found? config w = some t)
    (hq : t.query.strategy.IgnoresText) (index : Nat) :
    Held name t.query t.element (s.execute config index w).2 := by
  obtain ⟨r, hcourse, -⟩ := Step.course_execute config index s w
  constructor
  · rw [hcourse.aliases, hfound]
    simp only [Step.enlist, hname, AliasTable.get?_register, if_true]
  · exact hcourse.grows_searched.shows hq (Step.shows_of_found? hfound)

/-- Who refers to an alias obtains its element. -/
theorem obtained {s : Step} {w : World Stage} (h : Held name q e w) (hq : q.strategy.IgnoresText)
    (htrimmed : Text.trimmed name = name) (hrefers : s.Refers name) (config : Config)
    (action : Action) (fallback : Option Query) :
    ∃ e', (s.obtain config action fallback w).1 = .ok ⟨q, e', true⟩ ∧
      e'.unwritten = e.unwritten := by
  have hquery : s.query w.aliases action fallback = .ok (q, true) := by
    rcases hrefers with ⟨hselector, hname⟩ | ⟨hselector, hplain⟩
    · exact Step.query_of_alias hselector hname h.named action fallback
    · exact Step.query_of_reference hselector hplain htrimmed h.named action fallback
  exact Step.obtain_of_shows hquery (w.surface.grows_settle.shows hq h.shows)

end Held

/-- **An alias keeps its element.** A step found a target by a query that does not ask for texts,
and has an alias. After whatever calls that do not take the alias away, a step that refers to the
alias obtains the same element: it has the same id, and nothing about it changed but texts that
were entered. -/
theorem Step.obtain_stable {config : Config} {s : Step} {w : World Stage} {name : String}
    {t : Target} (hname : s.usedAlias = some name) (hfound : s.found? config w = some t)
    (hq : t.query.strategy.IgnoresText) (index : Nat) {calls : List (Call Stage)}
    (hspares : ∀ c ∈ calls, c.Spares name) {later : Step} (hrefers : later.Refers name)
    (config' : Config) (action : Action) (fallback : Option Query) :
    ∃ t', (later.obtain config' action fallback
        ((s.execute config index w).2.calls calls)).1 = .ok t' ∧
      t'.query = t.query ∧ t'.element.id = t.element.id ∧
      t'.element.unwritten = t.element.unwritten := by
  have hheld : Held name t.query t.element ((s.execute config index w).2.calls calls) :=
    World.calls_keeps (fun c w hspares h => h.call hq hspares) calls hspares _
      (Held.of_found? hname hfound hq index)
  obtain ⟨e', hobtain, hsame⟩ :=
    hheld.obtained hq (usedAlias_spec hname).2 hrefers config' action fallback
  refine ⟨⟨t.query, e', true⟩, hobtain, rfl, ?_, hsame⟩
  rw [← Element.unwritten_id, hsame, Element.unwritten_id]

/-- Calls while the alias of the account field is in use: another such field appears, a text is
entered by the alias, and a click finds nothing. -/
def accountCalls : List (Call Stage) :=
  [.change (·.schedule 0 { Element.blank with kind := .textInput, label := some "Account" }),
    .execute .standard 1 { Step.blank with
      action := "type", aliasName := some "account", value := some "17" },
    .execute .standard 2 { Step.blank with
      action := "click", selector := some "key:gone", waitTime := some (.millis 60) }]

/-- A step that refers to the alias finds the first field, with the text entered. -/
theorem Step.obtain_stable_accountCalls :
    let click : Step := { Step.blank with action := "click", selector := some "alias:account" }
    let w := ((naming "account").execute .standard 0 accountForm).2.calls accountCalls
    ∃ t, (click.obtain .standard .click none w).1 = .ok t ∧ t.element.id = 1 ∧
      t.element.text = some "17" := by
  intro click w
  obtain ⟨t, hfound, hquery, hid⟩ : ∃ t, (naming "account").found? .standard accountForm = some t ∧
      t.query = ⟨.label "Account", none⟩ ∧ t.element.id = 1 := ⟨_, rfl, rfl, rfl⟩
  have hspares : ∀ c ∈ accountCalls, c.Spares "account" := by
    simp only [accountCalls, List.forall_mem_cons, Call.Spares]
    refine ⟨⟨.schedule 0 _, fun s => rfl⟩, .inl rfl, .inr (by decide), fun c hc => ?_⟩
    cases hc
  have hindex : (Query.splitIndex "account".toList).2 = none := by decide
  have hrefers : click.Refers "account" := .inr ⟨rfl, Query.not_indexed_of_splitIndex hindex⟩
  obtain ⟨t', hobtain, -, hsame, -⟩ := obtain_stable (by decide) hfound (hquery ▸ trivial) 0 hspares
    hrefers .standard .click none
  have htext : (click.obtain .standard .click none w).1.toOption.map (·.element.text) =
      some (some "17") := by decide +kernel
  refine ⟨t', hobtain, hsame.trans hid, ?_⟩
  have hobtain' : (click.obtain .standard .click none w).1 = .ok t' := hobtain
  rw [hobtain'] at htext
  exact Option.some.inj htext

end UiSuite
