import UiSuite.Proofs.Execution.Asserting
import UiSuite.Proofs.Execution.Registering
import UiSuite.Proofs.Execution.Sighting
import UiSuite.Proofs.Surface.Identity

/-! Looking for the same target again.

A step that found its target leaves the aliases so that its names lead to the same query from then
on, even where its selector refers to the alias it gives (`Step.query_again`). On a stage the query
leads to the same element, at the first look (`Step.obtain_again`). So an assertion that was
performed is performed again (`Step.assert_again`). A text that was entered is shown by the element
it was entered into, so an assertion about the same target finds it (`Step.assert_entered`). -/
namespace UiSuite

open Element (walk find? enter? ids)

/-! ### The same names -/

/-- Whether two steps name their targets alike. -/
structure Step.NamedAlike (s again : Step) : Prop where
  selector : again.selector = s.selector
  aliasName : again.aliasName = s.aliasName

/-- Whether a step names its target at all. -/
def Step.namesTarget (s : Step) : Bool :=
  s.usedSelector.isSome || s.usedAlias.isSome

namespace Step
variable {s again : Step} {aliases : AliasTable} {action : Action} {fallback : Option Query}
  {q : Query} {t : Target}

theorem NamedAlike.refl (s : Step) : s.NamedAlike s :=
  ⟨rfl, rfl⟩

theorem NamedAlike.usedSelector (h : s.NamedAlike again) : again.usedSelector = s.usedSelector := by
  rw [Step.usedSelector, h.selector, ← Step.usedSelector]

theorem NamedAlike.usedAlias (h : s.NamedAlike again) : again.usedAlias = s.usedAlias := by
  rw [Step.usedAlias, h.aliasName, ← Step.usedAlias]

/-- A step that does not name its target takes what it falls back on. -/
theorem query_of_not_namesTarget (h : s.namesTarget = false) {isExplicit : Bool} :
    s.query aliases action fallback = .ok (q, isExplicit) ↔
      fallback = some q ∧ isExplicit = false := by
  simp only [namesTarget, Bool.or_eq_false_iff, Option.isSome_eq_false_iff,
    Option.isNone_iff_eq_none] at h
  unfold query
  simp only [h.1, h.2]
  cases fallback with
  | none => simp
  | some other => simp [eq_comm]

/-- **The names of a step that found its target** lead to the same query afterwards. -/
theorem query_again (halike : s.NamedAlike again) (hnamed : s.namesTarget = true)
    (hquery : s.query aliases action fallback = .ok (t.query, t.isExplicit)) (action' : Action)
    (fallback' : Option Query) :
    again.query (s.enlist aliases (some t)) action' fallback' = .ok (t.query, true) := by
  obtain ⟨q, e, isExplicit⟩ := t
  unfold query at hquery ⊢
  rw [halike.usedSelector, halike.usedAlias]
  cases hselector : s.usedSelector with
  | some selector =>
    -- The selector may refer to the very alias that is given.
    have hresolve : aliases.resolve (.parse selector) = .ok q := by
      simp only [hselector] at hquery
      split at hquery <;> cases hquery
      assumption
    have hresolve' : (s.enlist aliases (some ⟨q, e, isExplicit⟩)).resolve (.parse selector) =
        .ok q := by
      unfold enlist
      cases hname : s.usedAlias with
      | some name => exact AliasTable.resolve_register hresolve name
      | none => exact hresolve
    simp only [hresolve']
  | none =>
    cases hname : s.usedAlias with
    | some name =>
      have hget : (s.enlist aliases (some ⟨q, e, isExplicit⟩)).get? name = some q := by
        simp only [enlist, hname, AliasTable.get?_register, if_true]
      simp only [hget]
    | none =>
      rw [namesTarget, hselector, hname] at hnamed
      cases hnamed

/-- Registering the target of a step again changes nothing. -/
theorem registerAlias_enlisted {σ : Type} (halike : s.NamedAlike again) {w : World σ}
    (h : w.aliases = s.enlist aliases (some t)) : again.registerAlias t.query w = w := by
  rw [registerAlias, halike.usedAlias]
  cases hname : s.usedAlias with
  | none => rfl
  | some name =>
    have hget : w.aliases.get? name = some t.query := by
      rw [h]
      simp only [enlist, hname, AliasTable.get?_register, if_true]
    simp only [AliasTable.register_of_get? hget]

/-! ### The same element -/

variable {config : Config} {w w' : World Stage} {e : Element}

/-- A step on a stage that names its target as another one did that found it finds what is at the
place of the query now, at the first look. -/
theorem obtain_named_again (halike : s.NamedAlike again) (hnamed : s.namesTarget = true)
    (hquery : s.query aliases action fallback = .ok (t.query, t.isExplicit))
    (haliases : w.aliases = s.enlist aliases (some t))
    (hpick : pick t.query w.surface.settle.roots = .ok e) (config' : Config) (action' : Action)
    (fallback' : Option Query) :
    again.obtain config' action' fallback' w = (.ok ⟨t.query, e, true⟩, w.settle) := by
  have hagain := query_again halike hnamed hquery action' fallback'
  rw [← haliases] at hagain
  rw [obtain_of_pick hagain hpick, registerAlias_enlisted halike (w := w.settle) haliases]

/-- **A search on a stage that found its target** finds it again, at the first look. -/
theorem obtain_again (hfound : s.obtain config action fallback w = (.ok t, w')) (config' : Config) :
    s.obtain config' action fallback w' = (.ok ⟨t.query, t.element, s.namesTarget⟩, w'.settle) := by
  have hsearch := search config action fallback s w
  rw [hfound] at hsearch
  have haliases : w'.aliases = s.enlist w.aliases (some t) := hsearch.aliases
  have hpick := pick_of_prefix w'.surface.roots_prefix_settle hsearch.pick
  cases hnamed : s.namesTarget with
  | true =>
    exact obtain_named_again (.refl s) hnamed hsearch.query haliases hpick config' action fallback
  | false =>
    -- Without names the aliases do not matter.
    have hfallback := ((query_of_not_namesTarget hnamed).1 hsearch.query).1
    have hagain : s.query w'.aliases action fallback = .ok (t.query, false) :=
      (query_of_not_namesTarget hnamed).2 ⟨hfallback, rfl⟩
    rw [obtain_of_pick hagain hpick, registerAlias_enlisted (.refl s) (w := w'.settle) haliases]

/-! ### Assertions -/

/-- **An assertion that was performed is performed again**, by the first look after one settle and
without waiting; the aliases are as the first one left them. -/
theorem assert_again {index : Nat}
    (hassert : Action.ofTag s.action = .assertText ∨ Action.ofTag s.action = .assertVisible)
    (hperformed : (s.execute config index w).1 = .ok .performed) (config' : Config) (index' : Nat) :
    s.execute config' index' (s.execute config index w).2 =
      (.ok .performed, (s.execute config index w).2.settle) := by
  have hfirst : s.perform config (Action.ofTag s.action) w =
      (.ok .performed, (s.execute config index w).2) :=
    execute_eq_performed.1 (Prod.ext hperformed rfl)
  generalize (s.execute config index w).2 = after at hfirst ⊢
  rw [execute_eq_performed]
  rcases hassert with htext | hvisible
  · rw [htext] at hfirst ⊢
    cases hexpected : s.expected with
    | none => simp [perform, hexpected] at hfirst
    | some expected =>
      obtain ⟨t, hfound, hmismatch⟩ := (perform_assertText hexpected).1 hfirst
      have hsearch := search config .assertText (some (.exactText expected)) s w
      rw [hfound] at hsearch
      have hshown := hsearch.contains hmismatch
      exact (perform_assertText hexpected).2
        ⟨_, obtain_again hfound config', mismatch_eq_none.2 fun _ => hshown⟩
  · rw [hvisible] at hfirst ⊢
    obtain ⟨t, hfound⟩ := perform_assertVisible.1 hfirst
    exact perform_assertVisible.2 ⟨_, obtain_again hfound config'⟩

/-- A page that says it has saved, and of whose rows the second comes with the next settle. An alias
stands for the rows. -/
def savedPage : World Stage :=
  let row : Element := { Element.blank with key := some "row" }
  let forest : List Element := [{ Element.blank with kind := .text, text := some "Saved" }, row]
  { World.start ((Stage.ofForest forest).schedule 1 row) with
    aliases := AliasTable.empty.register "row" ⟨.key "row", none⟩ }

/-- An assertion that gives an alias to what it falls back on. -/
def savedStatus : Step :=
  { Step.blank with
    action := "assert_text", aliasName := some " status ", expected := some "Saved" }

/-- An assertion that gives the alias its selector refers to, for another row. -/
def secondRow : Step :=
  { Step.blank with
    action := "verify_visible", selector := some "alias:row[1]", aliasName := some "row" }

/-- Both are performed again, with the aliases the first time left. -/
theorem assert_again_savedPage :
    (savedStatus.execute .standard 0 savedPage).1 = .ok .performed ∧
      savedStatus.execute .standard 1 (savedStatus.execute .standard 0 savedPage).2 =
        (.ok .performed, (savedStatus.execute .standard 0 savedPage).2.settle) ∧
      (savedStatus.execute .standard 0 savedPage).2.aliases.get? "status" =
        some (.exactText "Saved") ∧
      (secondRow.execute .standard 0 savedPage).1 = .ok .performed ∧
      secondRow.execute .standard 1 (secondRow.execute .standard 0 savedPage).2 =
        (.ok .performed, (secondRow.execute .standard 0 savedPage).2.settle) ∧
      (secondRow.execute .standard 0 savedPage).2.aliases.get? "row" =
        some ⟨.key "row", some 1⟩ := by
  have hstatus : (savedStatus.execute .standard 0 savedPage).1 = .ok .performed := rfl
  have hrow : (secondRow.execute .standard 0 savedPage).1 = .ok .performed := rfl
  have hstatusAgain := assert_again (.inl (by decide)) hstatus .standard 1
  have hrowAgain := assert_again (.inr (by decide)) hrow .standard 1
  exact ⟨hstatus, hstatusAgain, by decide +kernel, hrow, hrowAgain, by decide +kernel⟩

/-! ### Entered texts -/

/-- Where no element brought an id, the ids are pairwise distinct, also after the stage idled. -/
theorem ids_nodup_of_idles {forest : List Element} {ms : List Move} {stage : Stage}
    (h : ∀ e ∈ walk (forest ++ Stage.scheduled ms), e.id = 0)
    (hidles : Idles ((Stage.ofForest forest).play ms) stage) : (ids stage.roots).Nodup := by
  obtain ⟨n, rfl⟩ := Stage.exists_play_of_idles hidles
  have hscheduled : Stage.scheduled (ms ++ List.replicate n .settle) = Stage.scheduled ms := by
    simp [Stage.scheduled]
  rw [Stage.play, Stage.play, ← List.foldl_append, ← Stage.play]
  exact Stage.ids_nodup_of_none (hscheduled ▸ h)

/-- Where ids are pairwise distinct, a text that is entered into the match of a query is the text of
the match then, if the query does not ask for texts. -/
theorem pick_enterText {stage stage' : Stage} {text : String} (hids : (ids stage.roots).Nodup)
    (hq : q.strategy.IgnoresText) (hpick : pick q stage.roots = .ok e)
    (hdone : stage.enterText e.id text = (.ok (), stage')) :
    ∃ e', pick q stage'.roots = .ok e' ∧ e'.text = some text := by
  have hgrows := stage.grows_enterText e.id text
  rw [hdone] at hgrows
  obtain ⟨e', hat, hsame⟩ := hgrows.matching hq (pick_eq_ok.1 hpick)
  refine ⟨e', pick_eq_ok.2 hat, ?_⟩
  obtain ⟨roots, henter, rfl⟩ := Stage.enterText_ok hdone
  have hids' : (ids roots).Nodup := by
    rw [Element.ids_enter? henter]
    exact hids
  have hmem : e' ∈ walk roots := (List.mem_filter.1 (List.mem_of_getElem? hat)).1
  have hid : e'.id = e.id := by rw [← Element.unwritten_id, hsame, Element.unwritten_id]
  -- The match and the element that was written to have the same id, so they are the same.
  obtain ⟨written, hfind, htext⟩ := Element.find?_enter? henter
  rw [← hid, Element.find?_of_nodup hids' hmem, Option.some.injEq] at hfind
  rw [hfind, htext]

/-- An element has the text that was entered into it in the text that is looked at, be it empty. -/
theorem contains_of_text {text : String} (h : e.text = some text) :
    Text.contains (e.shownText.getD "") text = true := by
  by_cases hempty : text = ""
  · rw [hempty]
    exact Text.contains_empty _
  · refine contains_of_ownText ?_
    rw [Element.ownText, h]
    simp only [if_neg hempty]

/-- **A text that was entered is found.** No element brought an id to the stage. A step that names
its target, by a query that does not ask for texts, entered a text there. An assertion that names
its target alike is performed with that text, by the first look after one settle. -/
theorem assert_entered {forest : List Element} {ms : List Move}
    (hids : ∀ e ∈ walk (forest ++ Stage.scheduled ms), e.id = 0)
    (hsurface : w.surface = (Stage.ofForest forest).play ms) {index : Nat} {value : String}
    {isExplicit : Bool} (henter : Action.ofTag s.action = .enter) (hvalue : s.value = some value)
    (hnamed : s.namesTarget = true) (hused : s.usedQuery? w.aliases = some (q, isExplicit))
    (hq : q.strategy.IgnoresText) (hperformed : (s.execute config index w).1 = .ok .performed)
    (halike : s.NamedAlike again) (hassert : Action.ofTag again.action = .assertText)
    (hexpected : again.expected = some value) (config' : Config) (index' : Nat) :
    again.execute config' index' (s.execute config index w).2 =
      (.ok .performed, (s.execute config index w).2.settle) := by
  have hentered : s.perform config .enter w = (.ok .performed, (s.execute config index w).2) := by
    rw [← henter]
    exact execute_eq_performed.1 (Prod.ext hperformed rfl)
  generalize (s.execute config index w).2 = after at hentered ⊢
  simp only [perform, hvalue] at hentered
  obtain ⟨-, t, w₁, surface, hfound, hdone, rfl⟩ := actOnTarget_ok hentered
  have hsearch := search config .enter (some .textInput) s w
  have hidles := obtain_idles config .enter (some .textInput) s w
  rw [hfound] at hsearch hidles
  have hfallback : s.fallback? = some (some .textInput) := by
    rw [fallback?, henter, hvalue]
    rfl
  obtain rfl : q = t.query := by
    rw [usedQuery?_eq hfallback, henter, hsearch.query] at hused
    cases hused
    rfl
  have hdistinct : (ids w₁.surface.roots).Nodup := ids_nodup_of_idles hids (hsurface ▸ hidles)
  have haliases : (({ w₁ with surface := surface } : World Stage).settle).aliases =
      s.enlist w.aliases (some t) := hsearch.aliases
  obtain ⟨e', hpick, htext⟩ := pick_enterText hdistinct hq hsearch.pick hdone
  have hlater : pick t.query surface.settle.settle.roots = .ok e' :=
    pick_of_prefix (surface.roots_prefix_settle.trans surface.settle.roots_prefix_settle) hpick
  rw [execute_eq_performed, hassert, perform_assertText hexpected]
  exact ⟨⟨t.query, e', true⟩,
    obtain_named_again halike hnamed hsearch.query haliases hlater config' _ _,
    mismatch_eq_none.2 fun _ => contains_of_text htext⟩

/-- A form with two fields, to which a third is still to come. An alias stands for the fields. -/
def filledForm : World Stage :=
  let field (text : String) : Element :=
    { Element.blank with kind := .textInput, text := some text }
  let label : Element := { Element.blank with kind := .text, text := some "Name" }
  let forest : List Element :=
    [field "first",
      { Element.blank with children := [{ field "second" with children := [label] }] }]
  { World.start ((Stage.ofForest forest).play [.schedule 2 (field "third"), .settle]) with
    aliases := AliasTable.empty.register "field" .textInput }

/-- A step that clears the second field, and gives it the alias of the fields. -/
def clearing : Step :=
  { Step.blank with
    action := "input", selector := some "alias:field[1]", aliasName := some "field",
    value := some "" }

/-- An assertion about the same field. -/
def cleared : Step :=
  { clearing with action := "assert_text", value := none, expected := some "" }

/-- The field is found cleared. -/
theorem assert_entered_filledForm :
    (clearing.execute .standard 0 filledForm).1 = .ok .performed ∧
      (cleared.execute .standard 1 (clearing.execute .standard 0 filledForm).2).1 =
        .ok .performed := by
  have hperformed : (clearing.execute .standard 0 filledForm).1 = .ok .performed := rfl
  have hused :
      clearing.usedQuery? filledForm.aliases = some (⟨.kind .textInput, some 1⟩, true) := by
    decide +kernel
  have halike : clearing.NamedAlike cleared := ⟨rfl, rfl⟩
  have hcleared := assert_entered (by decide) rfl (by decide) rfl (by decide) hused trivial
    hperformed halike (by decide) rfl .standard 1
  exact ⟨hperformed, congrArg Prod.fst hcleared⟩

end Step
end UiSuite
