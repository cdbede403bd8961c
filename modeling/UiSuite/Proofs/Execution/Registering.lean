import UiSuite.Proofs.Execution.Atomicity
import UiSuite.Proofs.Execution.Calls
import UiSuite.Proofs.Selector.Aliases
import UiSuite.Proofs.Selector.Grammar
import UiSuite.Proofs.Text.Trimming

/-! Which aliases a session comes to have.

A query is registered only once it had a match, so it is neither a reference nor an unknown
type, whatever the step or its caller asked for. Every session that begins without aliases has
a sound table at any time (`World.sound_calls`). A selector that refers to the alias of a step
resolves to the query of the step, unless the alias ends in an index: that is read as the index
of a reference to the alias without it (`Step.resolve_reference`). -/
namespace UiSuite

/-- The alias of a step has no blanks around it, and something is left of it. -/
theorem Step.usedAlias_spec {s : Step} {name : String} (h : s.usedAlias = some name) :
    name ≠ "" ∧ Text.trimmed name = name := by
  obtain ⟨hname, hne⟩ := Option.filter_eq_some_iff.1 h
  obtain ⟨raw, -, rfl⟩ := Option.map_eq_some_iff.1 hname
  exact ⟨of_decide_eq_true hne, Text.trimmed_trimmed raw⟩

/-- Registering a query that had a match keeps a table sound. -/
theorem Step.sound_enlist {s : Step} {aliases : AliasTable} {found : Option Target}
    (h : aliases.Sound) (hfound : ∀ t, found = some t → t.query.strategy.IsDirect) :
    (s.enlist aliases found).Sound := by
  unfold enlist
  split
  · rename_i t name hname
    obtain ⟨hne, htrimmed⟩ := usedAlias_spec hname
    exact h.register ⟨hne, htrimmed, hfound t rfl⟩
  · exact h
  · exact h

variable {σ : Type} [Surface σ] {config : Config} {s : Step} {w : World σ}

/-- The query of a target that was found asks for elements. -/
theorem Step.Search.isDirect {action : Action} {fallback : Option Query} {t : Target}
    {w' : World σ} (h : s.Search config action fallback w (.ok t, w')) :
    t.query.strategy.IsDirect :=
  Strategy.isDirect_of_accepts h.accepts

theorem Step.isDirect_of_found? {t : Target} (h : s.found? config w = some t) :
    t.query.strategy.IsDirect := by
  obtain ⟨fallback, hsearch⟩ := search_of_found? h
  exact hsearch.isDirect

/-- A step keeps the aliases sound. -/
theorem Step.sound_execute (config : Config) (index : Nat) (s : Step) (w : World σ)
    (h : w.aliases.Sound) : (s.execute config index w).2.aliases.Sound := by
  obtain ⟨r, hcourse, -⟩ := course_execute config index s w
  rw [hcourse.aliases]
  exact sound_enlist h fun t ht => isDirect_of_found? ht

/-- So does looking for a target, whatever its caller falls back on. -/
theorem Step.sound_obtain (config : Config) (action : Action) (fallback : Option Query) (s : Step)
    (w : World σ) (h : w.aliases.Sound) :
    (s.obtain config action fallback w).2.aliases.Sound := by
  rw [(search config action fallback s w).aliases]
  exact sound_enlist h fun t ht => (search_of_toOption ht).isDirect

/-- Every call keeps the aliases sound. -/
theorem World.sound_call (c : Call σ) (w : World σ) (h : w.aliases.Sound) :
    (w.call c).aliases.Sound := by
  cases c with
  | execute config index s =>
    rw [call]
    exact Step.sound_execute config index s w h
  | obtain config action fallback s => exact Step.sound_obtain config action fallback s w h
  | run config suite source =>
    have hstep (index : Nat) (s : Step) (w : World σ) (_ : True) (h : w.aliases.Sound) :=
      Step.sound_execute config index s w h
    exact Suite.run_keeps hstep suite (fun _ _ _ _ => trivial) w source h
  | reset => exact AliasTable.sound_empty
  | change f => exact h

/-- **The aliases of a session** that begins without any, after whatever calls on whatever
surfaces. The names are not empty and have no blanks around them, and no query is a reference
or an unknown type. A query therefore refers to a name that is missing, or resolves to one that
is no reference and resolves to itself. -/
theorem World.sound_calls (surface : σ) (calls : List (Call σ)) :
    let t := ((World.start surface).calls calls).aliases
    (∀ entry ∈ t.entries, entry.1 ≠ "" ∧ Text.trimmed entry.1 = entry.1 ∧
        (∀ name, entry.2.strategy ≠ .reference name) ∧
        ∀ name, entry.2.strategy ≠ .unknownKind name) ∧
      ∀ q, (∃ name, q.strategy = .reference name ∧ t.get? name = none ∧
          t.resolve q = .error name) ∨
        ∃ r, t.resolve q = .ok r ∧ (∀ name, r.strategy ≠ .reference name) ∧
          t.resolve r = .ok r := by
  intro t
  have hsound : t.Sound :=
    calls_keeps (fun c w _ h => sound_call c w h) calls (fun _ _ => trivial) _
      AliasTable.sound_empty
  refine ⟨fun entry hentry => ?_, hsound.resolve⟩
  obtain ⟨hne, htrimmed, hdirect⟩ := hsound entry hentry
  refine ⟨hne, htrimmed, fun name heq => ?_, fun name heq => ?_⟩ <;>
  · rw [heq] at hdirect
    exact hdirect

/-! ### Referring to an alias -/

/-- A step that found its target and has an alias leaves its query under the alias. -/
theorem Step.Search.aliases_of_usedAlias {action : Action} {fallback : Option Query} {t : Target}
    {w' : World σ} (h : s.Search config action fallback w (.ok t, w')) {name : String}
    (hname : s.usedAlias = some name) : w'.aliases = w.aliases.register name t.query := by
  have haliases : w'.aliases = s.enlist w.aliases (some t) := h.aliases
  simp only [enlist, hname] at haliases
  exact haliases

/-- **Referring to the alias of a step** that found its target. Where the alias does not end in
an index, the selector that refers to it resolves to the query of the step. Where it does, the
selector refers to the alias without the index: it resolves to the query of that one, at the
index, if there is such an alias. -/
theorem Step.resolve_reference {action : Action} {fallback : Option Query} {t : Target}
    {w' : World σ} {name : String} (hfound : s.obtain config action fallback w = (.ok t, w'))
    (hname : s.usedAlias = some name) :
    ((∀ body n, ¬ Query.Indexed name.toList body n) →
        w'.aliases.resolve (.parse ("alias:" ++ name)) = .ok t.query) ∧
      ∀ body n, Query.Indexed name.toList body n →
        w'.aliases.resolve (.parse ("alias:" ++ name)) =
          match w.aliases.get? (Text.trimmed (String.ofList body)) with
          | some q => .ok ⟨q.strategy, some n⟩
          | none => .error (Text.trimmed (String.ofList body)) := by
  have hsearch := search config action fallback s w
  rw [hfound] at hsearch
  have haliases := hsearch.aliases_of_usedAlias hname
  have htrimmed := (usedAlias_spec hname).2
  rw [Query.parse_reference, haliases]
  refine ⟨fun hplain => ?_, fun body n hindexed => ?_⟩
  · rw [Query.splitIndex_of_not_indexed hplain, String.ofList_toList, htrimmed,
      AliasTable.resolve_named, AliasTable.get?_register, if_pos rfl]
    rfl
  · -- What is left of the alias is shorter, so it is not the alias that was registered.
    have hne : Text.trimmed (String.ofList body) ≠ name := fun heq => by
      have hshorter := hindexed.length_lt
      have htrim := (Text.trim_sublist body).length_le
      rw [← heq, Text.toList_trimmed, String.toList_ofList] at hshorter
      omega
    rw [Query.splitIndex_of_indexed hindexed, AliasTable.resolve_named,
      AliasTable.get?_register, if_neg hne]
    cases w.aliases.get? (Text.trimmed (String.ofList body)) <;> rfl

/-- A form with a field for an account. -/
def accountForm : World Stage :=
  .start (.ofForest [{ Element.blank with kind := .textInput, label := some "Account" }])

/-- A step that gives an alias to the field. -/
def naming (name : String) : Step :=
  { Step.blank with
    action := "assert_visible", selector := some "label:Account", aliasName := some name }

/-- An alias may hold colons, blanks and brackets. -/
theorem Step.resolve_reference_formRow :
    ∃ t w', (naming " form: row[x] ").obtain .standard .assertVisible none accountForm =
        (.ok t, w') ∧
      (naming " form: row[x] ").usedAlias = some "form: row[x]" ∧
      t.query = ⟨.label "Account", none⟩ ∧
      w'.aliases.resolve (.parse "alias:form: row[x]") = .ok ⟨.label "Account", none⟩ := by
  have hname : (naming " form: row[x] ").usedAlias = some "form: row[x]" := by decide
  have hindex : (Query.splitIndex "form: row[x]".toList).2 = none := by decide
  obtain ⟨t, w', hfound, hquery⟩ : ∃ t w', (naming " form: row[x] ").obtain .standard
      .assertVisible none accountForm = (.ok t, w') ∧ t.query = ⟨.label "Account", none⟩ :=
    ⟨_, _, rfl, rfl⟩
  have hresolve := (resolve_reference hfound hname).1 (Query.not_indexed_of_splitIndex hindex)
  exact ⟨t, w', hfound, hname, hquery, hquery ▸ hresolve⟩

/-- An alias that ends in an index is not found by its reference: it is not the alias that is
looked for. -/
theorem Step.reference_astray :
    ∃ t w', (naming "row[1]").obtain .standard .assertVisible none accountForm = (.ok t, w') ∧
      (naming "row[1]").usedAlias = some "row[1]" ∧ t.query = ⟨.label "Account", none⟩ ∧
      w'.aliases.resolve (.parse ("alias:" ++ "row[1]")) = .error "row" :=
  ⟨_, _, rfl, by decide, rfl, by decide⟩

end UiSuite
