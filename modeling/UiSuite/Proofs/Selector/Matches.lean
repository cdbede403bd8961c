import UiSuite.Proofs.Execution.Searching
import UiSuite.Proofs.Surface.Places

/-! The matches of a query.

What a strategy asks of an element is a matter of its own texts, key, label or kind
(`Strategy.Asks`), and no strategy asks for an unknown type or an unresolved alias. The matches of
a query are the elements it asks for, each place once and in document order, just as a visitor
collects them on a walk through the forest (`Query.matching_eq_visit`). Of these a step takes the
one its query counts to, in what shows when its wait has ended well (`Step.obtain_eq_ok`,
`Query.matching_in_order`). -/
namespace UiSuite

/-! ### What is asked for -/

/-- The text an element shows itself: its text, else its spans of rich text in one piece; an empty
text is none. -/
inductive Element.Shows (e : Element) : String → Prop
  | direct {text : String} (htext : e.text = some text) (hne : text ≠ "") : Shows e text
  | flat (htext : e.text = none ∨ e.text = some "") (hne : e.flatText ≠ "") : Shows e e.flatText

theorem Element.ownText_eq_some_iff {e : Element} {text : String} :
    e.ownText = some text ↔ e.Shows text := by
  have hflat : ownText.flat e = some text ↔ e.flatText ≠ "" ∧ e.flatText = text := by
    simp [ownText.flat]
  constructor
  · intro h
    rw [ownText] at h
    split at h
    · rename_i own hown
      split at h
      · rename_i hempty
        obtain ⟨hne, rfl⟩ := hflat.1 h
        exact .flat (.inr (hempty ▸ hown)) hne
      · rename_i hne
        cases h
        exact .direct hown hne
    · rename_i hown
      obtain ⟨hne, rfl⟩ := hflat.1 h
      exact .flat (.inl hown) hne
  · rintro (⟨htext, hne⟩ | ⟨htext | htext, hne⟩)
    · simp [ownText, htext, hne]
    · simp [ownText, htext, ownText.flat, hne]
    · simp [ownText, htext, ownText.flat, hne]

/-- What a strategy asks of an element. -/
def Strategy.Asks : Strategy → Element → Prop
  | .exact text, e => e.Shows text
  | .part piece, e => ∃ text, e.Shows text ∧ piece.toList <:+: text.toList
  | .key k, e => e.key = some k
  | .label l, e => e.label = some l
  | .kind k, e => e.kind = k
  | .unknownKind _, _ | .reference _, _ => False

/-- The elements a strategy accepts are those it asks for. -/
theorem Strategy.accepts_iff {s : Strategy} {e : Element} : s.accepts e = true ↔ s.Asks e := by
  cases s with
  | exact text => exact beq_iff_eq.trans Element.ownText_eq_some_iff
  | part piece =>
    simp only [accepts, Asks, Option.any_eq_true, Element.ownText_eq_some_iff, Text.contains_iff]
  | key k | label l | kind k => exact beq_iff_eq
  | unknownKind name | reference name => exact iff_of_false Bool.false_ne_true not_false

/-! ### Walking through a forest -/

namespace Element
variable {α : Type}

mutual
/-- What a visitor has after an element and what stands below it. -/
def visitBelow (visit : α → Element → α) (a : α) : Element → α
  | e@⟨_, _, _, _, _, _, children⟩ => visitAll visit (visit a e) children

/-- What a visitor has after a walk through a forest: each element is visited before those below
it, and they before the next one. -/
def visitAll (visit : α → Element → α) (a : α) : List Element → α
  | [] => a
  | e :: es => visitAll visit (visitBelow visit a e) es
end

mutual
theorem visitBelow_eq (visit : α → Element → α) (a : α) : (e : Element) →
    visitBelow visit a e = (subtree e).foldl visit a
  | ⟨_, _, _, _, _, _, children⟩ => visitAll_eq visit _ children

/-- A visitor comes to the elements in document order. -/
theorem visitAll_eq (visit : α → Element → α) (a : α) : (es : List Element) →
    visitAll visit a es = (walk es).foldl visit a
  | [] => rfl
  | e :: es => by
    rw [visitAll, walk, List.foldl_append, visitBelow_eq visit a e, visitAll_eq visit _ es]
end

end Element

namespace Query

/-- What a visitor that collects the matches of a query has after one more element. -/
def collect (q : Query) (found : List Element) (e : Element) : List Element :=
  if q.strategy.accepts e then found ++ [e] else found

theorem foldl_collect (q : Query) (found es : List Element) :
    es.foldl q.collect found = found ++ es.filter q.strategy.accepts := by
  induction es generalizing found with
  | nil => exact (List.append_nil found).symm
  | cons e es ih =>
    rw [List.foldl_cons, ih, collect]
    cases h : q.strategy.accepts e <;> simp [h]

/-- The matches of a query are what a visitor collects. -/
theorem matching_eq_visit (q : Query) (roots : List Element) :
    q.matching roots = Element.visitAll q.collect [] roots := by
  rw [Element.visitAll_eq, foldl_collect]
  rfl

/-- A query that asks for nothing has no matches. -/
theorem matching_of_asks {q : Query} (h : ∀ e, ¬ q.strategy.Asks e) (roots : List Element) :
    q.matching roots = [] :=
  List.filter_eq_nil_iff.2 fun e _ => mt Strategy.accepts_iff.1 (h e)

theorem matching_enumerates (q : Query) (roots : List Element) :
    Element.Enumerates q.strategy.Asks roots (q.matching roots) := by
  have hasks : (fun e => q.strategy.accepts e = true) = q.strategy.Asks :=
    funext fun e => propext Strategy.accepts_iff
  rw [← hasks]
  exact Element.enumerates_filter q.strategy.accepts roots

end Query

/-! ### What a step takes -/

variable {σ : Type} [Surface σ]

/-- When a step finds a target, and which. -/
theorem Step.obtain_eq_ok {config : Config} {action : Action} {fallback : Option Query} {s : Step}
    {w w' : World σ} {t : Target} :
    s.obtain config action fallback w = (.ok t, w') ↔
      s.query w.aliases action fallback = .ok (t.query, t.isExplicit) ∧
        refusedName config t.query = none ∧ (s.await config t.query w).isMet = true ∧
        pick t.query (s.await config t.query w).world.look.1 = .ok t.element ∧
        w' = s.registerAlias t.query (s.await config t.query w).world.look.2 := by
  constructor
  · intro h
    cases hquery : s.query w.aliases action fallback with
    | error e =>
      rw [obtain, hquery] at h
      cases h
    | ok named =>
      obtain ⟨q, isExplicit⟩ := named
      cases hknown : refusedName config q with
      | some name =>
        rw [obtain, hquery] at h
        simp only [hknown] at h
        cases h
      | none =>
        rw [obtain_of_query hquery hknown] at h
        split at h
        · rename_i hmet
          split at h
          · cases h
          · rename_i e hpick
            cases h
            exact ⟨rfl, hknown, hmet, hpick, rfl⟩
        · cases h
  · rintro ⟨hquery, hknown, hmet, hpick, rfl⟩
    rw [obtain_of_query hquery hknown, if_pos hmet, hpick]

/-- **The matches of a query, and which of them a step takes.** The matches are the elements that
the strategy asks for, each place once and in document order, and are what a visitor collects on its
walk. They do not depend on the index of the query; an unknown type, an unresolved alias and an
empty text have none; and roots that are added add matches after those that were there. A step finds
a target exactly if it has a query that is not refused, its wait for it ends well, and there is a
match where the index counts to, 0 if there is none, among those in the look that follows the wait;
then that match is the target. -/
theorem Query.matching_in_order (q : Query) (roots more : List Element) :
    Element.Enumerates q.strategy.Asks roots (q.matching roots) ∧
      q.matching roots = Element.visitAll q.collect [] roots ∧
      (∀ index, ({ q with index := index } : Query).matching roots = q.matching roots) ∧
      (∀ name index, (⟨.unknownKind name, index⟩ : Query).matching roots = [] ∧
        (⟨.reference name, index⟩ : Query).matching roots = [] ∧
        (⟨.exact "", index⟩ : Query).matching roots = []) ∧
      q.matching (roots ++ more) = q.matching roots ++ q.matching more ∧
      ∀ (config : Config) (action : Action) (fallback : Option Query) (s : Step) (w w' : World σ)
        (t : Target),
        s.obtain config action fallback w = (.ok t, w') ↔
          let waited := s.await config t.query w
          s.query w.aliases action fallback = .ok (t.query, t.isExplicit) ∧
            Step.refusedName config t.query = none ∧ waited.isMet = true ∧
            (t.query.matching waited.world.look.1)[t.query.index.getD 0]? = some t.element ∧
            w' = s.registerAlias t.query waited.world.look.2 := by
  refine ⟨q.matching_enumerates roots, q.matching_eq_visit roots, fun _ => rfl,
    fun name index =>
      ⟨matching_of_asks ?_ roots, matching_of_asks ?_ roots, matching_of_asks ?_ roots⟩,
    q.matching_append roots more, fun config action fallback s w w' t => ?_⟩
  · exact fun e h => h
  · exact fun e h => h
  · exact fun e h => e.ownText_ne_empty (Element.ownText_eq_some_iff.2 h)
  · rw [Step.obtain_eq_ok, Step.pick_eq_ok]
    rfl

end UiSuite
