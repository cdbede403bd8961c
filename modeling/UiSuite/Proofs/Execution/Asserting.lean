import UiSuite.Proofs.Execution.Searching
import UiSuite.Proofs.Surface.Moves

/-! What an assertion about a text asserts.

A target that the step named must show the text: the first text in document order, among those
that the target and the elements below it show themselves, has it in it (`Step.mismatch_named`).
A target that the step did not name was found by the text, so it shows that text itself, and there
is no more to assert (`Step.Search.ownText_of_implicit`). No element shows an empty text itself, so
an empty text is never found by itself, and nothing else can go wrong with it
(`Step.execute_assertText`). -/
namespace UiSuite

/-- Whether the target of a step comes from its selector or from an alias that is registered. -/
def Step.namesKnown (s : Step) (aliases : AliasTable) : Bool :=
  s.usedSelector.isSome || (s.usedAlias.bind aliases.get?).isSome

namespace Step
variable {s : Step} {aliases : AliasTable} {action : Action} {fallback : Option Query} {q : Query}
  {isExplicit : Bool} {t : Target} {e : Element} {expected : String}

/-! ### Targets -/

/-- A query is explicit if it comes from the selector or from an alias that is registered. -/
theorem isExplicit_of_query (h : s.query aliases action fallback = .ok (q, isExplicit)) :
    isExplicit = s.namesKnown aliases := by
  unfold query at h
  split at h
  · rename_i selector hselector
    split at h <;> cases h
    rw [namesKnown, hselector]
    rfl
  · rename_i name hselector halias
    rw [namesKnown, hselector, halias, Option.bind_some]
    split at h
    · rename_i stored _ hget
      cases h
      rw [hget]
      rfl
    · rename_i hget
      cases h
      rw [hget]
      rfl
    · cases h
  · rename_i hselector halias
    rw [namesKnown, hselector, halias]
    split at h <;> cases h
    rfl

/-- What a step did not name is what it falls back on. -/
theorem fallback_of_implicit (h : s.query aliases action fallback = .ok (q, false)) :
    fallback = some q := by
  unfold query at h
  split at h
  · split at h <;> cases h
  · split at h <;> cases h
    rfl
  · split at h <;> cases h
    rfl

/-- Nothing is wrong with a target that the step did not name, or that shows the text. -/
theorem mismatch_eq_none :
    mismatch expected t = none ↔
      (t.isExplicit = true → Text.contains (t.element.shownText.getD "") expected = true) := by
  simp [mismatch]

/-- What is wrong with a target that the step named, and does not show the text. -/
theorem mismatch_named (h : t.isExplicit = true)
    (hnot : ¬ expected.toList <:+: (t.element.shownText.getD "").toList) :
    mismatch expected t =
      some (.assertion ("expected text of '" ++ t.query.render ++ "' to contain '" ++ expected ++
        "', found '" ++ t.element.shownText.getD "" ++ "'")) := by
  have hcontains : Text.contains (t.element.shownText.getD "") expected = false :=
    Bool.eq_false_iff.2 (mt Text.contains_iff.1 hnot)
  simp [mismatch, h, hcontains]

/-- An element that shows a text itself has it in the text that is looked at. -/
theorem contains_of_ownText {text : String} (h : e.ownText = some text) :
    Text.contains (e.shownText.getD "") text = true := by
  rw [Element.shownText_of_ownText h]
  exact Text.contains_self text

variable {σ : Type} [Surface σ] {config : Config} {w w' : World σ}

/-- A target that was found by a text, and not by a name, shows that text itself. -/
theorem Search.ownText_of_implicit
    (h : s.Search config action (some (.exactText expected)) w (.ok t, w'))
    (himplicit : t.isExplicit = false) : t.element.ownText = some expected := by
  have hquery := h.query
  rw [himplicit] at hquery
  have hexact : t.query = .exactText expected :=
    (Option.some.inj (fallback_of_implicit hquery)).symm
  have haccepts := h.accepts
  rw [hexact] at haccepts
  exact eq_of_beq haccepts

/-- The target of an assertion that was performed shows the text: a target that the step did not
name was found by that text. -/
theorem Search.contains
    (h : s.Search config action (some (.exactText expected)) w (.ok t, w'))
    (hmismatch : mismatch expected t = none) :
    Text.contains (t.element.shownText.getD "") expected = true := by
  cases hexplicit : t.isExplicit with
  | true => exact mismatch_eq_none.1 hmismatch hexplicit
  | false => exact contains_of_ownText (h.ownText_of_implicit hexplicit)

/-! ### Assertions -/

theorem execute_eq_performed {index : Nat} :
    s.execute config index w = (.ok .performed, w') ↔
      s.perform config (Action.ofTag s.action) w = (.ok .performed, w') := by
  rw [execute_eq]
  rcases s.perform config (Action.ofTag s.action) w with ⟨e | o, v⟩
  · exact iff_of_false nofun nofun
  · constructor <;> rintro ⟨⟩ <;> rfl

/-- An assertion about a text is performed exactly if nothing is wrong with its target. -/
theorem perform_assertText (hexpected : s.expected = some expected) :
    s.perform config .assertText w = (.ok .performed, w') ↔
      ∃ t, s.obtain config .assertText (some (.exactText expected)) w = (.ok t, w') ∧
        mismatch expected t = none := by
  simp only [perform, hexpected]
  rcases s.obtain config .assertText (some (.exactText expected)) w with ⟨e | t, v⟩
  · simp
  · cases hmismatch : mismatch expected t <;> simp [hmismatch, and_assoc, and_comm]

/-- An assertion that something is visible is performed exactly if there is a target. -/
theorem perform_assertVisible :
    s.perform config .assertVisible w = (.ok .performed, w') ↔
      ∃ t, s.obtain config .assertVisible none w = (.ok t, w') := by
  rw [perform]
  rcases s.obtain config .assertVisible none w with ⟨e | t, v⟩ <;> simp

/-- An assertion about a text that found its target fails with what is wrong with it, if anything
is. -/
theorem execute_of_mismatch {index : Nat} (haction : Action.ofTag s.action = .assertText)
    (hexpected : s.expected = some expected)
    (hfound : s.obtain config .assertText (some (.exactText expected)) w = (.ok t, w')) :
    s.execute config index w =
      (match mismatch expected t with
        | some e => .error ⟨index + 1, s.context .assertText, e⟩
        | none => .ok .performed, w') := by
  rw [execute_eq, haction]
  simp only [perform, hexpected, hfound]
  cases mismatch expected t <;> rfl

/-- An assertion about a target that the step named asserts that it shows the text. -/
theorem execute_of_named {index : Nat} (haction : Action.ofTag s.action = .assertText)
    (hexpected : s.expected = some expected)
    (hfound : s.obtain config .assertText (some (.exactText expected)) w = (.ok t, w'))
    (hnamed : t.isExplicit = true) :
    (expected.toList <:+: (t.element.shownText.getD "").toList →
        (s.execute config index w).1 = .ok .performed) ∧
      (¬ expected.toList <:+: (t.element.shownText.getD "").toList →
        (s.execute config index w).1 = .error ⟨index + 1, s.context .assertText,
          .assertion ("expected text of '" ++ t.query.render ++ "' to contain '" ++ expected ++
            "', found '" ++ t.element.shownText.getD "" ++ "'")⟩) := by
  rw [execute_of_mismatch haction hexpected hfound]
  constructor
  · intro hpart
    have hnone : mismatch expected t = none := mismatch_eq_none.2 fun _ => Text.contains_iff.2 hpart
    rw [hnone]
  · intro hnot
    rw [mismatch_named hnamed hnot]

/-- **What an assertion about a text asserts.** Once there is a target, one that the step named must
have the expected text in the first text in document order, of itself and what is below it, or in
the empty text if there is none; this is what decides, and an empty text is expected in vain of no
target. A target that the step did not name shows the expected text itself, so there is nothing to
decide. As no element shows an empty text itself, that is expected in vain where there is no
name. -/
theorem execute_assertText (haction : Action.ofTag s.action = .assertText)
    (hexpected : s.expected = some expected) (config : Config) (index : Nat) (w : World σ) :
    (∀ t w', s.obtain config .assertText (some (.exactText expected)) w = (.ok t, w') →
      let shown := ((Element.subtree t.element).findSome? Element.ownText).getD ""
      (s.namesKnown w.aliases = true →
        ((s.execute config index w).1 = .ok .performed ↔ expected.toList <:+: shown.toList) ∧
        (¬ expected.toList <:+: shown.toList →
          (s.execute config index w).1 = .error ⟨index + 1, s.context .assertText,
            .assertion ("expected text of '" ++ t.query.render ++ "' to contain '" ++ expected ++
              "', found '" ++ shown ++ "'")⟩) ∧
        (expected = "" → (s.execute config index w).1 = .ok .performed)) ∧
      (s.namesKnown w.aliases = false →
        (s.execute config index w).1 = .ok .performed ∧ t.element.ownText = some expected) ∧
      (s.execute config index w).2 = w') ∧
    (s.namesKnown w.aliases = false → expected = "" →
      (s.execute config index w).1 ≠ .ok .performed) := by
  have hknown {t : Target} {w' : World σ}
      (hfound : s.obtain config .assertText (some (.exactText expected)) w = (.ok t, w')) :
      s.Search config .assertText (some (.exactText expected)) w (.ok t, w') ∧
        t.isExplicit = s.namesKnown w.aliases := by
    have hsearch := search config .assertText (some (.exactText expected)) s w
    rw [hfound] at hsearch
    exact ⟨hsearch, isExplicit_of_query hsearch.query⟩
  constructor
  · intro t w' hfound shown
    obtain ⟨hsearch, hexplicit⟩ := hknown hfound
    have hshown : t.element.shownText.getD "" = shown := by rw [Element.shownText_eq]
    refine ⟨fun hnamed => ?_, fun hunnamed => ?_, ?_⟩
    · obtain ⟨hshows, hfails⟩ :=
        execute_of_named haction hexpected hfound (hexplicit.trans hnamed)
      rw [hshown] at hshows hfails
      refine ⟨⟨fun hperformed => ?_, hshows⟩, hfails, fun hempty => hshows ?_⟩
      · refine Classical.byContradiction fun hnot => ?_
        cases hperformed.symm.trans (hfails hnot)
      · rw [hempty]
        exact List.nil_infix
    · have himplicit := hexplicit.trans hunnamed
      have hnone : mismatch expected t = none :=
        mismatch_eq_none.2 fun hnamed => absurd hnamed (by rw [himplicit]; nofun)
      rw [execute_of_mismatch haction hexpected hfound, hnone]
      exact ⟨rfl, hsearch.ownText_of_implicit himplicit⟩
    · rw [execute_of_mismatch haction hexpected hfound]
  · rintro hunnamed rfl hperformed
    have hperform := execute_eq_performed.1 (Prod.ext hperformed rfl)
    rw [haction, perform_assertText hexpected] at hperform
    obtain ⟨t, hfound, -⟩ := hperform
    obtain ⟨hsearch, hexplicit⟩ := hknown hfound
    exact t.element.ownText_ne_empty (hsearch.ownText_of_implicit (hexplicit.trans hunnamed))

/-- A page with a sum, to which a receipt comes with the first settle. Its first texts are empty,
and the next is in two pieces, below an element without any. -/
def receipt : World Stage :=
  let total : Element := { Element.blank with richText := ["", "To", "tal"] }
  let list : Element := { Element.blank with kind := .list, children := [total] }
  let sum : Element := { Element.blank with kind := .text, text := some "Sum" }
  let card : Element :=
    { Element.blank with
      key := some "card", text := some "", richText := [""], children := [list, sum] }
  .start ((Stage.ofForest [sum]).play [.schedule 0 card, .settle])

/-- An assertion about the receipt. -/
def receiptShows (text : String) : Step :=
  { Step.blank with action := " verify_text", selector := some "key:card", expected := some text }

/-- An assertion that gives an alias to what it finds. -/
def pageShows (text : String) : Step :=
  { Step.blank with action := "assert_text", aliasName := some " it ", expected := some text }

/-- Only the first text of the receipt counts, and any part of it will do. The sum is found by
itself, and an empty text is not. -/
theorem execute_assertText_receipt :
    ((receiptShows "ota").execute .standard 0 receipt).1 = .ok .performed ∧
      ((receiptShows "Sum").execute .standard 0 receipt).1 =
        .error ⟨1, "assert_text key:card",
          .assertion "expected text of 'key:card' to contain 'Sum', found 'Total'"⟩ ∧
      ((pageShows "Sum").execute .standard 0 receipt).1 = .ok .performed ∧
      ((pageShows "").execute .standard 0 receipt).1 ≠ .ok .performed := by
  have hpart := execute_assertText (s := receiptShows "ota") (by decide) rfl .standard 0 receipt
  have hother := execute_assertText (s := receiptShows "Sum") (by decide) rfl .standard 0 receipt
  have hpage := execute_assertText (s := pageShows "Sum") (by decide) rfl .standard 0 receipt
  have hempty := execute_assertText (s := pageShows "") (by decide) rfl .standard 0 receipt
  have hnamed : (receiptShows "ota").namesKnown receipt.aliases = true := by decide
  have hnamed' : (receiptShows "Sum").namesKnown receipt.aliases = true := by decide
  have hunnamed : (pageShows "Sum").namesKnown receipt.aliases = false := by decide
  refine ⟨((hpart.1 _ _ rfl).1 hnamed).1.2 ?_, ((hother.1 _ _ rfl).1 hnamed').2.1 ?_,
    ((hpage.1 _ _ rfl).2.1 hunnamed).1, hempty.2 (by decide) rfl⟩
  · show "ota".toList <:+: "Total".toList
    decide
  · show ¬ "Sum".toList <:+: "Total".toList
    decide

end Step
end UiSuite
