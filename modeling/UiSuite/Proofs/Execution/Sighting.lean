import UiSuite.Proofs.Execution.Atomicity
import UiSuite.Proofs.Selector.Aliases
import UiSuite.Proofs.Surface.Growing
import UiSuite.Proofs.Surface.Numbering

/-! What a step sees on a stage.

A stage shows the same at every look until it settles. So a wait has ended well exactly if what
it waits for shows at the end (`World.isMet_waitFrom`), the target of a step is on stage when the
step acts on it (`Step.Search.pick`), and there was a match when there is none at the place
that was asked for. This leaves few failures to a step: its target is never stale, and only a
query with an index can ask for more matches than there are (`Step.failure_on_stage`). -/
namespace UiSuite

open Element (walk find? enter?)

/-! ### Elements on stage -/

namespace Stage

/-- An element on stage has an id that finds one. -/
theorem exists_find? {roots : List Element} {e : Element} (h : e ∈ walk roots) :
    ∃ found, find? e.id roots = some found := by
  rw [Element.find?_eq]
  exact Option.isSome_iff_exists.1 (List.find?_isSome.2 ⟨e, h, by simp⟩)

/-- An element on stage can be tapped. -/
theorem tap_of_mem {s : Stage} {e : Element} (h : e ∈ walk s.roots) :
    s.tap e.id = (.ok (), s.record (.tap e.id)) := by
  obtain ⟨found, hfind⟩ := exists_find? h
  rw [tap, hfind]

/-- An entry of text into an element on stage fails only if the element takes none. -/
theorem error_enterText_of_mem {s s' : Stage} {e : Element} {text : String} {cause : SurfaceError}
    (h : e ∈ walk s.roots) (hdone : s.enterText e.id text = (.error cause, s')) :
    cause = .notEditable e.id := by
  obtain ⟨found, hfind⟩ := exists_find? h
  rcases Element.unwritten_enter? e.id text s.roots with
    ⟨hnone, -⟩ | ⟨other, roots, hother, henter, -⟩
  · rw [hfind] at hnone
    cases hnone
  · rw [enterText, hfind, henter] at hdone
    simp only at hdone
    split at hdone <;> cases hdone
    rfl

end Stage

/-- What can be done to a target on stage fails only if the target takes no text. -/
theorem Target.Act.error_of_mem {t : Target} {act : Stage → Except SurfaceError Unit × Stage}
    (hact : t.Act act) {s s' : Stage} {cause : SurfaceError} (h : t.element ∈ walk s.roots)
    (hdone : act s = (.error cause, s')) : cause = .notEditable t.element.id := by
  cases hact with
  | tap =>
    have htap : s.tap t.element.id = (.error cause, s') := hdone
    rw [Stage.tap_of_mem h] at htap
    cases htap
  | enterText text => exact Stage.error_enterText_of_mem h hdone

/-! ### Looking at a stage -/

namespace World
variable {isMet : List Element → Bool} {w : World Stage}

theorem look_stage (w : World Stage) : w.look = (w.surface.roots, w) := rfl

/-- A wait has ended well exactly if what it waits for shows. -/
theorem isMet_waitFrom (interval sleeps left looks : Nat) (w : World Stage) :
    (waitFrom isMet interval sleeps left looks w).isMet =
      isMet (waitFrom isMet interval sleeps left looks w).world.surface.roots := by
  induction sleeps generalizing left looks w with
  | zero => rw [waitFrom_zero isMet interval left looks w.settle.look_stage]
  | succ n ih =>
    rw [waitFrom_succ isMet interval n left looks w.settle.look_stage]
    split
    · rfl
    · exact ih _ _ _

end World

namespace Step
variable {config : Config} {action : Action} {fallback : Option Query} {s : Step}
  {w w' : World Stage} {q : Query} {isExplicit : Bool} {e : Element}

/-- Waiting for a query has ended well exactly if it has a match. -/
theorem isMet_await (config : Config) (q : Query) (s : Step) (w : World Stage) :
    (s.await config q w).isMet =
      !(q.matching (s.await config q w).world.surface.roots).isEmpty :=
  World.isMet_waitFrom _ _ _ _ w

/-- What comes after the elements on stage leaves the match of a query where it is. -/
theorem pick_of_prefix {before after : List Element} (h : before <+: after)
    (hpick : pick q before = .ok e) : pick q after = .ok e := by
  have hat := pick_eq_ok.1 hpick
  obtain ⟨rest, hrest⟩ := q.matching_prefix h
  have hlt := (List.getElem?_eq_some_iff.1 hat).1
  rw [pick_eq_ok, ← hrest, List.getElem?_append_left hlt, hat]

/-- A query with a match may be looked for. -/
theorem refusedName_of_pick {roots : List Element} (h : pick q roots = .ok e) :
    refusedName config q = none := by
  have hdirect := Strategy.isDirect_of_accepts (accepts_of_pick h)
  refine refusedName_of_known (fun name hname => ?_) config
  rw [hname] at hdirect
  exact hdirect

/-- A match that shows when the stage settles is the target, at the first look. -/
theorem obtain_of_pick (hquery : s.query w.aliases action fallback = .ok (q, isExplicit))
    (hpick : pick q w.surface.settle.roots = .ok e) :
    s.obtain config action fallback w = (.ok ⟨q, e, isExplicit⟩, s.registerAlias q w.settle) := by
  have hmem : e ∈ q.matching w.surface.settle.roots := List.mem_of_getElem? (pick_eq_ok.1 hpick)
  have hmet : (!(q.matching w.surface.settle.roots).isEmpty) = true := by
    rw [List.isEmpty_eq_false_iff.2 (List.ne_nil_of_mem hmem)]
    rfl
  have hawait : s.await config q w = ⟨true, 1, w.settle⟩ :=
    World.waitFor_of_isMet w.settle.look_stage hmet _ _
  have hlook : w.settle.look.1 = w.surface.settle.roots := rfl
  rw [obtain_of_query hquery (refusedName_of_pick hpick), hawait]
  simp only [if_true, hlook, hpick]
  rfl

/-- The target of a step is on stage, at the place its query takes. -/
theorem Search.pick {t : Target} (h : s.Search config action fallback w (.ok t, w')) :
    pick t.query w'.surface.roots = .ok t.element := by
  cases h with
  | found hquery hidles hpick hsurface haliases =>
    rw [surface_registerAlias, hsurface]
    exact hpick

/-- A step that asks for more matches than there are has an index, and there is a match. -/
theorem obtain_outOfRange {text : String} {place found : Nat}
    (h : s.obtain config action fallback w = (.error (.indexOutOfRange text place found), w')) :
    ∃ q isExplicit, s.query w.aliases action fallback = .ok (q, isExplicit) ∧
      text = q.render ∧ q.index = some place ∧
      found = (q.matching w'.surface.roots).length ∧ 1 ≤ found ∧ found ≤ place := by
  cases hquery : s.query w.aliases action fallback with
  | error e =>
    rw [obtain, hquery] at h
    cases h
    cases kind_of_query hquery
  | ok named =>
    obtain ⟨q, isExplicit⟩ := named
    cases hknown : refusedName config q with
    | some name =>
      rw [obtain, hquery] at h
      simp only [hknown] at h
      cases h
    | none =>
      rw [obtain_of_query hquery hknown] at h
      split at h
      · rename_i hmet
        rw [isMet_await, Bool.not_eq_true', List.isEmpty_eq_false_iff] at hmet
        have hsome := List.length_pos_of_ne_nil hmet
        split at h
        · rename_i e hpick
          cases h
          obtain ⟨heq, hle⟩ := pick_eq_error.1 hpick
          cases heq
          rw [World.look_stage] at hle
          -- There is a match, so it was not the first that was asked for.
          have hindex := Query.index_of_place_pos (Nat.lt_of_lt_of_le hsome hle)
          exact ⟨q, isExplicit, rfl, rfl, hindex, rfl, hsome, hle⟩
        · cases h
      · cases h

/-! ### Failures -/

/-- A search that fails found no target, whatever the reason. -/
theorem Search.kind_of_error {e : StepError}
    (h : s.Search config action fallback w (.error e, w')) :
    e.kind = .selector ∨ e.kind = .timeout ∨ e.kind = .indexOutOfRange := by
  cases h with
  | refused hkind => exact .inl hkind
  | missed hkind => exact .inr hkind

/-- A step that asks for more matches than there are fails in its search. -/
theorem Course.search?_of_outOfRange {e : StepError} (h : s.Course config w (.error e, w'))
    (hkind : e.kind = .indexOutOfRange) : s.search? config w = some (.error e, w') := by
  cases h with
  | refused hsearch hconfig => simp [hconfig] at hkind
  | failed hsearch => exact hsearch
  | mismatched hsearch hassertion => simp [hassertion] at hkind
  | repelled => cases hkind

/-- What fails on a stage is an entry of text, into a target that takes none. -/
theorem Course.notEditable {cause : SurfaceError}
    (h : s.Course config w (.error (.surface cause), w')) : ∃ id, cause = .notEditable id := by
  cases h with
  | refused hsearch hconfig => cases hconfig
  | failed hsearch =>
    obtain ⟨fallback, hends⟩ := search_of_search? hsearch
    have hkind := hends.kind_of_error
    simp [StepError.kind] at hkind
  | mismatched hsearch hassertion => cases hassertion
  | @repelled t act cause found surface hsearch hact hdone =>
    obtain ⟨fallback, hends⟩ := search_of_search? hsearch
    have hmem : t.element ∈ walk found.surface.roots :=
      (List.mem_filter.1 (List.mem_of_getElem? (pick_eq_ok.1 hends.pick))).1
    exact ⟨_, hact.error_of_mem hmem hdone⟩

/-- **What failures a step on a stage can have.** Its target is never stale, and the stage has no
other failure than that an element takes no text. There are too few matches only for a query with
an index, and then there is one: a query without an index takes the first. -/
theorem failure_on_stage {index : Nat} {f : StepFailure}
    (h : (s.execute config index w).1 = .error f) :
    (∀ id, f.error ≠ .surface (.staleElement id)) ∧
      (∀ text, f.error ≠ .surface (.other text)) ∧
      (∀ text place found, f.error = .indexOutOfRange text place found →
        ∃ q isExplicit, s.usedQuery? w.aliases = some (q, isExplicit) ∧ text = q.render ∧
          q.index = some place ∧
          found = (q.matching (s.execute config index w).2.surface.roots).length ∧
          1 ≤ found ∧ found ≤ place) ∧
      ∀ q isExplicit, s.usedQuery? w.aliases = some (q, isExplicit) → q.index = none →
        ∀ text place found, f.error ≠ .indexOutOfRange text place found := by
  obtain ⟨r, hcourse, herror⟩ := course_execute config index s w
  rw [herror f h] at hcourse
  have hsurface (cause : SurfaceError) (hcause : f.error = .surface cause) :
      ∃ id, cause = .notEditable id := by
    rw [hcause] at hcourse
    exact hcourse.notEditable
  have hplace (text : String) (place found : Nat)
      (hrange : f.error = .indexOutOfRange text place found) :
      ∃ q isExplicit, s.usedQuery? w.aliases = some (q, isExplicit) ∧ text = q.render ∧
        q.index = some place ∧
        found = (q.matching (s.execute config index w).2.surface.roots).length ∧
        1 ≤ found ∧ found ≤ place := by
    rw [hrange] at hcourse
    obtain ⟨fallback, hfallback, hobtain⟩ :=
      Option.map_eq_some_iff.1 (hcourse.search?_of_outOfRange rfl)
    obtain ⟨q, isExplicit, hquery, hspec⟩ := obtain_outOfRange hobtain
    refine ⟨q, isExplicit, ?_, hspec⟩
    rw [usedQuery?_eq hfallback, hquery]
    rfl
  refine ⟨fun id hstale => ?_, fun text hother => ?_, hplace, ?_⟩
  · obtain ⟨_, hcause⟩ := hsurface _ hstale
    cases hcause
  · obtain ⟨_, hcause⟩ := hsurface _ hother
    cases hcause
  · intro q isExplicit hused hindex text place found hrange
    obtain ⟨q', isExplicit', hused', -, hindex', -⟩ := hplace text place found hrange
    rw [hused, Option.some.injEq, Prod.mk.injEq] at hused'
    rw [← hused'.1, hindex] at hindex'
    cases hindex'

/-- A stage with a row, and another one with the same id that comes with the next settle. -/
def twoRows : World Stage :=
  let row : Element := { Element.blank with id := 7, key := some "row" }
  .start ((Stage.ofForest [row]).schedule 0 row)

/-- A click on a third row. -/
def thirdRow : Step :=
  { Step.blank with action := "click", selector := some " key: row[2]" }

/-- There is none, and the step finds two. -/
theorem failure_on_stage_twoRows :
    let f : StepFailure := ⟨1, "click  key: row[2]", .indexOutOfRange "key:row[2]" 2 2⟩
    (thirdRow.execute .standard 0 twoRows).1 = .error f ∧
      (∀ id, f.error ≠ .surface (.staleElement id)) ∧
      ∃ q isExplicit, thirdRow.usedQuery? twoRows.aliases = some (q, isExplicit) ∧
        q.index = some 2 ∧
        2 = (q.matching (thirdRow.execute .standard 0 twoRows).2.surface.roots).length := by
  intro f
  have hfails : (thirdRow.execute .standard 0 twoRows).1 = .error f := rfl
  obtain ⟨hstale, -, hrange, -⟩ := failure_on_stage hfails
  obtain ⟨q, isExplicit, hused, -, hindex, hfound, -, -⟩ := hrange _ _ _ rfl
  exact ⟨hfails, hstale, q, isExplicit, hused, hindex, hfound⟩

end Step
end UiSuite
