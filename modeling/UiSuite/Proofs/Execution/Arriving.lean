import UiSuite.Proofs.Execution.Sighting
import UiSuite.Proofs.Execution.Waiting
import UiSuite.Proofs.Surface.Timetable

/-! Targets that are late.

A query that matches nothing on a stage may match an element that is still to come. Settling brings
the elements that are due (`Stage.exists_reaches_settles`), so the query has a match from the settle
on with which the first element comes that has one (`Stage.due?`). A step waits for that settle if
it comes before the step gives up, and takes the first match of what has come then; otherwise it
waits as long as it may, and in vain (`Step.obtain_late`). -/
namespace UiSuite

open Element (subtree walk number numberAll)

/-! ### Elements with a match -/

/-- Whether an element is accepted has nothing to do with its id and with what is below it. -/
theorem Strategy.accepts_mk (s : Strategy) (id id' : Nat) (kind : Element.Kind)
    (key label text : Option String) (richText : List String) (children children' : List Element) :
    s.accepts ⟨id', kind, key, label, text, richText, children'⟩ =
      s.accepts ⟨id, kind, key, label, text, richText, children⟩ := by
  cases s <;> rfl

/-- Whether a query matches an element or one below it. -/
def Query.reaches (q : Query) (e : Element) : Bool :=
  (subtree e).any q.strategy.accepts

/-- A query has a match exactly if it reaches a root. -/
theorem Query.matching_ne_nil_iff {q : Query} {roots : List Element} :
    q.matching roots ≠ [] ↔ ∃ e ∈ roots, q.reaches e = true := by
  simp only [matching, Element.walk_eq_flatMap, ne_eq, List.filter_eq_nil_iff, List.mem_flatMap,
    reaches, List.any_eq_true]
  grind

namespace Element

mutual
theorem any_subtree_number (s : Strategy) (last : Nat) : (e : Element) →
    (subtree (number last e).1).any s.accepts = (subtree e).any s.accepts
  | ⟨id, kind, key, label, text, richText, children⟩ => by
    rw [number, subtree, subtree, List.any_cons, List.any_cons, any_walk_numberAll,
      s.accepts_mk id]

theorem any_walk_numberAll (s : Strategy) (last : Nat) : (es : List Element) →
    (walk (numberAll last es).1).any s.accepts = (walk es).any s.accepts
  | [] => rfl
  | e :: es => by
    rw [numberAll, walk, walk, List.any_append, List.any_append, any_subtree_number,
      any_walk_numberAll]
end

end Element

/-- A query reaches an element whatever its ids. -/
theorem Query.exists_reaches_numberAll (q : Query) (last : Nat) (es : List Element) :
    (∃ e ∈ (numberAll last es).1, q.reaches e = true) ↔ ∃ e ∈ es, q.reaches e = true := by
  have hany := Element.any_walk_numberAll q.strategy last es
  rw [Bool.eq_iff_iff, Element.walk_eq_flatMap, Element.walk_eq_flatMap, List.any_flatMap,
    List.any_flatMap, List.any_eq_true, List.any_eq_true] at hany
  exact hany

/-! ### Elements to come -/

namespace Stage

/-- The settle at which the first element is due, of those still to come, that a query reaches. -/
def due? (q : Query) (s : Stage) : Option Nat :=
  ((s.pending.filter fun entry => q.reaches entry.2).map (·.1)).min?

/-- An element that a query reaches is due by some settle exactly if the first one is. -/
theorem due?_le_iff {q : Query} {s : Stage} {n : Nat} :
    (∃ d, s.due? q = some d ∧ d ≤ n) ↔
      ∃ entry ∈ s.pending, entry.1 ≤ n ∧ q.reaches entry.2 = true := by
  constructor
  · rintro ⟨d, hdue, hle⟩
    obtain ⟨hmem, -⟩ := List.min?_eq_some_iff.1 hdue
    obtain ⟨entry, hentry, rfl⟩ := List.mem_map.1 hmem
    obtain ⟨hpending, hreaches⟩ := List.mem_filter.1 hentry
    exact ⟨entry, hpending, hle, hreaches⟩
  · rintro ⟨entry, hpending, hle, hreaches⟩
    have hmem : entry.1 ∈ (s.pending.filter fun entry => q.reaches entry.2).map (·.1) :=
      List.mem_map_of_mem (List.mem_filter.2 ⟨hpending, hreaches⟩)
    cases hdue : s.due? q with
    | none =>
      rw [due?, List.min?_eq_none_iff] at hdue
      rw [hdue] at hmem
      cases hmem
    | some d =>
      exact ⟨d, rfl, Nat.le_trans ((List.min?_eq_some_iff.1 hdue).2 _ hmem) hle⟩

/-- Settling brings what a query reaches, if that is due. -/
theorem exists_reaches_settle (q : Query) (s : Stage) :
    (∃ e ∈ s.settle.roots, q.reaches e = true) ↔
      (∃ e ∈ s.roots, q.reaches e = true) ∨
        ∃ entry ∈ s.pending, entry.1 ≤ s.settles + 1 ∧ q.reaches entry.2 = true := by
  have harriving : (∃ e ∈ s.arriving .settle, q.reaches e = true) ↔
      ∃ entry ∈ s.pending, entry.1 ≤ s.settles + 1 ∧ q.reaches entry.2 = true := by
    simp only [arriving, List.mem_map, List.mem_filter, decide_eq_true_eq]
    grind
  rw [settle_roots, ← harriving, ← q.exists_reaches_numberAll s.lastId (s.arriving .settle)]
  simp only [List.mem_append, or_and_right, exists_or]

/-- **What has come after so many settles**: what a query reaches is on stage exactly if it was
before, or was due by then. -/
theorem exists_reaches_settles (q : Query) (n : Nat) (s : Stage) :
    (∃ e ∈ (settle^[n + 1] s).roots, q.reaches e = true) ↔
      (∃ e ∈ s.roots, q.reaches e = true) ∨
        ∃ entry ∈ s.pending, entry.1 ≤ s.settles + (n + 1) ∧ q.reaches entry.2 = true := by
  induction n generalizing s with
  | zero => exact exists_reaches_settle q s
  | succ n ih =>
    rw [Function.iterate_succ_apply, ih, exists_reaches_settle, settle_pending, settle_settles]
    simp only [List.mem_filter, decide_eq_true_eq]
    -- What is due with the first settle is not pending after it.
    grind

/-- Settling any number of times leaves the elements on stage as they are. -/
theorem roots_prefix_settles (n : Nat) (s : Stage) : s.roots <+: (settle^[n] s).roots := by
  induction n generalizing s with
  | zero => exact List.prefix_rfl
  | succ n ih => exact s.roots_prefix_settle.trans (ih s.settle)

/-- Before every look a stage settles, and looking does nothing to it. -/
theorem shownAt_stage (n : Nat) (s : Stage) :
    Surface.shownAt n s = (settle^[n + 1] s).roots := by
  rw [Function.iterate_succ_apply']
  rfl

end Stage

/-! ### Waiting for what is late -/

/-- How many settles it takes until what is due at a settle has come; it never comes before the
next one. -/
def Stage.settlesUntil (s : Stage) (d : Nat) : Nat :=
  max (d - s.settles) 1

/-- The world of a stage after so many settles and so much time. -/
def World.later (settles millis : Nat) (w : World Stage) : World Stage :=
  { w with surface := Stage.settle^[settles] w.surface, clock := w.clock + millis }

namespace Step
variable {config : Config} {action : Action} {fallback : Option Query} {s : Step} {w : World Stage}
  {q : Query} {isExplicit : Bool}

/-- What a look shows has a match exactly if the first element to come that has one is due by then,
where nothing has a match at first. -/
theorem isMet_shownAt (hnone : q.matching w.surface.roots = []) (n : Nat) :
    (!(q.matching (Surface.shownAt n w.surface)).isEmpty) = true ↔
      ∃ d, w.surface.due? q = some d ∧ d ≤ w.surface.settles + (n + 1) := by
  have hbefore : ¬ ∃ e ∈ w.surface.roots, q.reaches e = true :=
    fun h => Query.matching_ne_nil_iff.2 h hnone
  rw [Bool.not_eq_true', List.isEmpty_eq_false_iff, Query.matching_ne_nil_iff, Stage.shownAt_stage,
    Stage.exists_reaches_settles, Stage.due?_le_iff]
  exact or_iff_right hbefore

/-- A wait for what comes in time ends with the settle it comes with. -/
theorem await_in_time (hinterval : 0 < config.waits.pollInterval)
    (hnone : q.matching w.surface.roots = []) {d : Nat} (hdue : w.surface.due? q = some d)
    (hintime : w.surface.settlesUntil d ≤
      s.waitMillis config.waits.elementTimeout ⌈/⌉ config.waits.pollInterval + 1) :
    s.await config q w = ⟨true, w.surface.settlesUntil d, w.later (w.surface.settlesUntil d)
      (min ((w.surface.settlesUntil d - 1) * config.waits.pollInterval)
        (s.waitMillis config.waits.elementTimeout))⟩ := by
  have hsettles : w.surface.settlesUntil d = max (d - w.surface.settles) 1 := rfl
  obtain ⟨n, hn⟩ : ∃ n, w.surface.settlesUntil d = n + 1 := Nat.exists_eq_add_one.2 (by omega)
  have hlast : n ≤ s.waitMillis config.waits.elementTimeout ⌈/⌉ config.waits.pollInterval := by
    omega
  have hbefore (m : Nat) (hm : m < n) :
      (!(q.matching (Surface.shownAt m w.surface)).isEmpty) = false := by
    rw [← Bool.not_eq_true, isMet_shownAt hnone]
    rintro ⟨d', hdue', hle⟩
    rw [hdue, Option.some.injEq] at hdue'
    omega
  have hmet : (!(q.matching (Surface.shownAt n w.surface)).isEmpty) = true :=
    (isMet_shownAt hnone n).2 ⟨d, hdue, by omega⟩
  rw [await, World.waitFor, World.sleepsIn_eq _ hinterval, hn,
    World.waitFrom_met hinterval (Nat.le_refl _) hlast hbefore hmet]
  rfl

/-- A wait for what does not come in time takes as long as it may. -/
theorem await_in_vain (hinterval : 0 < config.waits.pollInterval)
    (hnone : q.matching w.surface.roots = [])
    (hlate : ∀ d, w.surface.due? q = some d →
      s.waitMillis config.waits.elementTimeout ⌈/⌉ config.waits.pollInterval + 1 <
        w.surface.settlesUntil d) :
    s.await config q w =
      ⟨false, s.waitMillis config.waits.elementTimeout ⌈/⌉ config.waits.pollInterval + 1,
        w.later (s.waitMillis config.waits.elementTimeout ⌈/⌉ config.waits.pollInterval + 1)
          (s.waitMillis config.waits.elementTimeout)⟩ := by
  have hunmet (n : Nat)
      (hn : n ≤ s.waitMillis config.waits.elementTimeout ⌈/⌉ config.waits.pollInterval) :
      (!(q.matching (Surface.shownAt n w.surface)).isEmpty) = false := by
    rw [← Bool.not_eq_true, isMet_shownAt hnone]
    rintro ⟨d, hdue, hle⟩
    have hlater := hlate d hdue
    rw [Stage.settlesUntil] at hlater
    omega
  rw [await, World.waitFor_unmet hinterval hunmet]
  rfl

/-- **A target that is late.** A step looks for a query without an index that matches nothing yet.
What has a match comes with the settle it is due at first, and with the next one at the earliest.
If the step has time for that settle, it takes the first match of what has come by then, after that
many settles and at the time of that look. If not, or if nothing to come has a match, it times out,
after as many settles as it has time for, and with all its time. -/
theorem obtain_late (hquery : s.query w.aliases action fallback = .ok (q, isExplicit))
    (hknown : refusedName config q = none) (hindex : q.index = none)
    (hinterval : 0 < config.waits.pollInterval) (hnone : q.matching w.surface.roots = []) :
    let time := s.waitMillis config.waits.elementTimeout
    let interval := config.waits.pollInterval
    let last := time ⌈/⌉ interval + 1
    (∀ d, w.surface.due? q = some d → w.surface.settlesUntil d ≤ last →
      let seen := w.later (w.surface.settlesUntil d)
        (min ((w.surface.settlesUntil d - 1) * interval) time)
      ∃ e arrived, seen.surface.roots = w.surface.roots ++ arrived ∧
        (q.matching arrived).head? = some e ∧
        s.obtain config action fallback w = (.ok ⟨q, e, isExplicit⟩, s.registerAlias q seen)) ∧
      ((∀ d, w.surface.due? q = some d → last < w.surface.settlesUntil d) →
        s.obtain config action fallback w =
          (.error (.timeout ("at least one match for '" ++ q.render ++ "'") time),
            w.later last time)) := by
  intro time interval last
  constructor
  · intro d hdue hintime seen
    have hawait : s.await config q w = ⟨true, w.surface.settlesUntil d, seen⟩ :=
      await_in_time hinterval hnone hdue hintime
    obtain ⟨arrived, hroots⟩ := Stage.roots_prefix_settles (w.surface.settlesUntil d) w.surface
    have hmatching : q.matching seen.surface.roots = q.matching arrived := by
      change q.matching (Stage.settle^[w.surface.settlesUntil d] w.surface).roots = _
      rw [← hroots, Query.matching_append, hnone, List.nil_append]
    have hsome : q.matching arrived ≠ [] := by
      have hmet := isMet_await config q s w
      rw [hawait, hmatching, eq_comm, Bool.not_eq_true', List.isEmpty_eq_false_iff] at hmet
      exact hmet
    obtain ⟨e, he⟩ := Option.isSome_iff_exists.1 (List.isSome_head?.2 hsome)
    have hpick : pick q seen.surface.roots = .ok e := by
      rw [pick_eq_ok, hmatching, Query.place, hindex, Option.getD_none, ← List.head?_eq_getElem?,
        he]
    refine ⟨e, arrived, hroots.symm, he, ?_⟩
    rw [obtain_of_query hquery hknown, hawait]
    simp only [if_true, World.look_stage, hpick]
  · intro hlate
    have hawait : s.await config q w = ⟨false, last, w.later last time⟩ :=
      await_in_vain hinterval hnone hlate
    rw [obtain_of_query hquery hknown, hawait]
    rfl

/-- An album to which a photo comes late, inside its page and with another one, and an index later
still. -/
def album : World Stage :=
  let photo : Element := { Element.blank with key := some "photo" }
  let page : Element := { Element.blank with children := [.blank, photo, photo] }
  let index : Element := { Element.blank with key := some "index" }
  .start ((((Stage.ofForest [.blank]).schedule 6 photo).schedule 4 page).schedule 5 index)

/-- There is time for four settles, and none is left at the last one. -/
def hasty : Config :=
  { Config.standard with waits := ⟨100, 0, 40⟩ }

/-- A step that looks for a photo. -/
def photoSearch : Step :=
  { Step.blank with selector := some "key:photo" }

/-- A step that looks for the index. -/
def indexSearch : Step :=
  { Step.blank with selector := some "key:index" }

/-- The first photo of the page is found at the last look, and the index is not waited for. -/
theorem obtain_late_album :
    (∃ e, photoSearch.obtain hasty .assertVisible none album =
        (.ok ⟨⟨.key "photo", none⟩, e, true⟩, album.later 4 100) ∧ e.id = 4) ∧
      indexSearch.obtain hasty .assertVisible none album =
        (.error (.timeout "at least one match for 'key:index'" 100), album.later 4 100) := by
  have hphoto : photoSearch.query album.aliases .assertVisible none =
      .ok (⟨.key "photo", none⟩, true) := rfl
  have hindex : indexSearch.query album.aliases .assertVisible none =
      .ok (⟨.key "index", none⟩, true) := rfl
  have hinterval : 0 < hasty.waits.pollInterval := by decide
  have hcomes := (obtain_late hphoto rfl rfl hinterval rfl).1
  have hlate := (obtain_late hindex rfl rfl hinterval rfl).2
  have hdue : album.surface.due? ⟨.key "index", none⟩ = some 5 := by decide
  obtain ⟨e, arrived, hroots, he, hobtain⟩ := hcomes 4 (by decide) (by decide)
  refine ⟨⟨e, hobtain, ?_⟩, hlate fun d hd => ?_⟩
  · -- All that has come is the page.
    have hpage : (album.later 4 100).surface.roots = album.surface.roots ++ arrived := hroots
    cases List.append_cancel_left (hpage.symm.trans rfl : _ = album.surface.roots ++ _)
    cases he
    rfl
  · cases hdue.symm.trans hd
    decide

end Step
end UiSuite
