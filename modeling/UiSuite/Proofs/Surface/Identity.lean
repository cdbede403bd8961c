import UiSuite.Proofs.Surface.Locality
import UiSuite.Proofs.Surface.Moves

/-! The ids on a stage.

Whatever happens to a stage, the ids on it are those of its elements in the order in which
they came (`Numbered`). None of them is 0. They are pairwise distinct, and each finds its
element, as long as no element comes with an id that was given before it came
(`Stage.ids_nodup_iff`); an element that comes with such an id has it all the same
(`Stage.ids_clashing`). -/
namespace UiSuite

open Element (ids walk find? explicit assign lastAfter NoneTaken)

namespace Element

theorem ids_append (a b : List Element) : ids (a ++ b) = ids a ++ ids b := by
  rw [ids, walk_append, List.map_append]
  rfl

theorem ids_perm {a b : List Element} (h : a.Perm b) : (ids a).Perm (ids b) := by
  rw [ids, ids, walk_eq_flatMap, walk_eq_flatMap]
  exact (h.flatMap_right subtree).map (·.id)

end Element

namespace Stage

/-- What the ids on a stage are when elements came with `raw`, in their order. -/
structure Numbered (raw : List Nat) (s : Stage) : Prop where
  ids : ids s.roots = assign 0 raw
  last : s.lastId = lastAfter 0 raw

namespace Numbered
variable {raw : List Nat} {s : Stage}

theorem push (h : s.Numbered raw) (e : Element) : (s.push e).Numbered (raw ++ Element.ids [e]) := by
  obtain ⟨hids, hlast⟩ := Element.ids_number s.lastId e
  have hone : Element.ids [e] = (Element.subtree e).map (·.id) := by
    rw [Element.ids, walk, walk, List.append_nil]
  constructor
  · have hroots : Element.ids (s.push e).roots =
        Element.ids s.roots ++ (Element.subtree (Element.number s.lastId e).1).map (·.id) := by
      show Element.ids (s.roots ++ [(Element.number s.lastId e).1]) = _
      rw [Element.ids_append, Element.ids, Element.ids, walk, walk, List.append_nil]
    rw [hroots, hids, h.ids, h.last, hone, Element.assign_append]
  · show (Element.number s.lastId e).2 = _
    rw [hlast, h.last, hone, Element.lastAfter_append]

theorem foldl_push (h : s.Numbered raw) (es : List Element) :
    (es.foldl Stage.push s).Numbered (raw ++ Element.ids es) := by
  induction es generalizing s raw with
  | nil =>
    have hnone : Element.ids [] = [] := rfl
    rw [hnone, List.append_nil]
    exact h
  | cons e es ih =>
    have hcons : Element.ids (e :: es) = Element.ids [e] ++ Element.ids es :=
      Element.ids_append [e] es
    rw [hcons, ← List.append_assoc]
    exact ih (h.push e)

theorem ofForest (forest : List Element) : (ofForest forest).Numbered (Element.ids forest) := by
  have hempty : Stage.empty.Numbered [] := ⟨rfl, rfl⟩
  exact hempty.foldl_push forest

/-- A move numbers what it brings, and lets all ids be. -/
theorem move (h : s.Numbered raw) (m : Move) :
    (s.move m).Numbered (raw ++ Element.ids (s.arriving m)) := by
  have hnone : raw ++ Element.ids [] = raw := List.append_nil raw
  cases m with
  | schedule after e =>
    rw [arriving, hnone]
    exact ⟨h.ids, h.last⟩
  | settle =>
    have hready : Numbered raw { s with
        pending := s.pending.filter (s.settles + 1 < ·.1)
        settles := s.settles + 1 } := ⟨h.ids, h.last⟩
    exact hready.foldl_push _
  | tap id =>
    rw [arriving, hnone, Stage.move, tap]
    split
    · exact h
    · exact ⟨h.ids, h.last⟩
  | enterText id text =>
    rw [arriving, hnone, Stage.move, enterText]
    split
    · rename_i e roots hfind henter
      split
      · exact ⟨(Element.ids_enter? henter).trans h.ids, h.last⟩
      · exact h
    · exact h

theorem play (h : s.Numbered raw) (ms : List Move) :
    (s.play ms).Numbered (raw ++ Element.ids (s.arrivals ms)) := by
  induction ms generalizing s raw with
  | nil =>
    have hnone : raw ++ Element.ids [] = raw := List.append_nil raw
    rw [arrivals, hnone]
    exact h
  | cons m ms ih =>
    rw [arrivals, Element.ids_append, ← List.append_assoc]
    exact ih (h.move m)

end Numbered

/-- The ids that elements on stage brought are among all that are brought. -/
theorem explicit_arrivals_perm (forest : List Element) (ms : List Move) :
    ∃ rest, (explicit (ids (forest ++ (ofForest forest).arrivals ms)) ++ rest).Perm
      (explicit (ids (forest ++ scheduled ms))) := by
  have hwaiting : (ofForest forest).waiting = [] := by
    rw [waiting, ofForest, foldl_push_pending]
    rfl
  have hperm := (ofForest forest).arrivals_perm ms
  rw [hwaiting, List.nil_append] at hperm
  have hall := (Element.ids_perm (hperm.append_left forest)).filter (· ≠ 0)
  rw [← List.append_assoc, Element.ids_append, List.filter_append] at hall
  exact ⟨_, hall⟩

/-- Where no two ids that are brought are the same, no two on stage are. -/
theorem explicit_arrivals_nodup {forest : List Element} {ms : List Move}
    (h : (explicit (ids (forest ++ scheduled ms))).Nodup) :
    (explicit (ids (forest ++ (ofForest forest).arrivals ms))).Nodup := by
  obtain ⟨rest, hperm⟩ := explicit_arrivals_perm forest ms
  exact (List.nodup_append.1 (hperm.nodup_iff.2 h)).1

/-- The ids on a stage are those of its elements as they came. -/
theorem ids_play (forest : List Element) (ms : List Move) :
    ids ((ofForest forest).play ms).roots =
      assign 0 (ids (forest ++ (ofForest forest).arrivals ms)) := by
  have hnumbered := (Numbered.ofForest forest).play ms
  rw [← Element.ids_append] at hnumbered
  exact hnumbered.ids

/-- Where no element brings an id, none on stage brought one. -/
theorem explicit_arrivals_of_none {forest : List Element} {ms : List Move}
    (h : ∀ e ∈ walk (forest ++ scheduled ms), e.id = 0) :
    explicit (ids (forest ++ (ofForest forest).arrivals ms)) = [] := by
  have hnone : explicit (ids (forest ++ scheduled ms)) = [] := by
    rw [explicit, List.filter_eq_nil_iff, ids, List.forall_mem_map]
    intro e he
    simp [h e he]
  obtain ⟨rest, hperm⟩ := explicit_arrivals_perm forest ms
  rw [hnone] at hperm
  exact (List.append_eq_nil_iff.1 hperm.eq_nil).1

/-- Where no element brings an id, the ids are pairwise distinct. -/
theorem ids_nodup_of_none {forest : List Element} {ms : List Move}
    (h : ∀ e ∈ walk (forest ++ scheduled ms), e.id = 0) :
    (ids ((ofForest forest).play ms).roots).Nodup := by
  rw [ids_play]
  exact Element.assign_nodup_of_none 0 (explicit_arrivals_of_none h)

/-- **The ids on a stage**, where those that elements bring are pairwise distinct. They are
never 0; they are pairwise distinct exactly when no element came with an id that was given
before it came, and then every element is found by its id. -/
theorem ids_nodup_iff (forest : List Element) (ms : List Move)
    (h : (explicit (ids (forest ++ scheduled ms))).Nodup) :
    let s := (ofForest forest).play ms
    let raw := ids (forest ++ (ofForest forest).arrivals ms)
    (∀ e ∈ walk s.roots, e.id ≠ 0) ∧
      ((ids s.roots).Nodup ↔ NoneTaken 0 raw) ∧
      (NoneTaken 0 raw → ∀ e ∈ walk s.roots, find? e.id s.roots = some e) := by
  intro s raw
  have hids : ids s.roots = assign 0 raw := by
    have hnumbered := (Numbered.ofForest forest).play ms
    rw [← Element.ids_append] at hnumbered
    exact hnumbered.ids
  have hnodup : (ids s.roots).Nodup ↔ NoneTaken 0 raw := by
    rw [hids]
    exact Element.assign_nodup_iff 0 (explicit_arrivals_nodup h)
  refine ⟨fun e he => ?_, hnodup, fun hnone e he => ?_⟩
  · have hmem : e.id ∈ ids s.roots := List.mem_map_of_mem he
    rw [hids] at hmem
    exact Element.ne_zero_of_mem_assign hmem
  · exact Element.find?_of_nodup (hnodup.2 hnone) he

/-- Moves that bring an element with an id smaller than those given before. -/
def lateArrival : List Move :=
  [.schedule 0 { Element.blank with id := 3 }, .settle, .tap 3]

/-- Its id was not given, so each of three elements is found by its id. -/
theorem ids_nodup_iff_lateArrival :
    let forest : List Element := [{ Element.blank with id := 5 }, Element.blank]
    (explicit (ids (forest ++ scheduled lateArrival))).Nodup ∧
      ids ((ofForest forest).play lateArrival).roots = [5, 6, 3] ∧
      ∀ e ∈ walk ((ofForest forest).play lateArrival).roots,
        find? e.id ((ofForest forest).play lateArrival).roots = some e := by
  intro forest
  have hexplicit : (explicit (ids (forest ++ scheduled lateArrival))).Nodup := by decide
  have hids : ids ((ofForest forest).play lateArrival).roots = [5, 6, 3] := by decide
  have hnodup : (ids ((ofForest forest).play lateArrival).roots).Nodup := by
    rw [hids]
    decide
  obtain ⟨-, hiff, hfind⟩ := ids_nodup_iff forest lateArrival hexplicit
  exact ⟨hexplicit, hids, hfind (hiff.1 hnodup)⟩

/-- An element that brings no id before a text input that brings 1. -/
def clashing : List Element :=
  [Element.blank, { Element.blank with id := 1, kind := .textInput }]

/-- The first of them is given the id the second one brings, and a text for the input is
refused. -/
theorem ids_clashing :
    (explicit (ids clashing)).Nodup ∧ ids (ofForest clashing).roots = [1, 1] ∧
      ¬ (ids (ofForest clashing).roots).Nodup ∧
      ((ofForest clashing).enterText 1 "x").1 = .error (.notEditable 1) := by
  refine ⟨by decide, by decide, by decide, rfl⟩

end Stage
end UiSuite
