import UiSuite.Proofs.Surface.Growing
import UiSuite.Proofs.Surface.Identity

/-! Ids for elements that bring none.

An id that is given is one greater than the greatest so far (`Element.getElem?_assign`), and on a
stage that is the greatest of all that are there (`Stage.Numbered.le_lastId`). Numbering changes
nothing else about a forest (`Element.unnumberedAll_numberAll`). So every id that is given is new
(`Stage.ids_fresh`), and elements that bring none are numbered from 1 in document order. -/
namespace UiSuite

namespace Element

mutual
/-- An element without ids, in it and below it. -/
def unnumbered : Element → Element
  | ⟨_, kind, key, label, text, richText, children⟩ =>
    ⟨0, kind, key, label, text, richText, unnumberedAll children⟩

/-- A forest without ids. -/
def unnumberedAll : List Element → List Element
  | [] => []
  | e :: es => unnumbered e :: unnumberedAll es
end

mutual
/-- Numbering changes nothing about an element but ids. -/
theorem unnumbered_number (last : Nat) : (e : Element) →
    unnumbered (number last e).1 = unnumbered e
  | ⟨id, _, _, _, _, _, children⟩ => by
    have hchildren := unnumberedAll_numberAll (max last (if id = 0 then last + 1 else id)) children
    rw [number, unnumbered, unnumbered, hchildren]

/-- Numbering changes nothing about a forest but ids. -/
theorem unnumberedAll_numberAll (last : Nat) : (es : List Element) →
    unnumberedAll (numberAll last es).1 = unnumberedAll es
  | [] => rfl
  | e :: es => by
    rw [numberAll, unnumberedAll, unnumberedAll, unnumbered_number last e,
      unnumberedAll_numberAll (number last e).2 es]
end

/-! ### Ids at their places -/

theorem take_assign (last : Nat) (raw : List Nat) (n : Nat) :
    (assign last raw).take n = assign last (raw.take n) := by
  induction raw generalizing last n with
  | nil => simp [assign]
  | cons id rest ih =>
    cases n with
    | zero => rfl
    | succ n => rw [assign, List.take_succ_cons, List.take_succ_cons, assign, ih]

/-- The id at a place follows from the one that is brought there and the greatest before. -/
theorem getElem?_assign (last : Nat) (raw : List Nat) (place : Nat) :
    (assign last raw)[place]? = raw[place]?.map (own (lastAfter last (raw.take place))) := by
  induction raw generalizing last place with
  | nil => rfl
  | cons id rest ih =>
    cases place with
    | zero => rfl
    | succ place =>
      rw [assign, List.getElem?_cons_succ, ih, List.getElem?_cons_succ, List.take_succ_cons]
      rfl

/-- An id that is brought stays, and one that is given is greater than all before it. -/
theorem exists_getElem?_assign (last : Nat) {raw : List Nat} {place id : Nat}
    (h : raw[place]? = some id) :
    ∃ given, (assign last raw)[place]? = some given ∧ (id ≠ 0 → given = id) ∧
      (id = 0 → last < given ∧ ∀ x ∈ (assign last raw).take place, x < given) := by
  refine ⟨own (lastAfter last (raw.take place)) id, ?_, fun hid => if_neg hid, fun hid => ?_⟩
  · rw [getElem?_assign, h, Option.map_some]
  · have hgiven : own (lastAfter last (raw.take place)) id = lastAfter last (raw.take place) + 1 :=
      if_pos hid
    rw [hgiven, take_assign]
    exact ⟨Nat.lt_succ_of_le (le_lastAfter last _),
      fun x hx => Nat.lt_succ_of_le (le_of_mem_assign hx)⟩

/-- What brings no ids is numbered one by one. -/
theorem assign_of_none (last : Nat) {raw : List Nat} (h : explicit raw = []) :
    assign last raw = List.range' (last + 1) raw.length := by
  induction raw generalizing last with
  | nil => rfl
  | cons id rest ih =>
    have hzero : ∀ x ∈ id :: rest, x = 0 := by simpa [explicit] using h
    obtain ⟨rfl, hrest⟩ := List.forall_mem_cons.1 hzero
    have hnext : max last (own last 0) = last + 1 := Nat.max_eq_right (Nat.le_succ last)
    have hnone : explicit rest = [] := by simpa [explicit] using hrest
    rw [assign, hnext, ih _ hnone, List.length_cons, List.range'_succ]
    rfl

end Element

namespace Stage
open Element (ids walk unnumberedAll)

/-- No id on a stage is greater than the greatest so far. -/
theorem Numbered.le_lastId {raw : List Nat} {s : Stage} (h : s.Numbered raw) :
    ∀ x ∈ Element.ids s.roots, x ≤ s.lastId := by
  intro x hx
  rw [h.ids] at hx
  rw [h.last]
  exact Element.le_of_mem_assign hx

/-- **Ids that are given are new.** Whatever happened to a stage, what is put on it then keeps its
shape, all its texts and kinds, and the ids it brings; an id that is given is greater than those of
all elements that are on stage or stand before it. Settling puts on stage what is due, and a stage
begins as an empty one that a forest is put on. So if no element brings an id, they are numbered
1, 2, 3 and so on, in document order. -/
theorem ids_fresh (forest : List Element) (ms : List Move) :
    let s := (ofForest forest).play ms
    (∀ es : List Element, let pushed := (Element.numberAll s.lastId es).1
      (es.foldl push s).roots = s.roots ++ pushed ∧
        unnumberedAll pushed = unnumberedAll es ∧
        ∀ place id : Nat, (ids es)[place]? = some id →
          ∃ given, (ids pushed)[place]? = some given ∧ (id ≠ 0 → given = id) ∧
            (id = 0 → ∀ x ∈ ids s.roots ++ (ids pushed).take place, x < given)) ∧
      s.settle.roots = ((s.arriving .settle).foldl push s).roots ∧
      ((∀ e ∈ walk (forest ++ scheduled ms), e.id = 0) →
        ids s.roots = List.range' 1 (walk s.roots).length) := by
  intro s
  have hnumbered := (Numbered.ofForest forest).play ms
  refine ⟨fun es => ?_, ?_, fun hnone => ?_⟩
  · intro pushed
    have hids : ids pushed = Element.assign s.lastId (ids es) :=
      (Element.ids_numberAll s.lastId es).1
    refine ⟨by rw [foldl_push_eq], Element.unnumberedAll_numberAll s.lastId es, ?_⟩
    intro place id hid
    obtain ⟨given, hat, hbrought, hnew⟩ := Element.exists_getElem?_assign s.lastId hid
    rw [hids]
    refine ⟨given, hat, hbrought, fun hzero => ?_⟩
    obtain ⟨hlast, hbefore⟩ := hnew hzero
    exact List.forall_mem_append.2
      ⟨fun x hx => Nat.lt_of_le_of_lt (hnumbered.le_lastId x hx) hlast, hbefore⟩
  · rw [settle_roots, foldl_push_eq]
  · have hids := (ids_play forest ms).trans
      (Element.assign_of_none 0 (explicit_arrivals_of_none hnone))
    have hlength : (walk s.roots).length = (ids s.roots).length := (List.length_map _).symm
    rw [hlength, hids, List.length_range']

/-- Elements that bring no ids, one below another and one that comes late. -/
def plainForest : List Element :=
  [{ Element.blank with children := [Element.blank] }, Element.blank]

/-- Three elements from the beginning and one after the second settle are numbered from 1 to 4; and
where one brings 7, the next one is given 8. -/
theorem ids_fresh_plainForest :
    let ms : List Move := [.schedule 2 Element.blank, .settle, .tap 2, .settle]
    let s := (ofForest plainForest).play ms
    let arriving := [{ Element.blank with id := 7 }, Element.blank]
    (∀ e ∈ walk (plainForest ++ scheduled ms), e.id = 0) ∧ ids s.roots = [1, 2, 3, 4] ∧
      (ids arriving)[1]? = some 0 ∧
      ∃ given, (ids (Element.numberAll s.lastId arriving).1)[1]? = some given ∧
        ∀ x ∈ [1, 2, 3, 4, 7], x < given := by
  intro ms s arriving
  have hnone : ∀ e ∈ walk (plainForest ++ scheduled ms), e.id = 0 := by decide
  obtain ⟨hpushed, -, hplain⟩ := ids_fresh plainForest ms
  obtain ⟨given, hat, -, hnew⟩ := (hpushed arriving).2.2 1 0 rfl
  have hids : ids s.roots = [1, 2, 3, 4] := hplain hnone
  have hbefore : (ids (Element.numberAll s.lastId arriving).1).take 1 = [7] := by decide
  have hgreater := hnew rfl
  rw [hids, hbefore] at hgreater
  exact ⟨hnone, hids, rfl, given, hat, hgreater⟩

end Stage
end UiSuite
