/-! Lists cut off at an element.

What a loop does up to the round that ends it is a list of which only the last element is
special. -/
namespace UiSuite

theorem eq_or_mem_dropLast {α : Type} {a b : α} {l : List α} (h : b ∈ (a :: l).dropLast) :
    b = a ∨ b ∈ l.dropLast := by
  cases l with
  | nil => cases h
  | cons c l => exact List.mem_cons.1 h

theorem filterMap_cons_toList {α β : Type} (f : α → Option β) (a : α) (l : List α) :
    (a :: l).filterMap f = (f a).toList ++ l.filterMap f := by
  cases h : f a <;> simp [h]

theorem mapIdx_map {α β γ : Type} (f : Nat → β → γ) (g : α → β) (l : List α) :
    (l.map g).mapIdx f = l.mapIdx fun i a => f i (g a) :=
  List.ext_getElem? fun i => by simp [Function.comp_def]

/-- A map does not tell that an element was changed, if it does not tell by that element. -/
theorem map_modify_of_getElem? {α β : Type} {f : α → β} {g : α → α} {l : List α} {i : Nat} {a : α}
    (h : l[i]? = some a) (hsame : f (g a) = f a) : (l.modify i g).map f = l.map f := by
  refine List.ext_getElem? fun j => ?_
  by_cases hj : i = j
  · subst hj
    simp [h, hsame]
  · simp [hj]

/-- The first element that passes a test, where one is there that does. -/
theorem exists_split_takeWhile {α : Type} {p : α → Bool} {a : α} (ha : p a = true)
    (l rest : List α) :
    ∃ b after, p b = true ∧ l ++ a :: rest = l.takeWhile (!p ·) ++ b :: after := by
  induction l with
  | nil => exact ⟨a, rest, ha, rfl⟩
  | cons c l ih =>
    cases hc : p c with
    | true => exact ⟨c, l ++ a :: rest, hc, by simp [hc]⟩
    | false =>
      obtain ⟨b, after, hb, hsplit⟩ := ih
      exact ⟨b, after, hb, by simp [hc, hsplit]⟩

/-- What a list holds after one element was replaced, counted against what it held. -/
theorem perm_filterMap_set {α β : Type} (f : α → Option β) {l : List α} {i : Nat} {a : α}
    (h : l[i]? = some a) (b : α) :
    ((f a).toList ++ (l.set i b).filterMap f).Perm ((f b).toList ++ l.filterMap f) := by
  induction l generalizing i with
  | nil => cases h
  | cons c l ih =>
    cases i with
    | zero =>
      cases h
      rw [List.set_cons_zero, filterMap_cons_toList, filterMap_cons_toList]
      exact List.perm_append_comm_assoc _ _ _
    | succ i =>
      rw [List.set_cons_succ, filterMap_cons_toList, filterMap_cons_toList]
      have hswap := List.perm_append_comm_assoc (f a).toList (f c).toList ((l.set i b).filterMap f)
      have hrest := (ih h).append_left (f c).toList
      exact hswap.trans (hrest.trans (List.perm_append_comm_assoc _ _ _))

end UiSuite
