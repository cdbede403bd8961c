import Mathlib.Data.List.Induction
import Mathlib.Data.List.Nodup
import UiSuite.Element.Basic

/-! The ids of elements.

Numbering a forest gives its elements ids in document order: an element that brings an id
keeps it, the others get the next one after the greatest id so far (`ids_numberAll`). An id
given is greater than all before it, but nothing keeps a later element from bringing it: ids
are pairwise distinct exactly when no element brings one that was given before
(`assign_nodup_iff`). -/
namespace UiSuite.Element

/-- The ids of a forest in document order. -/
def ids (es : List Element) : List Nat :=
  (walk es).map (·.id)

/-- The id of an element that brings an id or 0, after a greatest id. -/
def own (last id : Nat) : Nat :=
  if id = 0 then last + 1 else id

/-- The ids of elements by those they bring. -/
def assign : Nat → List Nat → List Nat
  | _, [] => []
  | last, id :: rest => own last id :: assign (max last (own last id)) rest

/-- The greatest id after elements that bring ids. -/
def lastAfter (last : Nat) (raw : List Nat) : Nat :=
  raw.foldl (fun last id => max last (own last id)) last

/-- The ids given to those that bring none. -/
def given : Nat → List Nat → List Nat
  | _, [] => []
  | last, id :: rest =>
    if id = 0 then own last id :: given (max last (own last id)) rest
    else given (max last (own last id)) rest

/-- The ids that are brought. -/
def explicit (raw : List Nat) : List Nat :=
  raw.filter (· ≠ 0)

/-- Whether no id is brought that was given before. -/
def NoneTaken (last : Nat) (raw : List Nat) : Prop :=
  ∀ before id, before ++ [id] <+: raw → id ≠ 0 → id ∉ given last before

/-! ### Ids by those that are brought -/

theorem assign_append (last : Nat) (a b : List Nat) :
    assign last (a ++ b) = assign last a ++ assign (lastAfter last a) b := by
  induction a generalizing last with
  | nil => rfl
  | cons id rest ih =>
    rw [List.cons_append, assign, ih, assign]
    rfl

theorem lastAfter_append (last : Nat) (a b : List Nat) :
    lastAfter last (a ++ b) = lastAfter (lastAfter last a) b :=
  List.foldl_append

theorem explicit_append (a b : List Nat) : explicit (a ++ b) = explicit a ++ explicit b :=
  List.filter_append a b

theorem own_ne_zero (last id : Nat) : own last id ≠ 0 := by
  rw [own]
  split
  · exact Nat.succ_ne_zero last
  · assumption

/-- No id is 0. -/
theorem ne_zero_of_mem_assign {last : Nat} {raw : List Nat} {x : Nat} (h : x ∈ assign last raw) :
    x ≠ 0 := by
  induction raw generalizing last with
  | nil => cases h
  | cons id rest ih =>
    rcases List.mem_cons.1 h with rfl | h
    · exact own_ne_zero last id
    · exact ih h

theorem le_lastAfter (last : Nat) (raw : List Nat) : last ≤ lastAfter last raw := by
  induction raw generalizing last with
  | nil => exact Nat.le_refl last
  | cons id rest ih => exact Nat.le_trans (Nat.le_max_left _ _) (ih _)

/-- The greatest id is as great as all. -/
theorem le_of_mem_assign {last : Nat} {raw : List Nat} {x : Nat} (h : x ∈ assign last raw) :
    x ≤ lastAfter last raw := by
  induction raw generalizing last with
  | nil => cases h
  | cons id rest ih =>
    rcases List.mem_cons.1 h with rfl | h
    · exact Nat.le_trans (Nat.le_max_right _ _) (le_lastAfter _ rest)
    · exact ih h

/-- An id was given or brought. -/
theorem mem_assign {last : Nat} {raw : List Nat} {x : Nat} :
    x ∈ assign last raw ↔ x ∈ given last raw ∨ x ∈ explicit raw := by
  induction raw generalizing last with
  | nil => simp [assign, given, explicit]
  | cons id rest ih =>
    rw [assign, List.mem_cons, ih, given]
    by_cases h : id = 0
    · simp [h, explicit, or_assoc]
    · simp [h, explicit, own, or_left_comm]

theorem noneTaken_append_singleton {last : Nat} {raw : List Nat} {id : Nat} :
    NoneTaken last (raw ++ [id]) ↔
      NoneTaken last raw ∧ (id ≠ 0 → id ∉ given last raw) := by
  constructor
  · intro h
    exact ⟨fun before x hx => h before x (hx.trans (List.prefix_append raw [id])),
      h raw id List.prefix_rfl⟩
  · rintro ⟨hbefore, hlast⟩ before x hx
    rcases List.prefix_concat_iff.1 hx with heq | hx
    · obtain ⟨rfl, hid⟩ := List.append_inj' heq rfl
      cases hid
      exact hlast
    · exact hbefore before x hx

/-- **When ids are pairwise distinct**, where those brought are: exactly when none is brought
that was given before. -/
theorem assign_nodup_iff (last : Nat) {raw : List Nat} (h : (explicit raw).Nodup) :
    (assign last raw).Nodup ↔ NoneTaken last raw := by
  induction raw using List.reverseRecOn with
  | nil =>
    refine ⟨fun _ before id hid => ?_, fun _ => List.nodup_nil⟩
    simp at hid
  | append_singleton raw id ih =>
    rw [explicit_append, List.nodup_append] at h
    obtain ⟨hraw, -, hdisjoint⟩ := h
    have hlast : assign (lastAfter last raw) [id] = [own (lastAfter last raw) id] := rfl
    have hnew : own (lastAfter last raw) id ∉ assign last raw ↔
        (id ≠ 0 → id ∉ given last raw) := by
      by_cases hid : id = 0
      · -- A given id is greater than all before it.
        have hgreater : own (lastAfter last raw) id ∉ assign last raw := by
          intro hmem
          have hle := le_of_mem_assign hmem
          rw [own, if_pos hid] at hle
          omega
        exact ⟨fun _ h => absurd hid h, fun _ => hgreater⟩
      · -- An id that is brought is no other that is.
        have hbrought : id ∉ explicit raw := fun hmem =>
          hdisjoint id hmem id (by simp [explicit, hid]) rfl
        rw [own, if_neg hid, mem_assign]
        exact ⟨fun h _ hmem => h (.inl hmem), fun h hmem => hmem.elim (h hid) hbrought⟩
    rw [assign_append, noneTaken_append_singleton, ← ih hraw, hlast, ← hnew,
      List.nodup_append_comm, List.singleton_append, List.nodup_cons, and_comm]

/-- What brings no id is given ids that are pairwise distinct. -/
theorem assign_nodup_of_none (last : Nat) {raw : List Nat} (h : explicit raw = []) :
    (assign last raw).Nodup := by
  refine (assign_nodup_iff last (h ▸ List.nodup_nil)).2 fun before id hbegins hid => ?_
  have hmem : id ∈ explicit raw :=
    List.mem_filter.2 ⟨hbegins.subset (List.mem_append_right before List.mem_cons_self), by simpa⟩
  rw [h] at hmem
  cases hmem

/-! ### Numbering -/

mutual
/-- What numbering does to the ids of an element and what stands below it. -/
theorem ids_number (last : Nat) : (e : Element) →
    (subtree (number last e).1).map (·.id) = assign last ((subtree e).map (·.id)) ∧
      (number last e).2 = lastAfter last ((subtree e).map (·.id))
  | ⟨id, kind, key, label, text, richText, children⟩ => by
    obtain ⟨hids, hlast⟩ := ids_numberAll (max last (own last id)) children
    rw [subtree, List.map_cons]
    exact ⟨congrArg (own last id :: ·) hids, hlast⟩

/-- **What numbering does to the ids of a forest.** -/
theorem ids_numberAll (last : Nat) : (es : List Element) →
    ids (numberAll last es).1 = assign last (ids es) ∧
      (numberAll last es).2 = lastAfter last (ids es)
  | [] => ⟨rfl, rfl⟩
  | e :: es => by
    obtain ⟨hids, hlast⟩ := ids_number last e
    obtain ⟨hrest, hend⟩ := ids_numberAll (number last e).2 es
    have hfirst : ids (e :: es) = (subtree e).map (·.id) ++ ids es := List.map_append
    have hnumbered : ids (numberAll last (e :: es)).1 =
        (subtree (number last e).1).map (·.id) ++ ids (numberAll (number last e).2 es).1 :=
      List.map_append
    rw [hfirst, hnumbered, hids, hrest, hlast, assign_append, lastAfter_append, ← hlast]
    exact ⟨rfl, hend⟩
end

/-! ### Finding -/

mutual
theorem findBelow_eq (id : Nat) : (e : Element) →
    findBelow id e = (subtree e).find? (·.id = id)
  | e@⟨own, kind, key, label, text, richText, children⟩ => by
    by_cases h : own = id
    · simp [findBelow, subtree, h]
    · simp [findBelow, subtree, h, find?_eq id children]

/-- The element found is the first with the id in document order. -/
theorem find?_eq (id : Nat) : (es : List Element) →
    find? id es = (walk es).find? (·.id = id)
  | [] => rfl
  | e :: es => by
    rw [find?, walk, List.find?_append, findBelow_eq id e, find?_eq id es]
    cases (subtree e).find? (·.id = id) <;> rfl
end

/-- Where ids are pairwise distinct, every element is found by its id. -/
theorem find?_of_nodup {es : List Element} (h : (ids es).Nodup) {e : Element} (he : e ∈ walk es) :
    find? e.id es = some e := by
  rw [find?_eq]
  rw [ids] at h
  revert h he
  generalize walk es = l
  intro h he
  induction l with
  | nil => cases he
  | cons x rest ih =>
    rw [List.map_cons, List.nodup_cons] at h
    rcases List.mem_cons.1 he with rfl | he
    · exact List.find?_cons_of_pos (by simp)
    · have hne : x.id ≠ e.id := fun heq => h.1 (heq ▸ List.mem_map_of_mem he)
      rw [List.find?_cons_of_neg (by simp [hne])]
      exact ih h.2 he

end UiSuite.Element
