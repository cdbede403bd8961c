/-! Lists sorted by a key.

Sorting by a number keeps the elements of one number in their order, so it is told by which
elements there are of each (`eq_of_filter_eq`, `filter_mergeSort`). What has the next number
comes last, as it stands (`mergeSort_filter_succ`). -/
namespace UiSuite

variable {α : Type} {key : α → Nat}

/-- Lists in the order of a key are the same if they have the same elements of each key, in the
same order. -/
theorem eq_of_filter_eq {l m : List α} (hl : l.Pairwise (key · ≤ key ·))
    (hm : m.Pairwise (key · ≤ key ·))
    (h : ∀ k, l.filter (key · = k) = m.filter (key · = k)) : l = m := by
  induction l generalizing m with
  | nil =>
    cases m with
    | nil => rfl
    | cons b m =>
      have hb := h (key b)
      simp at hb
  | cons a l ih =>
    cases m with
    | nil =>
      have ha := h (key a)
      simp at ha
    | cons b m =>
      rw [List.pairwise_cons] at hl hm
      have hmem {x : α} : x ∈ a :: l ↔ x ∈ b :: m := by
        have hx := congrArg (x ∈ ·) (h (key x))
        simpa using hx
      have hle {x y : α} {rest : List α} (hrest : ∀ z ∈ rest, key x ≤ key z)
          (hy : y ∈ x :: rest) : key x ≤ key y := by
        rcases List.mem_cons.1 hy with rfl | hy
        · exact Nat.le_refl _
        · exact hrest y hy
      -- Each of the two first elements is in the other list, so they have one key.
      have hkey : key b = key a := Nat.le_antisymm (hle hm.1 (hmem.1 List.mem_cons_self))
        (hle hl.1 (hmem.2 List.mem_cons_self))
      have hfirst := h (key a)
      simp only [List.filter_cons, hkey, decide_true, if_true, List.cons.injEq] at hfirst
      obtain ⟨rfl, -⟩ := hfirst
      refine congrArg (a :: ·) (ih hl.2 hm.2 fun k => ?_)
      have hk := h k
      simp only [List.filter_cons] at hk
      split at hk
      · exact (List.cons.inj hk).2
      · exact hk

variable (key)

theorem decide_le_trans (a b c : α) (hab : decide (key a ≤ key b)) (hbc : decide (key b ≤ key c)) :
    decide (key a ≤ key c) :=
  decide_eq_true (Nat.le_trans (of_decide_eq_true hab) (of_decide_eq_true hbc))

theorem decide_le_total (a b : α) : decide (key a ≤ key b) || decide (key b ≤ key a) := by
  simpa using Nat.le_total (key a) (key b)

theorem pairwise_mergeSort_key (l : List α) :
    (l.mergeSort (key · ≤ key ·)).Pairwise (key · ≤ key ·) :=
  (List.pairwise_mergeSort (decide_le_trans key) (decide_le_total key) l).imp of_decide_eq_true

/-- Sorting by a key leaves the elements of one key in their order. -/
theorem filter_mergeSort (l : List α) (k : Nat) :
    (l.mergeSort (key · ≤ key ·)).filter (key · = k) = l.filter (key · = k) := by
  have hsame : (l.filter (key · = k)).Pairwise fun a b => decide (key a ≤ key b) := by
    refine List.pairwise_of_forall_mem_list fun a ha b hb => ?_
    simp only [List.mem_filter, decide_eq_true_eq] at ha hb ⊢
    omega
  have hsub := (List.sublist_mergeSort (decide_le_trans key) (decide_le_total key) hsame
    List.filter_sublist).filter (key · = k)
  rw [List.filter_filter] at hsub
  simp only [Bool.and_self] at hsub
  have hperm := (List.mergeSort_perm l (key · ≤ key ·)).filter (key · = k)
  exact (hsub.eq_of_length hperm.length_eq.symm).symm

/-- **Sorted by a key, what has the next one comes after all up to it**, as it stands. -/
theorem mergeSort_filter_succ (l : List α) (n : Nat) :
    (l.filter (key · ≤ n + 1)).mergeSort (key · ≤ key ·) =
      (l.filter (key · ≤ n)).mergeSort (key · ≤ key ·) ++ l.filter (key · = n + 1) := by
  refine eq_of_filter_eq (pairwise_mergeSort_key key _) ?_ fun k => ?_
  · refine List.pairwise_append.2 ⟨pairwise_mergeSort_key key _, ?_, fun a ha b hb => ?_⟩
    · refine List.pairwise_of_forall_mem_list fun a ha b hb => ?_
      simp only [List.mem_filter, decide_eq_true_eq] at ha hb
      omega
    · simp only [List.mem_mergeSort, List.mem_filter, decide_eq_true_eq] at ha hb
      omega
  · rw [List.filter_append, filter_mergeSort, filter_mergeSort]
    simp only [List.filter_filter]
    by_cases hk : k ≤ n
    · have hnone : l.filter (fun a => decide (key a = k) && decide (key a = n + 1)) = [] := by
        simp only [List.filter_eq_nil_iff, Bool.and_eq_true, decide_eq_true_eq]
        omega
      rw [hnone, List.append_nil]
      exact List.filter_congr fun a _ => by grind
    · have hnone : l.filter (fun a => decide (key a = k) && decide (key a ≤ n)) = [] := by
        simp only [List.filter_eq_nil_iff, Bool.and_eq_true, decide_eq_true_eq]
        omega
      rw [hnone, List.nil_append]
      exact List.filter_congr fun a _ => by grind

end UiSuite
