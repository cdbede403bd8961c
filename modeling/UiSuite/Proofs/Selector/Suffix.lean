import UiSuite.Proofs.Decimal.Spelling
import UiSuite.Selector.Query

/-! The index at the end of a selector.

A text has an index if it ends in digits between brackets and the number is within bounds
(`Query.Indexed`); then it is read as its body and that index, otherwise as it stands
(`Query.splitIndex_cases`). What stands before does not matter as long as it opens no bracket
(`Query.indexed_append_iff`). -/
namespace UiSuite.Query

open Decimal (natural?_of_digits)
open Text (splitLast)

/-- A text that is a body with an index at its end. -/
inductive Indexed : List Char → List Char → Nat → Prop
  | intro {body digits : List Char} (hne : digits ≠ [])
      (hdigits : ∀ c ∈ digits, c.isDigit = true)
      (hle : Decimal.valueOf digits ≤ greatestIndex) :
      Indexed (body ++ '[' :: (digits ++ [']'])) body (Decimal.valueOf digits)

/-- A text with an index is read as its body and the index. -/
theorem splitIndex_of_indexed {raw body : List Char} {n : Nat} (h : Indexed raw body n) :
    splitIndex raw = (body, some n) := by
  obtain ⟨hne, hdigits, hle⟩ := h
  rename_i digits
  have hreverse : (body ++ '[' :: (digits ++ [']'])).reverse =
      ']' :: (body ++ '[' :: digits).reverse := by simp
  have hopen : '[' ∉ digits := fun hmem => absurd (hdigits '[' hmem) (by decide)
  have hread : (digits.isEmpty || !digits.all Char.isDigit) = false := by
    simp [hne, List.all_eq_true.2 hdigits]
  rw [splitIndex, hreverse]
  simp only [List.reverse_reverse, Text.splitLast_append hopen, hread,
    natural?_of_digits hne hdigits, if_pos hle]
  rfl

/-- **How a selector is split.** -/
theorem splitIndex_cases (raw : List Char) :
    splitIndex raw = (raw, none) ∨
      ∃ body n, splitIndex raw = (body, some n) ∧ Indexed raw body n := by
  by_cases hindexed : ∃ body n, Indexed raw body n
  · obtain ⟨body, n, h⟩ := hindexed
    exact .inr ⟨body, n, splitIndex_of_indexed h, h⟩
  · left
    rw [splitIndex]
    split
    · rename_i inner hreverse
      split
      · rfl
      · rename_i body digits hsplit
        split
        · rfl
        · rename_i hread
          split
          · rename_i n hnatural
            -- All that is asked of an index is there.
            simp only [Bool.or_eq_true, not_or, List.isEmpty_iff, Bool.not_eq_true',
              Bool.not_eq_false, List.all_eq_true] at hread
            rw [natural?_of_digits hread.1 hread.2] at hnatural
            split at hnatural <;> cases hnatural
            rename_i hle
            have hraw : raw = body ++ '[' :: (digits ++ [']']) := by
              have hinner := Text.eq_of_splitLast hsplit
              rw [← List.reverse_reverse raw, hreverse, List.reverse_cons, hinner]
              simp
            refine absurd ⟨body, Decimal.valueOf digits, ?_⟩ hindexed
            rw [hraw]
            exact .intro hread.1 hread.2 hle
          · rfl
    · rfl

theorem splitIndex_of_not_indexed {raw : List Char} (h : ∀ body n, ¬ Indexed raw body n) :
    splitIndex raw = (raw, none) := by
  rcases splitIndex_cases raw with hraw | ⟨body, n, -, hindexed⟩
  · exact hraw
  · exact absurd hindexed (h body n)

theorem not_indexed_of_splitIndex {raw : List Char} (h : (splitIndex raw).2 = none)
    (body : List Char) (n : Nat) : ¬ Indexed raw body n := fun hindexed => by
  rw [splitIndex_of_indexed hindexed] at h
  cases h

/-- The body of a text is shorter than the text. -/
theorem Indexed.length_lt {raw body : List Char} {n : Nat} (h : Indexed raw body n) :
    body.length < raw.length := by
  cases h
  simp only [List.length_append, List.length_cons]
  omega

theorem Indexed.le {raw body : List Char} {n : Nat} (h : Indexed raw body n) :
    n ≤ greatestIndex := by
  cases h
  assumption

/-- A text that ends in one with an index has that index. -/
theorem Indexed.append {raw body : List Char} {n : Nat} (h : Indexed raw body n)
    (before : List Char) : Indexed (before ++ raw) (before ++ body) n := by
  obtain ⟨hne, hdigits, hle⟩ := h
  rw [← List.append_assoc]
  exact .intro hne hdigits hle

/-- What stands before a text and opens no bracket does not matter for its index. -/
theorem indexed_append_iff {before raw body : List Char} {n : Nat} (h : '[' ∉ before) :
    Indexed (before ++ raw) body n ↔ ∃ rest, body = before ++ rest ∧ Indexed raw rest n := by
  constructor
  · intro hindexed
    generalize htext : before ++ raw = text at hindexed
    obtain ⟨hne, hdigits, hle⟩ := hindexed
    rename_i digits
    rcases List.append_eq_append_iff.1 htext with ⟨rest, rfl, rfl⟩ | ⟨rest, rfl, heq⟩
    · exact ⟨rest, rfl, .intro hne hdigits hle⟩
    · cases rest with
      | nil =>
        rw [List.nil_append] at heq
        rw [← heq]
        exact ⟨[], by simp, @Indexed.intro [] _ hne hdigits hle⟩
      | cons c cs =>
        -- The bracket would be opened before the text.
        obtain ⟨rfl, -⟩ := List.cons_eq_cons.1 heq
        exact absurd (by simp) h
  · rintro ⟨rest, rfl, hrest⟩
    exact hrest.append before

theorem splitIndex_append {before : List Char} (h : '[' ∉ before) (raw : List Char) :
    splitIndex (before ++ raw) = (before ++ (splitIndex raw).1, (splitIndex raw).2) := by
  rcases splitIndex_cases (before ++ raw) with hwhole | ⟨body, n, hsplit, hindexed⟩
  · have hraw : ∀ rest n, ¬ Indexed raw rest n := fun rest n hrest => by
      have hindexed := (indexed_append_iff h).2 ⟨rest, rfl, hrest⟩
      exact not_indexed_of_splitIndex (congrArg Prod.snd hwhole) _ n hindexed
    rw [hwhole, splitIndex_of_not_indexed hraw]
  · obtain ⟨rest, rfl, hrest⟩ := (indexed_append_iff h).1 hindexed
    rw [hsplit, splitIndex_of_indexed hrest]

end UiSuite.Query
