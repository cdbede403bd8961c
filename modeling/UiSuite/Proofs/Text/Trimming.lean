import Mathlib.Data.List.DropRight
import UiSuite.Text.Blank
import UiSuite.Text.Search

/-! What trimming leaves.

Trimming twice trims no more (`trimmed_trimmed`), nothing is left of a text exactly when it is
blank (`trimmed_eq_empty_iff`), and a text without blanks is what is left of it between blanks
(`trim_padded`). -/
namespace UiSuite.Text

/-- What is left begins with no blank. -/
theorem head_trimStart {cs rest : List Char} {c : Char} (h : trimStart cs = c :: rest) :
    isBlank c = false := by
  have hhead := List.head?_dropWhile_not isBlank cs
  rw [← trimStart, h] at hhead
  exact hhead

/-- Trailing blanks do not reach the beginning of a text that begins with no blank. -/
theorem trimEnd_cons {c : Char} (h : isBlank c = false) (cs : List Char) :
    trimEnd (c :: cs) = c :: trimEnd cs := by
  rw [trimEnd, trimEnd, List.reverse_cons, List.dropWhile_append]
  split
  · rename_i hall
    rw [List.isEmpty_iff.1 hall, List.dropWhile_cons, h]
    rfl
  · rw [List.reverse_append]
    rfl

theorem trimEnd_trimEnd (cs : List Char) : trimEnd (trimEnd cs) = trimEnd cs := by
  rw [trimEnd, trimEnd, List.reverse_reverse, List.dropWhile_idempotent]

theorem trim_trim (cs : List Char) : trim (trim cs) = trim cs := by
  rw [trim, trim]
  cases hstart : trimStart cs with
  | nil => rfl
  | cons c rest =>
    have hc := head_trimStart hstart
    have hkeeps : trimStart (trimEnd (c :: rest)) = trimEnd (c :: rest) := by
      rw [trimEnd_cons hc, trimStart, List.dropWhile_cons, hc]
      rfl
    rw [hkeeps, trimEnd_trimEnd]

/-- What is left of a text begins with no blank. -/
theorem head_trim {cs : List Char} {c : Char} (h : (trim cs).head? = some c) :
    isBlank c = false := by
  cases hstart : trimStart cs with
  | nil =>
    rw [trim, hstart] at h
    cases h
  | cons d rest =>
    have hd := head_trimStart hstart
    rw [trim, hstart, trimEnd_cons hd] at h
    exact Option.some.inj h ▸ hd

/-- What is left of a text ends with no blank. -/
theorem getLast_trim {cs : List Char} {c : Char} (h : (trim cs).getLast? = some c) :
    isBlank c = false := by
  have hnot := List.head?_dropWhile_not isBlank (trimStart cs).reverse
  rw [trim, trimEnd, List.getLast?_reverse] at h
  rwa [h] at hnot

/-- Trimming takes characters off and adds none. -/
theorem trim_sublist (cs : List Char) : (trim cs).Sublist cs := by
  have hend : (trimEnd (trimStart cs)).Sublist (trimStart cs) := by
    have hdrop : ((trimStart cs).reverse.dropWhile isBlank).Sublist (trimStart cs).reverse :=
      List.dropWhile_sublist isBlank
    rw [trimEnd]
    simpa using hdrop.reverse
  exact hend.trans (List.dropWhile_sublist isBlank)

theorem trimStart_eq_nil_iff {cs : List Char} : trimStart cs = [] ↔ cs.all isBlank = true := by
  rw [trimStart, List.dropWhile_eq_nil_iff, List.all_eq_true]

theorem trim_eq_nil_iff {cs : List Char} : trim cs = [] ↔ cs.all isBlank = true := by
  rw [← trimStart_eq_nil_iff]
  constructor
  · intro h
    cases hstart : trimStart cs with
    | nil => rfl
    | cons c rest =>
      rw [trim, hstart, trimEnd_cons (head_trimStart hstart)] at h
      cases h
  · intro hstart
    rw [trim, hstart]
    rfl

/-- **Trimming twice trims no more.** -/
theorem trimmed_trimmed (s : String) : trimmed (trimmed s) = trimmed s := by
  rw [trimmed, toList_trimmed, trim_trim, trimmed]

/-- **Nothing is left of a text exactly when it is blank.** -/
theorem trimmed_eq_empty_iff {s : String} : trimmed s = "" ↔ isBlankText s = true := by
  rw [isBlankText, ← trim_eq_nil_iff, trimmed, String.ofList_eq_empty_iff]

/-- Up to case, only the empty text is empty. -/
theorem eq_empty_of_equalFold {s : String} (h : equalFold "" s = true) : s = "" := by
  have hfold : foldCase s = [] := (beq_iff_eq.1 h).symm
  rw [foldCase, List.map_eq_nil_iff] at hfold
  exact String.toList_eq_nil_iff.1 hfold

/-! ### Blanks around a text -/

theorem trim_blank_append {before : List Char} (h : before.all isBlank = true) (cs : List Char) :
    trim (before ++ cs) = trim cs := by
  have hstart : trimStart (before ++ cs) = trimStart cs :=
    List.dropWhile_append_of_pos fun c hc => List.all_eq_true.1 h c hc
  rw [trim, hstart, trim]

theorem trim_append_blank {after : List Char} (h : after.all isBlank = true) (cs : List Char) :
    trim (cs ++ after) = trim cs := by
  by_cases hblank : cs.all isBlank = true
  · have hall : (cs ++ after).all isBlank = true := by rw [List.all_append, hblank, h, Bool.and_self]
    rw [trim_eq_nil_iff.2 hall, trim_eq_nil_iff.2 hblank]
  · have hne : ¬ (cs.dropWhile isBlank).isEmpty = true := fun hnil =>
      hblank (trimStart_eq_nil_iff.1 (List.isEmpty_iff.1 hnil))
    have hstart : trimStart (cs ++ after) = trimStart cs ++ after := by
      rw [trimStart, List.dropWhile_append, if_neg hne, trimStart]
    have hend : trimEnd (trimStart cs ++ after) = trimEnd (trimStart cs) := by
      rw [trimEnd, List.reverse_append, List.dropWhile_append_of_pos, trimEnd]
      exact fun c hc => List.all_eq_true.1 h c (List.mem_reverse.1 hc)
    rw [trim, hstart, hend, trim]

/-- A text without blanks stays as it is. -/
theorem trim_eq_self {cs : List Char} (h : ∀ c ∈ cs, isBlank c = false) : trim cs = cs := by
  have hstart : trimStart cs = cs := by
    cases cs with
    | nil => rfl
    | cons c rest => simp [trimStart, h c List.mem_cons_self]
  have hend : trimEnd cs = cs := by
    rcases List.eq_nil_or_concat cs with rfl | ⟨init, c, rfl⟩
    · rfl
    · simp [trimEnd, h c (by simp)]
  rw [trim, hstart, hend]

/-- **Blanks around a text without blanks are taken off.** -/
theorem trim_padded {before after cs : List Char} (hbefore : before.all isBlank = true)
    (hafter : after.all isBlank = true) (hcs : ∀ c ∈ cs, isBlank c = false) :
    trim (before ++ cs ++ after) = cs := by
  rw [trim_append_blank hafter, trim_blank_append hbefore, trim_eq_self hcs]

theorem isBlank_of_isDigit {c : Char} (h : c.isDigit = true) : isBlank c = false := by
  have hrange : 48 ≤ c.toNat ∧ c.toNat ≤ 57 := by
    simpa [Char.isDigit, UInt32.le_iff_toNat_le] using h
  simp only [isBlank, Bool.or_eq_false_iff, Bool.and_eq_false_iff, decide_eq_false_iff_not,
    beq_eq_false_iff_ne]
  omega

end UiSuite.Text
