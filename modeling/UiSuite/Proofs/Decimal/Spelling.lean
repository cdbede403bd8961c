import UiSuite.Proofs.Json.Numeral
import UiSuite.Proofs.Text.Trimming

/-! Integers spelled out.

An integer is written with its digits, any number of zeros before them, and a sign
(`Decimal.Spells`). What is not negative is read back exactly, whatever its size
(`natural?_padded`, `natural?_plus_padded`); a negative integer is no natural number
(`natural?_minus`), and the number nearest to it is below zero (`isBelowZero_of_nearestDecimal`).
-/
namespace UiSuite.Decimal

/-! ### Digits after zeros -/

/-- The digits of a number after so many zeros. -/
def padded (zeros n : Nat) : List Char :=
  List.replicate zeros '0' ++ Nat.toDigits 10 n

theorem isDigit_of_mem_padded {zeros n : Nat} {c : Char} (h : c ∈ padded zeros n) :
    c.isDigit = true := by
  rcases List.mem_append.1 h with h | h
  · rw [(List.mem_replicate.1 h).2]
    rfl
  · exact Nat.isDigit_of_mem_toDigits (by decide) (by decide) h

theorem padded_ne_nil (zeros n : Nat) : padded zeros n ≠ [] := by
  obtain ⟨d, ds, hcons, -⟩ := toDigits_eq_cons n
  simp [padded, hcons]

/-- Zeros before a number do not count. -/
theorem valueOf_padded (zeros n : Nat) : valueOf (padded zeros n) = n := by
  have hzeros : valueOf (List.replicate zeros '0') = 0 := by
    induction zeros with
    | zero => rfl
    | succ zeros ih =>
      rw [List.replicate_succ', valueOf, List.foldl_append]
      show 10 * valueOf (List.replicate zeros '0') + 0 = 0
      rw [ih]
  rw [padded, valueOf, List.foldl_append]
  show (Nat.toDigits 10 n).foldl _ (valueOf (List.replicate zeros '0')) = n
  rw [hzeros]
  exact valueOf_toDigits n

/-- Digits are read as their value. -/
theorem natural?_of_digits {digits : List Char} (hne : digits ≠ [])
    (hdigits : ∀ c ∈ digits, c.isDigit = true) (greatest : Nat) :
    natural? greatest digits =
      if valueOf digits ≤ greatest then some (valueOf digits) else none := by
  have hplus : '+' ∉ digits := fun hmem => absurd (hdigits '+' hmem) (by decide)
  have hall : digits.all Char.isDigit = true := List.all_eq_true.2 hdigits
  cases digits with
  | nil => exact absurd rfl hne
  | cons c cs =>
    have hc : c ≠ '+' := fun heq => hplus (heq ▸ List.mem_cons_self)
    simp [natural?, hc, hall]

/-- A plus before digits does not count. -/
theorem natural?_plus {digits : List Char} (hdigits : ∀ c ∈ digits, c.isDigit = true)
    (greatest : Nat) : natural? greatest ('+' :: digits) = natural? greatest digits := by
  have hplus : '+' ∉ digits := fun hmem => absurd (hdigits '+' hmem) (by decide)
  cases digits with
  | nil => rfl
  | cons c cs =>
    have hc : c ≠ '+' := fun heq => hplus (heq ▸ List.mem_cons_self)
    simp [natural?, hc]

/-! ### Numbers of at least one -/

namespace Binary64

theorem le_roundDiv {num den : Nat} (h : den ≤ num) (hden : 0 < den) : 1 ≤ roundDiv num den := by
  have hquotient : 1 ≤ num / den := (Nat.one_le_div_iff hden).2 h
  simp only [roundDiv]
  split
  · exact hquotient
  · split <;> omega

theorem of_ofParts? {negative : Bool} {significand : Nat} {exponent : Int} {x : Binary64}
    (h : ofParts? negative significand exponent = some x) :
    x.negative = negative ∧ x.significand = significand := by
  rw [ofParts?] at h
  split at h
  · cases h
    exact ⟨rfl, rfl⟩
  · cases h

/-- At an exponent that leaves 52 places, a number of at least one has a place before the
point. -/
theorem le_of_exponent_le {num den : Nat} {e : Int} (hden : den ≠ 0) (hle : den ≤ num)
    (he : e ≤ (num.log2 : Int) - den.log2 - 52 ∨ e ≤ 0) :
    den * Nat.pow 2 e.toNat ≤ num * Nat.pow 2 (-e).toNat := by
  have hone : num ≤ num * Nat.pow 2 (-e).toNat :=
    Nat.le_mul_of_pos_right num (Nat.two_pow_pos _)
  refine Nat.le_trans ?_ hone
  by_cases hsmall : e ≤ 0
  · rw [Int.toNat_of_nonpos hsmall]
    exact Nat.le_trans (Nat.le_of_eq (Nat.mul_one den)) hle
  · have hplaces : den.log2 + 1 + e.toNat ≤ num.log2 := by omega
    calc den * Nat.pow 2 e.toNat
      _ ≤ Nat.pow 2 (den.log2 + 1) * Nat.pow 2 e.toNat :=
        Nat.mul_le_mul_right _ (Nat.le_of_lt Nat.lt_log2_self)
      _ = Nat.pow 2 (den.log2 + 1 + e.toNat) := (Nat.pow_add 2 _ _).symm
      _ ≤ Nat.pow 2 num.log2 := Nat.pow_le_pow_right (by decide) hplaces
      _ ≤ num := Nat.log2_self_le (by omega)

/-- A number is rounded at an exponent that leaves 52 places, or at a lower one, or at one that
is not positive. -/
theorem nearest_eq (negative : Bool) {num : Nat} (hnum : num ≠ 0) (den : Nat) :
    ∃ e : Int, (e ≤ (num.log2 : Int) - den.log2 - 52 ∨ e ≤ 0) ∧
      nearest negative num den =
        let significand := roundDiv (num * Nat.pow 2 (-e).toNat) (den * Nat.pow 2 e.toNat)
        if significand = 2 * leastFull then ofParts? negative leastFull (e + 1)
        else ofParts? negative significand e := by
  refine ⟨_, ?_, by rw [nearest, if_neg hnum]⟩
  split <;> omega

/-- A number of at least one is not rounded to zero. -/
theorem significand_of_nearest {negative : Bool} {num den : Nat} (hden : den ≠ 0)
    (hle : den ≤ num) {x : Binary64} (h : nearest negative num den = some x) :
    x.negative = negative ∧ x.significand ≠ 0 := by
  obtain ⟨e, he, hnearest⟩ := nearest_eq negative (Nat.ne_of_gt (by omega : 0 < num)) den
  have hround : 1 ≤ roundDiv (num * Nat.pow 2 (-e).toNat) (den * Nat.pow 2 e.toNat) :=
    le_roundDiv (le_of_exponent_le hden hle he)
      (Nat.mul_pos (Nat.pos_of_ne_zero hden) (Nat.two_pow_pos _))
  rw [h] at hnearest
  dsimp only at hnearest
  split at hnearest
  · obtain ⟨hsign, hsignificand⟩ := of_ofParts? hnearest.symm
    exact ⟨hsign, by rw [hsignificand]; decide⟩
  · obtain ⟨hsign, hsignificand⟩ := of_ofParts? hnearest.symm
    exact ⟨hsign, by rw [hsignificand]; omega⟩

end Binary64

/-! ### Texts of integers -/

/-- The texts of an integer: its digits after any zeros, with the sign it has or a plus. -/
inductive Spells : Int → List Char → Prop
  | plain (zeros n : Nat) : Spells n (padded zeros n)
  | plus (zeros n : Nat) : Spells n ('+' :: padded zeros n)
  | minus (zeros : Nat) {n : Nat} (hn : n ≠ 0) : Spells (-n) ('-' :: padded zeros n)

theorem isBlank_of_mem_padded {zeros n : Nat} {c : Char} (h : c ∈ padded zeros n) :
    Text.isBlank c = false :=
  Text.isBlank_of_isDigit (isDigit_of_mem_padded h)

/-- No blank stands in the text of an integer. -/
theorem Spells.isBlank_of_mem {i : Int} {cs : List Char} (h : Spells i cs) :
    ∀ c ∈ cs, Text.isBlank c = false := by
  cases h with
  | plain zeros n => exact fun _ => isBlank_of_mem_padded
  | plus zeros n => exact List.forall_mem_cons.2 ⟨rfl, fun _ => isBlank_of_mem_padded⟩
  | minus zeros hn => exact List.forall_mem_cons.2 ⟨rfl, fun _ => isBlank_of_mem_padded⟩

theorem natural?_padded {zeros n greatest : Nat} (h : n ≤ greatest) :
    natural? greatest (padded zeros n) = some n := by
  rw [natural?_of_digits (padded_ne_nil zeros n) fun _ => isDigit_of_mem_padded, valueOf_padded,
    if_pos h]

theorem natural?_plus_padded {zeros n greatest : Nat} (h : n ≤ greatest) :
    natural? greatest ('+' :: padded zeros n) = some n := by
  rw [natural?_plus fun _ => isDigit_of_mem_padded, natural?_padded h]

/-- After a minus there is no natural number. -/
theorem natural?_minus (greatest : Nat) (cs : List Char) : natural? greatest ('-' :: cs) = none :=
  rfl

/-- A whole number after a minus is read as the number nearest to it. -/
theorem parse?_minus_padded (zeros n : Nat) :
    parse? ('-' :: padded zeros n) = nearestDecimal true n 0 := by
  have hne : (padded zeros n).isEmpty = false := by simp [padded_ne_nil]
  have hspan : spanDigits (padded zeros n) = (padded zeros n, []) :=
    spanDigits_of_all fun _ => isDigit_of_mem_padded
  simp only [parse?, dropSign, hspan, hne, Bool.false_and, Bool.false_eq_true, if_false,
    exponentOf?, Option.bind_some, List.append_nil, valueOf_padded]
  rfl

/-- What is nearest to a negative whole number is below zero. -/
theorem isBelowZero_of_nearestDecimal {n : Nat} (hn : n ≠ 0) {x : Binary64}
    (h : nearestDecimal true n 0 = some x) : x.isBelowZero = true := by
  have hsize : ¬ (((Nat.toDigits 10 n).length : Int) + 0 < -330) := by omega
  rw [nearestDecimal, if_neg hn] at h
  simp only [if_neg hsize] at h
  split at h
  · cases h
  · have hle : Nat.pow 10 (-0 : Int).toNat ≤ n * Nat.pow 10 (0 : Int).toNat := by
      show 1 ≤ n * 1
      omega
    obtain ⟨hsign, hsignificand⟩ := Binary64.significand_of_nearest (by decide) hle h
    simp [Binary64.isBelowZero, hsign, hsignificand]

end UiSuite.Decimal
