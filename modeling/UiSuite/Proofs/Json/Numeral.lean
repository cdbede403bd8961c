import UiSuite.Json.Printer
import UiSuite.Json.Token

/-! Integers are written as numerals, and read back from their digits.

A text is a numeral when the grammar leads through it to a place where it may end
(`IsNumeral`). Only zero begins with a zero (`toDigits_eq_cons`), which is what the grammar
asks for, so every integer is one (`isNumeral_integerChars`). `value_integerChars` says what
the numeral of an integer denotes: within 64 bits, that integer and no other number. -/
namespace UiSuite

/-! ### The digits of a number -/

namespace Decimal

theorem valueOf_toDigits (n : Nat) : valueOf (Nat.toDigits 10 n) = n :=
  Nat.ofDigitChars_ten_toDigits

theorem spanDigits_of_all {cs : List Char} (h : ∀ c ∈ cs, c.isDigit = true) :
    spanDigits cs = (cs, []) := by
  induction cs with
  | nil => rfl
  | cons c cs ih =>
    have hc := h c List.mem_cons_self
    have hcs := ih fun x hx => h x (List.mem_cons_of_mem c hx)
    simp only [spanDigits, Prod.mk.injEq] at hcs ⊢
    simp [hc, hcs]

theorem spanDigits_toDigits (n : Nat) :
    spanDigits (Nat.toDigits 10 n) = (Nat.toDigits 10 n, []) :=
  spanDigits_of_all fun _ hc => Nat.isDigit_of_mem_toDigits (by decide) (by decide) hc

/-- Only zero is written with a leading zero. -/
theorem toDigits_eq_cons (n : Nat) : ∃ d ds, Nat.toDigits 10 n = d :: ds ∧ d.isDigit = true ∧
    (∀ c ∈ ds, c.isDigit = true) ∧ (d = '0' → n = 0 ∧ ds = []) := by
  induction n using Nat.strongRecOn with
  | ind n ih =>
    by_cases h : n < 10
    · refine ⟨Nat.digitChar n, [], Nat.toDigits_of_lt_base h, ?_, by simp, ?_⟩
      · simp [h]
      · intro h0
        exact ⟨Nat.digitChar_eq_zero.1 h0, rfl⟩
    · have hle : 10 ≤ n := Nat.le_of_not_lt h
      obtain ⟨d, ds, hd, hdigit, hds, hzero⟩ := ih (n / 10) (by omega)
      have hn : Nat.toDigits 10 n = d :: (ds ++ [Nat.digitChar (n % 10)]) := by
        rw [Nat.toDigits_of_base_le (by decide) hle, hd, List.cons_append]
      refine ⟨d, _, hn, hdigit, ?_, ?_⟩
      · intro c hc
        rcases List.mem_append.1 hc with hc | hc
        · exact hds c hc
        · rw [List.mem_singleton.1 hc]
          simp [Nat.mod_lt]
      · intro h0
        have := (hzero h0).1
        omega

end Decimal

namespace Numeral
open Decimal (valueOf_toDigits spanDigits_toDigits toDigits_eq_cons)

/-! ### Texts of the grammar -/

namespace Place

/-- Where further characters lead, one after the other. -/
def run : Place → List Char → Option Place
  | p, [] => some p
  | p, c :: cs => (p.next c).bind fun q => q.run cs

theorem run_cons {p q : Place} {c : Char} (h : p.next c = some q) (cs : List Char) :
    p.run (c :: cs) = q.run cs := by
  rw [run, h, Option.bind_some]

theorem run_append {p q : Place} {cs : List Char} (h : p.run cs = some q) (ds : List Char) :
    p.run (cs ++ ds) = q.run ds := by
  induction cs generalizing p with
  | nil =>
    cases h
    rfl
  | cons c cs ih =>
    obtain ⟨r, hnext, hrest⟩ := Option.bind_eq_some_iff.1 h
    rw [List.cons_append, run_cons hnext, ih hrest]

/-- Digits that lead nowhere else are taken as they come. -/
theorem run_digits {p : Place} (h : ∀ c : Char, c.isDigit = true → p.next c = some p)
    {ds : List Char} (hds : ∀ c ∈ ds, c.isDigit = true) : p.run ds = some p := by
  induction ds with
  | nil => rfl
  | cons d ds ih =>
    rw [run_cons (h d (hds d List.mem_cons_self)), ih fun c hc => hds c (List.mem_cons_of_mem d hc)]

theorem next_sign {c : Char} (h : c.isDigit = true) (hzero : c ≠ '0') :
    sign.next c = some whole := by
  rw [next, if_neg hzero, if_pos h]

theorem exists_next_sign {c : Char} (h : c.isDigit = true) :
    ∃ p, (p = zero ∨ p = whole) ∧ sign.next c = some p := by
  by_cases hzero : c = '0'
  · exact ⟨zero, .inl rfl, by rw [hzero]; rfl⟩
  · exact ⟨whole, .inr rfl, next_sign h hzero⟩

theorem next_whole {c : Char} (h : c.isDigit = true) : whole.next c = some whole :=
  if_pos h

theorem next_fraction {c : Char} (h : c.isDigit = true) : fraction.next c = some fraction :=
  if_pos h

theorem next_power {c : Char} (h : c.isDigit = true) : power.next c = some power :=
  if_pos h

/-- What may follow a sign may as well be the first character. -/
theorem first_of_sign {c : Char} {p : Place} (h : sign.next c = some p) :
    c.isDigit = true ∧ first c = some p := by
  have hdigit : c.isDigit = true := by
    rw [next] at h
    split at h
    · next h0 => rw [h0]; rfl
    split at h
    · assumption
    · cases h
  have hminus : c ≠ '-' := by
    rintro rfl
    exact absurd hdigit (by decide)
  refine ⟨hdigit, ?_⟩
  rw [first, if_neg hminus]
  exact h

/-- The digits of a number: zero is complete, and any other number may go on. -/
theorem run_toDigits (n : Nat) :
    sign.run (Nat.toDigits 10 n) = some (if n = 0 then zero else whole) := by
  obtain ⟨d, ds, hcons, hdigit, hds, hzero⟩ := toDigits_eq_cons n
  by_cases hn : n = 0
  · subst hn
    rfl
  · have hd : d ≠ '0' := fun h => hn (hzero h).1
    rw [hcons, run_cons (next_sign hdigit hd), run_digits (fun _ => next_whole) hds, if_neg hn]

end Place

open Place (run_append run_cons run_digits run_toDigits next_whole next_fraction next_power)

/-- A numeral without a sign: it may follow one. -/
def Unsigned (cs : List Char) : Prop :=
  ∃ place, Place.sign.run cs = some place ∧ place.isEnd = true

/-- A text of the grammar. -/
def IsNumeral (cs : List Char) : Prop :=
  Unsigned cs ∨ ∃ body, cs = '-' :: body ∧ Unsigned body

theorem unsigned_toDigits (n : Nat) : Unsigned (Nat.toDigits 10 n) :=
  ⟨_, run_toDigits n, by split <;> rfl⟩

theorem isNumeral_integerChars (i : Int) : IsNumeral (Json.integerChars i) := by
  unfold Json.integerChars
  split
  · exact .inr ⟨_, rfl, unsigned_toDigits _⟩
  · exact .inl (unsigned_toDigits _)

/-! ### What they denote -/

/-- A numeral with no point and no power of ten is an integer. -/
theorem value_toDigits (n : Nat) : value (Nat.toDigits 10 n) = integer false (Nat.toDigits 10 n) := by
  obtain ⟨d, ds, hcons, hdigit, hds, -⟩ := toDigits_eq_cons n
  have hspan := spanDigits_toDigits n
  rw [hcons] at hspan ⊢
  have hsign : d ≠ '-' := by
    rintro rfl
    exact absurd hdigit (by decide)
  unfold value
  split
  next negative body hm =>
    split at hm
    · next heq => exact absurd (List.cons.inj heq).1 hsign
    · cases hm
      simp only [hspan]

theorem value_minus_toDigits (n : Nat) :
    value ('-' :: Nat.toDigits 10 n) = integer true (Nat.toDigits 10 n) := by
  simp only [value, spanDigits_toDigits]

/-- An integer within 64 bits is what its numeral denotes. -/
theorem value_integerChars {i : Int} (h : (Number.integer i).InRange) :
    value (Json.integerChars i) = some (.integer i) := by
  obtain ⟨hleast, hgreatest⟩ := h
  unfold Json.integerChars
  split
  · next hneg =>
    have hzero : ¬ (i.natAbs = 0 ∨ UInt64.size / 2 < i.natAbs) := by
      simp only [Number.least, UInt64.size] at hleast ⊢
      omega
    have hi : -(i.natAbs : Int) = i := by omega
    simp only [value_minus_toDigits, integer, valueOf_toDigits, if_true, Bool.or_eq_true,
      decide_eq_true_eq, hzero, if_false, hi]
  · next hneg =>
    have hsize : ¬ UInt64.size ≤ i.natAbs := by
      simp only [Number.greatest, UInt64.size] at hgreatest ⊢
      omega
    have hi : (i.natAbs : Int) = i := by omega
    simp only [value_toDigits, integer, valueOf_toDigits, Bool.false_eq_true, if_false, hsize, hi]

end Numeral
end UiSuite
