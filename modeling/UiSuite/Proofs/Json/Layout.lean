import UiSuite.Proofs.Json.Numeral

/-! Binary64 numbers are written as numerals.

Only zero has the digit zero for its shortest decimal, and no power of ten with it
(`scale_of_digits_eq_zero`), so no numeral begins with a zero and goes on with a digit.
`isNumeral_render` is the result, for every number and every layout. -/
namespace UiSuite

/-! ### The digits of the shortest decimal -/

namespace Decimal.Shortest

theorem quarters_fst_pos {x : Binary64} (hx : x.significand ≠ 0) : 0 < (quarters x).1 := by
  show 0 < 4 * x.significand - _
  split <;> omega

/-- Zero is too far from a number other than zero to read back as it. -/
theorem onGrid?_pos {x : Binary64} {scale : Int} {d : Nat} (hx : x.significand ≠ 0)
    (h : onGrid? x scale = some d) : 0 < d := by
  have hlow : 0 < (quarters x).1 := quarters_fst_pos hx
  unfold onGrid? at h
  generalize quarters x = q at hlow h
  obtain ⟨low, mid, high⟩ := q
  dsimp -zeta only at h hlow
  extract_lets grid place even inside down up at h
  have hplace : 0 < place := Nat.mul_pos (Nat.pow_pos (by decide)) (Nat.pow_pos (by decide))
  have hinside : ∀ e, inside e = true → 0 < e := by
    intro e he
    apply Nat.pos_of_ne_zero
    rintro rfl
    have hprod : 0 < low * place := Nat.mul_pos hlow hplace
    simp only [inside, Nat.zero_mul] at he
    split at he
    all_goals
      simp only [Bool.and_eq_true, decide_eq_true_eq] at he
      omega
  split at h
  · next hdown _ =>
    rw [← Option.some.inj h]
    exact hinside down hdown
  · rw [← Option.some.inj h]
    exact Nat.succ_pos down
  · next hdown _ =>
    have hpos := hinside down hdown
    rw [← Option.some.inj h]
    split
    · exact hpos
    split
    · exact Nat.succ_pos down
    · exact Nat.lt_of_lt_of_le hpos (Nat.le_add_right down _)
  · cases h

theorem search_pos {x : Binary64} (hx : x.significand ≠ 0) (power : Int) (left count : Nat) :
    0 < (search x power left count).digits := by
  induction left generalizing count with
  | zero => exact Nat.pos_of_ne_zero hx
  | succ left ih =>
    rw [search]
    split
    · next d hgrid => exact onGrid?_pos hx hgrid
    · exact ih (count + 1)

theorem strip_pos (fuel : Nat) {s : Shortest} (h : 0 < s.digits) : 0 < (strip fuel s).digits := by
  induction fuel generalizing s with
  | zero => exact h
  | succ fuel ih =>
    rw [strip]
    split
    · next hten =>
      have hnext : 0 < s.digits / 10 := by omega
      exact ih (s := ⟨s.digits / 10, s.scale + 1⟩) hnext
    · exact h

/-- Only zero has the digit zero, and it has no power of ten. -/
theorem scale_of_digits_eq_zero {x : Binary64} (h : (ofBinary64 x).digits = 0) :
    (ofBinary64 x).scale = 0 := by
  unfold ofBinary64 at h ⊢
  split
  · rfl
  · next hx =>
    rw [if_neg hx] at h
    exact absurd h (Nat.ne_of_gt (strip_pos 20 (search_pos hx _ 17 0)))

end Decimal.Shortest

/-! ### Layouts -/

namespace Numeral
open Decimal (Layout Shortest toDigits_eq_cons)
open Place (run_append run_cons run_digits run_toDigits next_sign exists_next_sign next_whole
  next_fraction next_power)

theorem isDigit_of_mem {n : Nat} {c : Char} (h : c ∈ Nat.toDigits 10 n) : c.isDigit = true :=
  Nat.isDigit_of_mem_toDigits (by decide) (by decide) h

theorem isDigit_of_mem_zeros {k : Nat} {c : Char} (h : c ∈ Layout.zeros k) : c.isDigit = true := by
  rw [(List.mem_replicate.1 h).2]
  rfl

/-- Digits after the point, one at least, make a fraction. -/
theorem run_fraction {cs ds : List Char} {p : Place} (hcs : Place.sign.run cs = some p)
    (hp : p = .zero ∨ p = .whole) (hds : ∀ c ∈ ds, c.isDigit = true) (hne : ds ≠ []) :
    Place.sign.run (cs ++ '.' :: ds) = some .fraction := by
  have hpoint : p.next '.' = some .point := by
    rcases hp with rfl | rfl <;> rfl
  obtain ⟨d, rest, rfl⟩ := List.exists_cons_of_ne_nil hne
  obtain ⟨hd, hrest⟩ := List.forall_mem_cons.1 hds
  have hfirst : Place.point.next d = some .fraction := if_pos hd
  rw [run_append hcs, run_cons hpoint, run_cons hfirst, run_digits (fun _ => next_fraction) hrest]

/-- The first digits of a number other than zero, one at least. -/
theorem run_take {n k : Nat} (hn : n ≠ 0) (hk : 0 < k) :
    Place.sign.run ((Nat.toDigits 10 n).take k) = some .whole := by
  obtain ⟨d, ds, hcons, hdigit, hds, hzero⟩ := toDigits_eq_cons n
  have hd : d ≠ '0' := fun h => hn (hzero h).1
  obtain ⟨k, rfl⟩ := Nat.exists_eq_succ_of_ne_zero (Nat.ne_of_gt hk)
  rw [hcons, List.take_succ_cons, run_cons (next_sign hdigit hd),
    run_digits (fun _ => next_whole) fun c hc => hds c (List.mem_of_mem_take hc)]

/-- Only zero may not be given further zeros. -/
theorem run_zeros {n k : Nat} (h : n = 0 → k = 0) :
    ∃ p, (p = .zero ∨ p = .whole) ∧
      Place.sign.run (Nat.toDigits 10 n ++ Layout.zeros k) = some p := by
  by_cases hn : n = 0
  · rw [hn, h hn]
    exact ⟨.zero, .inl rfl, rfl⟩
  · refine ⟨.whole, .inr rfl, ?_⟩
    rw [run_append (run_toDigits n), if_neg hn,
      run_digits (fun _ => next_whole) fun _ => isDigit_of_mem_zeros]

theorem unsigned_positional {n : Nat} {scale : Int} (h : n = 0 → scale = 0) :
    Unsigned (Layout.positional (Nat.toDigits 10 n) scale) := by
  refine ⟨.fraction, ?_, rfl⟩
  unfold Layout.positional
  split
  · have hzeros : n = 0 → scale.toNat = 0 := fun h0 => by rw [h h0]; rfl
    have hlast : ∀ c ∈ ['0'], c.isDigit = true := List.forall_mem_cons.2 ⟨rfl, nofun⟩
    obtain ⟨p, hp, hrun⟩ := run_zeros hzeros
    exact run_fraction hrun hp hlast (List.cons_ne_nil _ _)
  · next hscale =>
    have hn : n ≠ 0 := fun h0 => hscale (Int.le_of_eq (h h0).symm)
    dsimp only
    split
    · next hplaces =>
      apply run_fraction (run_take hn (by omega)) (.inr rfl)
      · exact fun c hc => isDigit_of_mem (List.mem_of_mem_drop hc)
      · rw [ne_eq, List.drop_eq_nil_iff]
        omega
    · have hzero : Place.sign.run ['0'] = some .zero := rfl
      apply run_fraction hzero (.inl rfl)
      · intro c hc
        exact (List.mem_append.1 hc).elim isDigit_of_mem_zeros isDigit_of_mem
      · exact List.append_ne_nil_of_right_ne_nil _ Nat.toDigits_ne_nil

/-- A power of ten may follow any number without one. -/
theorem unsigned_power {cs : List Char} {p : Place} (hcs : Place.sign.run cs = some p)
    (hp : p = .zero ∨ p = .whole ∨ p = .fraction) (power : Int) :
    Unsigned (cs ++ 'e' :: (if power < 0 then '-' else '+') :: Nat.toDigits 10 power.natAbs) := by
  obtain ⟨d, ds, hcons, hdigit, hds, -⟩ := toDigits_eq_cons power.natAbs
  have hmark : p.next 'e' = some .mark := by
    rcases hp with rfl | rfl | rfl <;> rfl
  have hsign : Place.mark.next (if power < 0 then '-' else '+') = some .markSign := by
    split <;> rfl
  have hfirst : Place.markSign.next d = some .power := if_pos hdigit
  refine ⟨.power, ?_, rfl⟩
  rw [run_append hcs, run_cons hmark, run_cons hsign, hcons, run_cons hfirst,
    run_digits (fun _ => next_power) hds]

theorem unsigned_scientific (n : Nat) (power : Int) :
    Unsigned (Layout.scientific (Nat.toDigits 10 n) power) := by
  obtain ⟨d, ds, hcons, hdigit, hds, -⟩ := toDigits_eq_cons n
  obtain ⟨p, hp, hnext⟩ := exists_next_sign hdigit
  have hrun : Place.sign.run [d] = some p := run_cons hnext []
  unfold Layout.scientific
  rw [hcons]
  by_cases hempty : ds = []
  · subst hempty
    exact unsigned_power hrun (hp.imp_right .inl) power
  · have htail : ¬ (d :: ds).length ≤ 1 := by
      have := List.length_pos_iff.2 hempty
      rw [List.length_cons]
      omega
    rw [if_neg htail]
    exact unsigned_power (run_fraction hrun hp hds hempty) (.inr (.inr rfl)) power

/-- **Every number is written as a numeral.** -/
theorem isNumeral_render (layout : Layout) (x : Decimal.Binary64) :
    IsNumeral (layout.render x) := by
  have hbody : ∀ power : Int, Unsigned
      (if layout.least ≤ power && power ≤ layout.greatest then
        Layout.positional (Nat.toDigits 10 (Shortest.ofBinary64 x).digits)
          (Shortest.ofBinary64 x).scale
      else Layout.scientific (Nat.toDigits 10 (Shortest.ofBinary64 x).digits) power) := by
    intro power
    split
    · exact unsigned_positional Shortest.scale_of_digits_eq_zero
    · exact unsigned_scientific _ power
  unfold Layout.render
  dsimp only
  split
  · exact .inr ⟨_, rfl, hbody _⟩
  · exact .inl (hbody _)

theorem isNumeral_numberChars (n : Number) : IsNumeral (Json.numberChars n) := by
  cases n with
  | integer i => exact isNumeral_integerChars i
  | float x => exact isNumeral_render Json.layout x

end Numeral
end UiSuite
