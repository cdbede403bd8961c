import Mathlib.Algebra.Order.Floor.Div
import UiSuite.Config.Loading
import UiSuite.Proofs.Execution.Performing

/-! When the looks of a wait come.

Looks are counted from 0. A wait that has not ended before a look comes to it after the interval
so many times, or at the deadline if that is earlier (`World.waitFrom_after`), so the time over
the interval, rounded up, is the number of the last look, and that one is at the deadline. What
the looks show decides the rest: a wait ends with the first that is met, and without one it ends
with the last (`World.waitFor_answers`). -/
namespace UiSuite

section
variable {σ : Type} [Surface σ]

/-- A surface after so many looks, each after a settle. -/
def Surface.afterLooks (n : Nat) (s : σ) : σ :=
  (fun s => (snapshot (settle s)).2)^[n] s

/-- What the look with a number shows. -/
def Surface.shownAt (n : Nat) (s : σ) : List Element :=
  (snapshot (settle (afterLooks n s))).1

theorem Surface.afterLooks_succ (n : Nat) (s : σ) :
    afterLooks (n + 1) s = (snapshot (settle (afterLooks n s))).2 :=
  Function.iterate_succ_apply' _ n s

namespace World

/-- The world in a wait when the look with a number is due. -/
def dueLook (time interval n : Nat) (w : World σ) : World σ :=
  { w with
    surface := Surface.afterLooks n w.surface
    clock := w.clock + min (n * interval) time }

/-- The world in a wait after the look with a number, at the same time. -/
def atLook (time interval n : Nat) (w : World σ) : World σ :=
  { w with
    surface := Surface.afterLooks (n + 1) w.surface
    clock := w.clock + min (n * interval) time }

theorem look_dueLook (time interval n : Nat) (w : World σ) :
    (w.dueLook time interval n).settle.look =
      (Surface.shownAt n w.surface, w.atLook time interval n) := by
  rw [atLook, Surface.afterLooks_succ]
  rfl

/-- From one look to the next passes the interval, or what is left of the time. -/
theorem sleep_atLook (time interval n : Nat) (w : World σ) :
    (w.atLook time interval n).sleep (min interval (time - n * interval)) =
      w.dueLook time interval (n + 1) := by
  have hclock : w.clock + min (n * interval) time + min interval (time - n * interval) =
      w.clock + min ((n + 1) * interval) time := by
    rw [Nat.succ_mul]
    omega
  rw [sleep, atLook, dueLook, ← hclock]

theorem sleepsIn_eq (time : Nat) {interval : Nat} (h : 0 < interval) :
    sleepsIn time interval = time ⌈/⌉ interval := by
  rw [sleepsIn, if_neg (Nat.ne_of_gt h), Nat.ceilDiv_eq_add_pred_div]

/-- Before the last look there is time left. -/
theorem mul_lt_of_lt_ceilDiv {time interval n : Nat} (hpos : 0 < interval)
    (h : n < time ⌈/⌉ interval) : n * interval < time := by
  rw [Nat.mul_comm]
  exact Nat.lt_of_not_le fun hle => Nat.not_le.2 h ((ceilDiv_le_iff_le_mul hpos).2 hle)

/-- The last look is at the deadline. -/
theorem le_ceilDiv_mul (time : Nat) {interval : Nat} (hpos : 0 < interval) :
    time ≤ (time ⌈/⌉ interval) * interval := by
  rw [Nat.mul_comm]
  exact (ceilDiv_le_iff_le_mul hpos).1 (Nat.le_refl _)

variable {isMet : List Element → Bool} {time interval : Nat} {w : World σ}

/-- **A wait that has not ended comes to its next look** after the interval so many times, with
the rest of the time left, if it may sleep often enough to come to the deadline. -/
theorem waitFrom_after (hpos : 0 < interval) {sleeps : Nat} (hsleeps : time ⌈/⌉ interval ≤ sleeps)
    {n : Nat} (hn : n ≤ time ⌈/⌉ interval)
    (hbefore : ∀ m < n, isMet (Surface.shownAt m w.surface) = false) :
    waitFrom isMet interval sleeps time 0 w =
      waitFrom isMet interval (sleeps - n) (time - n * interval) n
        (w.dueLook time interval n) := by
  induction n with
  | zero =>
    have hstart : w.dueLook time interval 0 = w := by simp [dueLook, Surface.afterLooks]
    rw [hstart, Nat.zero_mul, Nat.sub_zero, Nat.sub_zero]
  | succ n ih =>
    have hlt : n < time ⌈/⌉ interval := hn
    have hleft := mul_lt_of_lt_ceilDiv hpos hlt
    have hunmet := hbefore n (Nat.lt_succ_self n)
    have hgoes : ¬ (isMet (Surface.shownAt n w.surface) ∨ time - n * interval = 0) := by
      simp only [hunmet, Bool.false_eq_true, false_or]
      omega
    obtain ⟨more, hmore⟩ : ∃ more, sleeps - n = more + 1 :=
      Nat.exists_eq_add_one.2 (by omega)
    have hsleepsLeft : more = sleeps - (n + 1) := by omega
    have htimeLeft : time - n * interval - min interval (time - n * interval) =
        time - (n + 1) * interval := by
      rw [Nat.succ_mul]
      omega
    rw [ih (Nat.le_of_lt hlt) fun m hm => hbefore m (Nat.lt_succ_of_lt hm), hmore,
      waitFrom_succ isMet interval more _ n (look_dueLook time interval n w), if_neg hgoes,
      htimeLeft, sleep_atLook, hsleepsLeft]

/-- A wait ends with the first look that is met. -/
theorem waitFrom_met (hpos : 0 < interval) {sleeps : Nat} (hsleeps : time ⌈/⌉ interval ≤ sleeps)
    {n : Nat} (hn : n ≤ time ⌈/⌉ interval)
    (hbefore : ∀ m < n, isMet (Surface.shownAt m w.surface) = false)
    (hmet : isMet (Surface.shownAt n w.surface) = true) :
    waitFrom isMet interval sleeps time 0 w = ⟨true, n + 1, w.atLook time interval n⟩ := by
  rw [waitFrom_after hpos hsleeps hn hbefore]
  exact waitFrom_of_isMet (look_dueLook time interval n w) hmet _ _ _ _

/-- A wait of which no look is met ends with the look at the deadline. -/
theorem waitFrom_unmet (hpos : 0 < interval) {sleeps : Nat} (hsleeps : time ⌈/⌉ interval ≤ sleeps)
    (hnone : ∀ n ≤ time ⌈/⌉ interval, isMet (Surface.shownAt n w.surface) = false) :
    waitFrom isMet interval sleeps time 0 w =
      ⟨false, time ⌈/⌉ interval + 1, w.atLook time interval (time ⌈/⌉ interval)⟩ := by
  have hlast := hnone _ (Nat.le_refl _)
  have hdeadline : time - (time ⌈/⌉ interval) * interval = 0 :=
    Nat.sub_eq_zero_of_le (le_ceilDiv_mul time hpos)
  rw [waitFrom_after hpos hsleeps (Nat.le_refl _) fun m hm => hnone m (Nat.le_of_lt hm),
    hdeadline, waitFrom_deadline isMet interval _ _ (look_dueLook time interval _ w), hlast]

/-- A wait in vain takes all its time. -/
theorem waitFor_unmet (hpos : 0 < interval)
    (hnone : ∀ n ≤ time ⌈/⌉ interval, isMet (Surface.shownAt n w.surface) = false) :
    w.waitFor isMet time interval =
      ⟨false, time ⌈/⌉ interval + 1, { w with
        surface := Surface.afterLooks (time ⌈/⌉ interval + 1) w.surface
        clock := w.clock + time }⟩ := by
  rw [waitFor, sleepsIn_eq time hpos, waitFrom_unmet hpos (Nat.le_refl _) hnone, atLook,
    Nat.min_eq_right (le_ceilDiv_mul time hpos)]

/-- It is the deadline that ends a wait, not the bound on its sleeps. -/
theorem waitFrom_eq_waitFor (hpos : 0 < interval) {sleeps : Nat}
    (hsleeps : time ⌈/⌉ interval ≤ sleeps) :
    waitFrom isMet interval sleeps time 0 w = w.waitFor isMet time interval := by
  rw [waitFor, sleepsIn_eq time hpos]
  by_cases hany : ∃ n, n ≤ time ⌈/⌉ interval ∧ isMet (Surface.shownAt n w.surface) = true
  · obtain ⟨hn, hmet⟩ := Nat.find_spec hany
    have hbefore : ∀ m < Nat.find hany, isMet (Surface.shownAt m w.surface) = false := by
      intro m hm
      have hnot := Nat.find_min hany hm
      rw [not_and, Bool.not_eq_true] at hnot
      exact hnot (Nat.le_trans (Nat.le_of_lt hm) hn)
    rw [waitFrom_met hpos hsleeps hn hbefore hmet,
      waitFrom_met hpos (Nat.le_refl _) hn hbefore hmet]
  · have hnone : ∀ n ≤ time ⌈/⌉ interval, isMet (Surface.shownAt n w.surface) = false := by
      intro n hn
      rw [← Bool.not_eq_true]
      exact fun hmet => hany ⟨n, hn, hmet⟩
    rw [waitFrom_unmet hpos hsleeps hnone, waitFrom_unmet hpos (Nat.le_refl _) hnone]

/-- **How long a wait takes.** It comes to the look with a number if none before was met, and no
later than the deadline; it ends with the first look that is met; and if none is, it ends with
the look at the deadline, however often it may sleep. Whatever the answers are (`Cues.isCued`),
there are no others. A configuration that can be used has an interval. -/
theorem waitFor_answers (isMet : List Element → Bool) (time : Nat) {interval : Nat}
    (hpos : 0 < interval) (w : World σ) {answers : Nat → Bool}
    (hanswers : ∀ n, isMet (Surface.shownAt n w.surface) = answers n) :
    (∀ sleeps, time ⌈/⌉ interval ≤ sleeps →
      w.waitFor isMet time interval = waitFrom isMet interval sleeps time 0 w) ∧
    (∀ n ≤ time ⌈/⌉ interval, (∀ m < n, answers m = false) →
      w.waitFor isMet time interval =
        waitFrom isMet interval (time ⌈/⌉ interval - n) (time - n * interval) n
          { w with
            surface := Surface.afterLooks n w.surface
            clock := w.clock + min (n * interval) time }) ∧
    (∀ n ≤ time ⌈/⌉ interval, (∀ m < n, answers m = false) → answers n = true →
      w.waitFor isMet time interval =
        ⟨true, n + 1, { w with
          surface := Surface.afterLooks (n + 1) w.surface
          clock := w.clock + min (n * interval) time }⟩) ∧
    ((∀ n ≤ time ⌈/⌉ interval, answers n = false) →
      w.waitFor isMet time interval =
        ⟨false, time ⌈/⌉ interval + 1, { w with
          surface := Surface.afterLooks (time ⌈/⌉ interval + 1) w.surface
          clock := w.clock + time }⟩) ∧
    ∀ config : Config, config.complaints.isEmpty = true → 0 < config.waits.pollInterval := by
  have hwait : w.waitFor isMet time interval =
      waitFrom isMet interval (time ⌈/⌉ interval) time 0 w :=
    (waitFrom_eq_waitFor hpos (Nat.le_refl _)).symm
  have hbound := Nat.le_refl (time ⌈/⌉ interval)
  obtain rfl : answers = fun n => isMet (Surface.shownAt n w.surface) :=
    funext fun n => (hanswers n).symm
  refine ⟨fun sleeps hsleeps => (waitFrom_eq_waitFor hpos hsleeps).symm, ?_, ?_, ?_, ?_⟩
  · intro n hn hbefore
    rw [hwait]
    exact waitFrom_after hpos hbound hn hbefore
  · intro n hn hbefore hmet
    rw [hwait]
    exact waitFrom_met hpos hbound hn hbefore hmet
  · intro hnone
    have hdeadline : min ((time ⌈/⌉ interval) * interval) time = time :=
      Nat.min_eq_right (le_ceilDiv_mul time hpos)
    rw [hwait, waitFrom_unmet hpos hbound hnone, atLook, hdeadline]
  · intro config hconfig
    by_contra hzero
    have hinterval : config.waits.pollInterval = 0 := Nat.eq_zero_of_not_pos hzero
    simp [Complaints.isEmpty, Config.complaints, hinterval] at hconfig

end World
end

/-! ### Surfaces with any answers -/

/-- A surface that shows an element at the looks that it has a cue for. -/
structure Cues where
  cue : Nat → Bool
  settles : Nat

namespace Cues

instance : Surface Cues where
  snapshot c := (if c.cue (c.settles - 1) then [Element.blank] else [], c)
  tap _ c := (.ok (), c)
  enterText _ _ c := (.ok (), c)
  settle c := { c with settles := c.settles + 1 }

theorem afterLooks_eq (cue : Nat → Bool) (n : Nat) :
    Surface.afterLooks n (⟨cue, 0⟩ : Cues) = ⟨cue, n⟩ := by
  induction n with
  | zero => rfl
  | succ n ih => rw [Surface.afterLooks_succ, ih]; rfl

/-- Any answers are those of a surface. -/
theorem isCued (cue : Nat → Bool) (n : Nat) :
    (Surface.shownAt n (⟨cue, 0⟩ : Cues)).isEmpty.not = cue n := by
  rw [Surface.shownAt, afterLooks_eq]
  cases h : cue n <;> simp [Surface.snapshot, Surface.settle, h]

end Cues

/-- A wait of ten milliseconds with a look every four, of a surface with cues. -/
def Cues.wait (cue : Nat → Bool) : Waited Cues :=
  (World.start ⟨cue, 0⟩).waitFor (!·.isEmpty) 10 4

/-- What shows with the fourth look is seen at the deadline, and what does not is not waited for
any longer. -/
theorem World.waitFor_answers_wait :
    Cues.wait (· == 3) = ⟨true, 4, ⟨⟨(· == 3), 4⟩, .empty, 10⟩⟩ ∧
      Cues.wait (fun _ => false) = ⟨false, 4, ⟨⟨fun _ => false, 4⟩, .empty, 10⟩⟩ := by
  have hpos : 0 < 4 := by decide
  have hwait (cue : Nat → Bool) :=
    waitFor_answers (!·.isEmpty) 10 hpos (.start (⟨cue, 0⟩ : Cues)) (Cues.isCued cue)
  constructor
  · have hmet := (hwait (· == 3)).2.2.1 3 (by decide) (by decide) (by decide)
    exact hmet
  · have hnone := (hwait fun _ => false).2.2.2.1 fun _ _ => rfl
    exact hnone

end UiSuite
