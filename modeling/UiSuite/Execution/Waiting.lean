import UiSuite.Execution.World

/-! Waiting for something to show.

The surface settles before every look. Between looks passes the interval, or what is
left of the time: the last look is at the deadline itself. -/
namespace UiSuite

/-- How a wait ends: whether what was waited for showed, after how many looks, and the
world then. -/
structure Waited (σ : Type) where
  isMet : Bool
  looks : Nat
  world : World σ

namespace World
variable {σ : Type} [Surface σ]

/-- How many sleeps a time holds. Without an interval no time passes, and the bound is on
the looks. -/
def sleepsIn (time interval : Nat) : Nat :=
  if interval = 0 then UInt32.size else (time + interval - 1) / interval

/-- Looks with so much time left, and sleeps at most so often. -/
def waitFrom (isMet : List Element → Bool) (interval : Nat) :
    Nat → Nat → Nat → World σ → Waited σ
  | sleeps, left, looks, w =>
    let (roots, w) := w.settle.look
    if isMet roots then ⟨true, looks + 1, w⟩
    else if left = 0 then ⟨false, looks + 1, w⟩
    else match sleeps with
      | 0 => ⟨false, looks + 1, w⟩
      | n + 1 =>
        let pause := min interval left
        waitFrom isMet interval n (left - pause) (looks + 1) (w.sleep pause)

/-- Waits until the surface shows what is wanted, or the time is over. -/
def waitFor (isMet : List Element → Bool) (time interval : Nat) (w : World σ) : Waited σ :=
  waitFrom isMet interval (sleepsIn time interval) time 0 w

end World
end UiSuite
