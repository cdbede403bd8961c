import UiSuite.Surface.Stage

/-! What can happen to a stage.

A stage is scheduled elements for, settles, and is tapped and written on, in any order
(`play`). Elements come on stage as it settles; what has come and what is still to come are
what was scheduled, each element once (`arrivals_perm`). -/
namespace UiSuite

/-- One thing that happens to a stage. -/
inductive Move where
  | schedule (after : Nat) (e : Element)
  | settle
  | tap (id : Nat)
  | enterText (id : Nat) (text : String)

namespace Stage

/-- The stage after a move. -/
def move (s : Stage) : Move → Stage
  | .schedule after e => s.schedule after e
  | .settle => s.settle
  | .tap id => (s.tap id).2
  | .enterText id text => (s.enterText id text).2

/-- The stage after moves. -/
def play (s : Stage) (ms : List Move) : Stage :=
  ms.foldl move s

/-- The elements a move brings on stage. -/
def arriving (s : Stage) : Move → List Element
  | .settle => (s.pending.filter (·.1 ≤ s.settles + 1)).map (·.2)
  | .schedule .. | .tap _ | .enterText .. => []

/-- The elements moves bring on stage, in order. -/
def arrivals (s : Stage) : List Move → List Element
  | [] => []
  | m :: ms => s.arriving m ++ (s.move m).arrivals ms

/-- The elements moves schedule, in order. -/
def scheduled (ms : List Move) : List Element :=
  ms.filterMap fun
    | .schedule _ e => some e
    | .settle | .tap _ | .enterText .. => none

/-- The elements still to come. -/
def waiting (s : Stage) : List Element :=
  s.pending.map (·.2)

theorem foldl_push_pending (es : List Element) (s : Stage) :
    (es.foldl push s).pending = s.pending := by
  induction es generalizing s with
  | nil => rfl
  | cons e es ih => exact ih _

theorem tap_pending (s : Stage) (id : Nat) : (s.tap id).2.pending = s.pending := by
  rw [tap]
  split <;> rfl

theorem enterText_pending (s : Stage) (id : Nat) (text : String) :
    (s.enterText id text).2.pending = s.pending := by
  rw [enterText]
  split
  · split <;> rfl
  · rfl

/-- A move loses no element that is still to come, and adds what it schedules. -/
theorem arriving_perm (s : Stage) (m : Move) :
    (s.arriving m ++ (s.move m).waiting).Perm (s.waiting ++ scheduled [m]) := by
  cases m with
  | schedule after e =>
    have hwaiting : (s.schedule after e).waiting = s.waiting ++ [e] := List.map_append
    rw [move, hwaiting]
    exact List.Perm.refl _
  | tap id =>
    rw [move, waiting, tap_pending, ← waiting]
    exact List.perm_append_comm
  | enterText id text =>
    rw [move, waiting, enterText_pending, ← waiting]
    exact List.perm_append_comm
  | settle =>
    have hsplit : ∀ d : Nat × Element,
        decide (s.settles + 1 < d.1) = !decide (d.1 ≤ s.settles + 1) :=
      fun d => (decide_eq_decide.2 Nat.not_le.symm).trans decide_not
    have hperm := (List.filter_append_perm (fun d => decide (d.1 ≤ s.settles + 1)) s.pending).map
      (·.2)
    rw [List.map_append] at hperm
    have hnone : scheduled [.settle] = [] := rfl
    rw [hnone, List.append_nil]
    simp only [move, settle, waiting, foldl_push_pending, arriving, hsplit]
    exact hperm

/-- **What comes on stage and what is still to come were scheduled, each once.** -/
theorem arrivals_perm (s : Stage) (ms : List Move) :
    (s.arrivals ms ++ (s.play ms).waiting).Perm (s.waiting ++ scheduled ms) := by
  induction ms generalizing s with
  | nil => exact List.perm_append_comm
  | cons m ms ih =>
    have hfirst := s.arriving_perm m
    have hrest := ih (s.move m)
    have hcons : scheduled (m :: ms) = scheduled [m] ++ scheduled ms :=
      List.filterMap_append (l := [m])
    rw [hcons]
    calc s.arriving m ++ (s.move m).arrivals ms ++ ((s.move m).play ms).waiting
      _ = s.arriving m ++ ((s.move m).arrivals ms ++ ((s.move m).play ms).waiting) :=
        List.append_assoc _ _ _
      List.Perm _ (s.arriving m ++ ((s.move m).waiting ++ scheduled ms)) := hrest.append_left _
      _ = s.arriving m ++ (s.move m).waiting ++ scheduled ms := (List.append_assoc _ _ _).symm
      List.Perm _ (s.waiting ++ scheduled [m] ++ scheduled ms) := hfirst.append_right _
      _ = s.waiting ++ (scheduled [m] ++ scheduled ms) := List.append_assoc _ _ _

end Stage
end UiSuite
