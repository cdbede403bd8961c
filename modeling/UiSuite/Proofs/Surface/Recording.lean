import UiSuite.Proofs.Execution.Performing
import UiSuite.Surface.Stage

/-! What a stage records.

A tap or an entered text that succeeds is recorded once, one that fails leaves the stage as
it is, and nothing else is recorded. -/
namespace UiSuite.Stage

variable {s t : Stage} {id : Nat} {text : String}

theorem push_interactions (s : Stage) (e : Element) :
    (s.push e).interactions = s.interactions := rfl

theorem foldl_push_interactions (es : List Element) (s : Stage) :
    (es.foldl push s).interactions = s.interactions := by
  induction es generalizing s with
  | nil => rfl
  | cons e es ih => rw [List.foldl_cons, ih, push_interactions]

theorem settle_interactions (s : Stage) : s.settle.interactions = s.interactions := by
  rw [settle, foldl_push_interactions]

/-- A stage that idles records nothing. -/
theorem interactions_of_idles (h : Idles s t) : t.interactions = s.interactions :=
  h.keeps (f := interactions) settle_interactions fun _ => rfl

theorem tap_ok {u : Unit} (h : s.tap id = (.ok u, t)) : t = s.record (.tap id) := by
  rw [tap] at h
  split at h <;> cases h
  rfl

theorem tap_error {e : SurfaceError} (h : s.tap id = (.error e, t)) : t = s := by
  rw [tap] at h
  split at h <;> cases h
  rfl

theorem enterText_ok {u : Unit} (h : s.enterText id text = (.ok u, t)) :
    ∃ roots, Element.enter? id text s.roots = some roots ∧
      t = ({ s with roots := roots } : Stage).record (.enterText id text) := by
  rw [enterText] at h
  split at h
  · rename_i e roots hfind henter
    split at h <;> cases h
    exact ⟨roots, henter, rfl⟩
  · cases h

theorem enterText_error {e : SurfaceError} (h : s.enterText id text = (.error e, t)) : t = s := by
  rw [enterText] at h
  split at h
  · split at h <;> cases h
    rfl
  · cases h
    rfl

end UiSuite.Stage
