import UiSuite.Surface.Basic

/-! Faulty surfaces: a surface whose actions can be made to fail.

Taps and text entry fail with a given text before they reach the surface, and from
some look on the surface shows nothing. -/
namespace UiSuite

/-- A surface with faults; `looks` is how many more snapshots show anything, if they are
limited. -/
structure Faulty (σ : Type) where
  base : σ
  tapFault : Option String
  enterFault : Option String
  looks : Option Nat

namespace Faulty

/-- Lets an action through unless it is made to fail. -/
def guarded (fault : Option String) (act : σ → Except SurfaceError Unit × σ) (s : Faulty σ) :
    Except SurfaceError Unit × Faulty σ :=
  match fault with
  | some text => (.error (.other text), s)
  | none => let (r, base) := act s.base; (r, { s with base := base })

def snapshot [Surface σ] (s : Faulty σ) : List Element × Faulty σ :=
  match s.looks with
  | some 0 => ([], s)
  | some (n + 1) =>
    let (roots, base) := Surface.snapshot s.base
    (roots, { s with base := base, looks := some n })
  | none => let (roots, base) := Surface.snapshot s.base; (roots, { s with base := base })

instance [Surface σ] : Surface (Faulty σ) where
  snapshot := snapshot
  tap id s := guarded s.tapFault (Surface.tap id) s
  enterText id text s := guarded s.enterFault (Surface.enterText id text) s
  settle s := { s with base := Surface.settle s.base }

end Faulty
end UiSuite
