import UiSuite.Surface.Basic
import UiSuite.Selector.AliasTable

/-! The world of a run: a surface, the aliases registered so far, and a clock in
milliseconds that moves only when a run sleeps. -/
namespace UiSuite

structure World (σ : Type) where
  surface : σ
  aliases : AliasTable
  clock : Nat

namespace World
variable {σ : Type}

def start (surface : σ) : World σ :=
  ⟨surface, .empty, 0⟩

def sleep (millis : Nat) (w : World σ) : World σ :=
  { w with clock := w.clock + millis }

/-- Forgets all aliases. -/
def reset (w : World σ) : World σ :=
  { w with aliases := .empty }

variable [Surface σ]

def settle (w : World σ) : World σ :=
  { w with surface := Surface.settle w.surface }

/-- Looks at the surface. -/
def look (w : World σ) : List Element × World σ :=
  let (roots, surface) := Surface.snapshot w.surface
  (roots, { w with surface := surface })

/-- Acts on the surface. -/
def act (action : σ → Except SurfaceError Unit × σ) (w : World σ) :
    Except SurfaceError Unit × World σ :=
  let (r, surface) := action w.surface
  (r, { w with surface := surface })

end World
end UiSuite
