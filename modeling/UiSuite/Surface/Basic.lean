import UiSuite.Element.Basic

/-! Surfaces: user interfaces that can be looked at and acted on.

A surface shows a forest of elements, takes taps and text by element id, and settles:
it does the work that is pending. Everything is a function of the surface's state, a
failing action included. -/
namespace UiSuite

/-- Why an action on a surface fails. -/
inductive SurfaceError where
  | staleElement (id : Nat)
  | notEditable (id : Nat)
  | other (text : String)
deriving DecidableEq

def SurfaceError.message : SurfaceError → String
  | staleElement id => "element #" ++ toString id ++ " is no longer present"
  | notEditable id => "element #" ++ toString id ++ " does not accept text input"
  | other text => "surface error: " ++ text

/-- What a user interface can be asked to do. -/
class Surface (σ : Type) where
  /-- The elements shown now. -/
  snapshot : σ → List Element × σ
  /-- Taps the element with an id. -/
  tap : Nat → σ → Except SurfaceError Unit × σ
  /-- Enters a text into the element with an id. -/
  enterText : Nat → String → σ → Except SurfaceError Unit × σ
  /-- Does the work that is pending. -/
  settle : σ → σ

end UiSuite
