import UiSuite.Surface.Basic

/-! Stages: surfaces held in memory.

A stage shows a forest and records what is done to it. Elements may be scheduled to
appear after a number of settles, at the end of the forest and in the order in which
they fall due. Elements without an id get the next free one when they appear, so an
element on stage keeps its id. -/
namespace UiSuite

/-- What was done to a surface. -/
inductive Interaction where
  | tap (id : Nat)
  | enterText (id : Nat) (text : String)
deriving DecidableEq

/-- A forest in memory: the elements shown, those still to come with the settle they come
at, how often it has settled, the greatest id so far, and what was done to it. -/
structure Stage where
  roots : List Element
  pending : List (Nat × Element)
  settles : Nat
  lastId : Nat
  interactions : List Interaction

namespace Stage

def empty : Stage :=
  ⟨[], [], 0, 0, []⟩

/-- Puts an element at the end of the forest. -/
def push (s : Stage) (e : Element) : Stage :=
  let (e, lastId) := Element.number s.lastId e
  { s with roots := s.roots ++ [e], lastId := lastId }

/-- A stage that shows a forest from the beginning. -/
def ofForest (roots : List Element) : Stage :=
  roots.foldl push empty

/-- Lets an element appear after so many settles, with the next one at the earliest. -/
def schedule (s : Stage) (after : Nat) (e : Element) : Stage :=
  { s with pending := s.pending ++ [(s.settles + after, e)] }

def record (s : Stage) (i : Interaction) : Stage :=
  { s with interactions := s.interactions ++ [i] }

def tap (id : Nat) (s : Stage) : Except SurfaceError Unit × Stage :=
  match Element.find? id s.roots with
  | none => (.error (.staleElement id), s)
  | some _ => (.ok (), s.record (.tap id))

def enterText (id : Nat) (text : String) (s : Stage) : Except SurfaceError Unit × Stage :=
  match Element.find? id s.roots, Element.enter? id text s.roots with
  | some e, some roots =>
    if e.kind.acceptsText then
      (.ok (), { s with roots := roots }.record (.enterText id text))
    else (.error (.notEditable id), s)
  | _, _ => (.error (.staleElement id), s)

def settle (s : Stage) : Stage :=
  let now := s.settles + 1
  let due := s.pending.filter (·.1 ≤ now)
  let waiting := s.pending.filter (now < ·.1)
  (due.map (·.2)).foldl push { s with pending := waiting, settles := now }

instance : Surface Stage where
  snapshot s := (s.roots, s)
  tap := tap
  enterText := enterText
  settle := settle

end Stage
end UiSuite
