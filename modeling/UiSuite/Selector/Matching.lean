import UiSuite.Selector.Query
import UiSuite.Element.Basic

/-! Matching: the elements a query asks for, in document order.

The index of a query does not take part: it picks among the matches. A reference to an
alias matches nothing before it is resolved, and an unknown type never matches. -/
namespace UiSuite

/-- Whether an element is one that a strategy asks for. -/
def Strategy.accepts (s : Strategy) (e : Element) : Bool :=
  match s with
  | .exact text => e.ownText == some text
  | .part text => e.ownText.any (Text.contains · text)
  | .key k => e.key == some k
  | .label l => e.label == some l
  | .kind k => e.kind == k
  | .unknownKind _ | .reference _ => false

namespace Query

/-- The elements of a forest that a query asks for, in document order. -/
def matching (q : Query) (roots : List Element) : List Element :=
  (Element.walk roots).filter q.strategy.accepts

/-- The place among the matches that counts. -/
def place (q : Query) : Nat :=
  q.index.getD 0

/-- A query that takes another match than the first has an index. -/
theorem index_of_place_pos {q : Query} (h : 0 < q.place) : q.index = some q.place := by
  unfold place at h ⊢
  cases hindex : q.index with
  | none =>
    rw [hindex] at h
    cases h
  | some n => rfl

@[simp] theorem matching_append (q : Query) (a b : List Element) :
    q.matching (a ++ b) = q.matching a ++ q.matching b := by
  simp [matching]

end Query
end UiSuite
