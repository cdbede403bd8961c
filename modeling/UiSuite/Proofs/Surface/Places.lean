import Mathlib.Data.List.Pairwise
import UiSuite.Element.Basic
import UiSuite.Proofs.Lists

/-! Places in a forest.

A place is the number of a root, then that of a child of it, and so on. Places are ordered like
words, so that an element comes before those below it, and they before what comes after it: this
is document order. `walk` lists the elements at all places, in that order and each place once
(`map_snd_placed`, `pairwise_placed`, `mem_placed`). So the elements that pass a test, and the first
of them, are told by their places alone (`enumerates_filter`, `first_of_find?`). An element can be
replaced at its place (`putAt`); where only its text is another one, nothing else in the forest is
(`written_putAt`). -/
namespace UiSuite.Element

/-- The number of a root, then of a child of it, and so on. -/
abbrev Place := List Nat

/-- The element at a place below another, which stands at the empty one itself. -/
def below? : Place → Element → Option Element
  | [], e => some e
  | n :: p, e => e.children[n]?.bind (below? p)

/-- The element at a place of a forest. -/
def standing? : Place → List Element → Option Element
  | [], _ => none
  | n :: p, es => es[n]?.bind (below? p)

mutual
/-- An element and what stands below it in document order, each with its place. -/
def placedBelow : Element → List (Place × Element)
  | e@⟨_, _, _, _, _, _, children⟩ => ([], e) :: placed children

/-- The elements of a forest in document order, each with its place. -/
def placed : List Element → List (Place × Element)
  | [] => []
  | e :: es =>
    (placedBelow e).map (fun a => (0 :: a.1, a.2)) ++
      (placed es).map (fun a => (a.1.modifyHead (· + 1), a.2))
end

variable {e x y : Element} {es : List Element} {p q : Place}

theorem standing?_modifyHead (p : Place) (e : Element) (es : List Element) :
    standing? (p.modifyHead (· + 1)) (e :: es) = standing? p es := by
  cases p <;> rfl

theorem walk_eq_flatMap (es : List Element) : walk es = es.flatMap subtree := by
  induction es with
  | nil => rfl
  | cons e es ih => rw [walk, List.flatMap_cons, ih]

/-! ### All places -/

mutual
theorem map_snd_placedBelow : (e : Element) → (placedBelow e).map (·.2) = subtree e
  | ⟨_, _, _, _, _, _, children⟩ => congrArg (_ :: ·) (map_snd_placed children)

/-- Without their places, the elements are those listed. -/
theorem map_snd_placed : (es : List Element) → (placed es).map (·.2) = walk es
  | [] => rfl
  | e :: es => by
    have hfirst := map_snd_placedBelow e
    have hrest := map_snd_placed es
    simp only [placed, walk, List.map_append, List.map_map, ← hfirst, ← hrest]
    rfl
end

mutual
theorem mem_placedBelow : {p : Place} → {x : Element} → (e : Element) →
    ((p, x) ∈ placedBelow e ↔ below? p e = some x)
  | p, x, ⟨_, _, _, _, _, _, children⟩ => by
    rw [placedBelow, List.mem_cons, mem_placed children]
    cases p with
    | nil => simp [below?, standing?, eq_comm]
    | cons n p => simp [below?, standing?]

/-- The elements listed are those that stand somewhere, each at its place. -/
theorem mem_placed : {p : Place} → {x : Element} → (es : List Element) →
    ((p, x) ∈ placed es ↔ standing? p es = some x)
  | p, x, [] => by cases p <;> simp [placed, standing?]
  | p, x, e :: es => by
    rw [placed, List.mem_append, List.mem_map, List.mem_map]
    constructor
    · rintro (⟨⟨q, y⟩, hmem, heq⟩ | ⟨⟨q, y⟩, hmem, heq⟩) <;> cases heq
      · exact (mem_placedBelow e).1 hmem
      · rw [standing?_modifyHead]
        exact (mem_placed es).1 hmem
    · intro h
      cases p with
      | nil => cases h
      | cons n p =>
        cases n with
        | zero => exact .inl ⟨(p, x), (mem_placedBelow e).2 h, rfl⟩
        | succ n => exact .inr ⟨(n :: p, x), (mem_placed es).2 h, rfl⟩
end

/-- Counting one root more leaves the order as it is. -/
theorem modifyHead_lt (h : p < q) : p.modifyHead (· + 1) < q.modifyHead (· + 1) := by
  cases h with
  | nil => exact .nil
  | rel hlt => exact .rel (Nat.succ_lt_succ hlt)
  | cons hrest => exact .cons hrest

mutual
theorem pairwise_placedBelow : (e : Element) → (placedBelow e).Pairwise (·.1 < ·.1)
  | ⟨_, _, _, _, _, _, children⟩ => by
    refine List.pairwise_cons.2 ⟨fun ⟨p, x⟩ hmem => ?_, pairwise_placed children⟩
    cases p with
    | nil => cases (mem_placed children).1 hmem
    | cons n p => exact .nil

/-- The places listed ascend. -/
theorem pairwise_placed : (es : List Element) → (placed es).Pairwise (·.1 < ·.1)
  | [] => .nil
  | e :: es => by
    refine List.pairwise_append.2 ⟨?_, ?_, ?_⟩
    · exact List.pairwise_map.2 ((pairwise_placedBelow e).imp fun h => .cons h)
    · exact List.pairwise_map.2 ((pairwise_placed es).imp modifyHead_lt)
    · simp only [List.mem_map]
      rintro _ ⟨⟨p, x⟩, -, rfl⟩ _ ⟨⟨q, y⟩, hmem, rfl⟩
      cases q with
      | nil => cases (mem_placed es).1 hmem
      | cons n q => exact .rel (Nat.succ_pos n)
end

/-! ### The places that pass a test -/

/-- Whether a list holds the elements of a forest with a property, each place once and in document
order. -/
def Enumerates (P : Element → Prop) (es found : List Element) : Prop :=
  ∃ places : List Place, places.Pairwise (· < ·) ∧
    (∀ p, p ∈ places ↔ ∃ x, standing? p es = some x ∧ P x) ∧
    places.map (standing? · es) = found.map some

/-- The elements listed that pass a test are those that do, in document order. -/
theorem enumerates_filter (test : Element → Bool) (es : List Element) :
    Enumerates (test · = true) es ((walk es).filter test) := by
  refine ⟨((placed es).filter (test ·.2)).map (·.1), ?_, fun p => ?_, ?_⟩
  · exact List.pairwise_map.2 ((pairwise_placed es).filter _)
  · simp only [List.mem_map, List.mem_filter]
    constructor
    · rintro ⟨⟨p, x⟩, ⟨hmem, htest⟩, rfl⟩
      exact ⟨x, (mem_placed es).1 hmem, htest⟩
    · rintro ⟨x, hstands, htest⟩
      exact ⟨(p, x), ⟨(mem_placed es).2 hstands, htest⟩, rfl⟩
  · rw [← map_snd_placed, List.filter_map, List.map_map, List.map_map]
    refine List.map_congr_left fun ⟨p, x⟩ hmem => ?_
    exact (mem_placed es).1 (List.mem_filter.1 hmem).1

/-- The place of the first element with a property in document order. -/
structure First (P : Element → Prop) (es : List Element) (p : Place) (x : Element) : Prop where
  stands : standing? p es = some x
  holds : P x
  first : ∀ q y, q ≠ p → standing? q es = some y → P y → p < q

/-- What is found in an ascending list comes before all else that passes the test. -/
theorem lt_of_find? {α : Type} {test : Place × α → Bool} {l : List (Place × α)}
    (hascends : l.Pairwise (·.1 < ·.1)) {a b : Place × α} (h : l.find? test = some a)
    (hmem : b ∈ l) (htest : test b = true) (hne : b.1 ≠ a.1) : a.1 < b.1 := by
  obtain ⟨-, before, after, rfl, hbefore⟩ := List.find?_eq_some_iff_append.1 h
  rcases List.mem_append.1 hmem with hmem | hmem
  · have hfails := hbefore b hmem
    rw [htest] at hfails
    cases hfails
  · rcases List.mem_cons.1 hmem with rfl | hmem
    · exact absurd rfl hne
    · exact (List.pairwise_cons.1 (List.pairwise_append.1 hascends).2.1).1 b hmem

/-- The element found is the first with the property. -/
theorem first_of_find? (P : Element → Prop) [DecidablePred P]
    (h : (placed es).find? (P ·.2) = some (p, x)) : First P es p x where
  stands := (mem_placed es).1 (List.mem_of_find?_eq_some h)
  holds := by simpa using List.find?_some h
  first _ _ hne hstands hholds :=
    lt_of_find? (pairwise_placed es) h ((mem_placed es).2 hstands) (decide_eq_true hholds) hne

/-- Where none is found, no element has the property. -/
theorem not_of_find? (P : Element → Prop) [DecidablePred P]
    (h : (placed es).find? (P ·.2) = none) (hstands : standing? p es = some x) : ¬ P x := by
  simpa using List.find?_eq_none.1 h (p, x) ((mem_placed es).2 hstands)

/-- There is one first element with the property, at one place. -/
theorem First.unique {P : Element → Prop} (h : First P es p x) (h' : First P es q y) :
    p = q ∧ x = y := by
  have hplace : p = q := by
    by_contra hne
    exact List.lt_asymm (h.first q y (Ne.symm hne) h'.stands h'.holds)
      (h'.first p x hne h.stands h.holds)
  subst hplace
  exact ⟨rfl, Option.some.inj (h.stands.symm.trans h'.stands)⟩

/-- The first element with the property is found. -/
theorem find?_of_first (P : Element → Prop) [DecidablePred P] (h : First P es p x) :
    (placed es).find? (P ·.2) = some (p, x) := by
  cases hfound : (placed es).find? (P ·.2) with
  | none => exact absurd h.holds (not_of_find? P hfound h.stands)
  | some a =>
    obtain ⟨hplace, helement⟩ := (first_of_find? P hfound).unique h
    rw [← hplace, ← helement]

/-! ### Replacing an element -/

/-- An element with another one at a place below it. -/
def putBelow : Place → Element → Element → Element
  | [], x, _ => x
  | n :: p, x, e => { e with children := e.children.modify n (putBelow p x) }

/-- A forest with another element at a place. -/
def putAt : Place → Element → List Element → List Element
  | [], _, es => es
  | n :: p, x, es => es.modify n (putBelow p x)

theorem putAt_modifyHead (p : Place) (x e : Element) (es : List Element) :
    putAt (p.modifyHead (· + 1)) x (e :: es) = e :: putAt p x es := by
  cases p <;> rfl

section Reading
variable {β : Type} {f : Element → β}
  (hf : ∀ (e : Element) (es : List Element), es.map f = e.children.map f →
    f { e with children := es } = f e)
include hf

/-- Where what is read off an element is told by itself and what is read off its children, it is the
same with another element below that reads the same. -/
theorem eq_putBelow (h : below? p e = some x) (hsame : f y = f x) :
    f (putBelow p y e) = f e := by
  induction p generalizing e with
  | nil =>
    cases h
    exact hsame
  | cons n p ih =>
    obtain ⟨c, hc, hbelow⟩ := Option.bind_eq_some_iff.1 h
    exact hf e _ (map_modify_of_getElem? hc (ih hbelow))

theorem map_putAt (h : standing? p es = some x) (hsame : f y = f x) :
    (putAt p y es).map f = es.map f := by
  cases p with
  | nil => rfl
  | cons n p =>
    obtain ⟨c, hc, hbelow⟩ := Option.bind_eq_some_iff.1 h
    exact map_modify_of_getElem? hc (eq_putBelow hf hbelow hsame)

end Reading

/-- An element without what stands below it. -/
def alone (e : Element) : Element :=
  { e with children := [] }

/-- Whether a forest is another one with a text written at a place: the element there has the text
and is the same but for it, and so are all others, each at its place. -/
structure Written (p : Place) (text : String) (before after : List Element) : Prop where
  there : standing? p after = (standing? p before).map ({ · with text := some text })
  elsewhere : ∀ q, q ≠ p → (standing? q after).map alone = (standing? q before).map alone

theorem below?_putBelow (h : below? p e = some x) : below? p (putBelow p y e) = some y := by
  induction p generalizing e with
  | nil => rfl
  | cons n p ih =>
    obtain ⟨c, hc, hbelow⟩ := Option.bind_eq_some_iff.1 h
    simp [below?, putBelow, hc, ih hbelow]

/-- Nothing but the element itself is another one, if it keeps its children. -/
theorem below?_putBelow_of_ne (h : below? p e = some x) (hchildren : y.children = x.children)
    (hne : q ≠ p) : (below? q (putBelow p y e)).map alone = (below? q e).map alone := by
  induction p generalizing e q with
  | nil =>
    cases h
    cases q with
    | nil => exact absurd rfl hne
    | cons m q => simp only [putBelow, below?, hchildren]
  | cons n p ih =>
    obtain ⟨c, hc, hbelow⟩ := Option.bind_eq_some_iff.1 h
    cases q with
    | nil => rfl
    | cons m q =>
      by_cases hm : n = m
      · subst hm
        have hq : q ≠ p := fun heq => hne (heq ▸ rfl)
        simpa [below?, putBelow, hc] using ih hbelow hq
      · simp [below?, putBelow, hm]

/-- **A text is written at the place of an element, and nowhere else.** -/
theorem written_putAt (h : standing? p es = some x) (text : String) :
    Written p text es (putAt p { x with text := some text } es) := by
  cases p with
  | nil => cases h
  | cons n p =>
    -- A forest is what stands below any element that has it for its children.
    have hbelow : below? (n :: p) { blank with children := es } = some x := h
    have hchildren : ({ x with text := some text } : Element).children = x.children := rfl
    constructor
    · rw [h]
      exact below?_putBelow hbelow
    · intro q hq
      cases q with
      | nil => rfl
      | cons m q => exact below?_putBelow_of_ne hbelow hchildren hq

/-- No id is another one, so the first element with an id is still the first. -/
theorem Written.first {text : String} {after : List Element} {id : Nat}
    (hwritten : Written p text es after) (h : First (·.id = id) es p x) :
    First (·.id = id) after p { x with text := some text } where
  stands := by
    rw [hwritten.there, h.stands]
    rfl
  holds := h.holds
  first q y hne hstands hid := by
    have hsame := hwritten.elsewhere q hne
    rw [hstands] at hsame
    obtain ⟨z, hz, halone⟩ := Option.map_eq_some_iff.1 hsame.symm
    have hzid : z.alone.id = y.alone.id := congrArg Element.id halone
    exact h.first q z hne hz (hzid.trans hid)

end UiSuite.Element
