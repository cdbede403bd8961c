import UiSuite.Element.Kind

/-! Elements: what a user interface shows.

An element carries an id, a kind, texts and children. `walk` lists a forest in
document order, every element before its children; searching by id and matching are
stated on that list. -/
namespace UiSuite

/-- A node of an element tree. The id 0 stands for an id not given yet. -/
structure Element where
  id : Nat
  kind : Element.Kind
  key : Option String
  label : Option String
  text : Option String
  richText : List String
  children : List Element

namespace Element

/-- An element without any property. -/
def blank : Element :=
  ⟨0, .other, none, none, none, [], []⟩

/-- The spans of rich text in one piece. -/
def flatText (e : Element) : String :=
  String.ofList (e.richText.flatMap String.toList)

/-- The text an element shows itself: its text, else its rich text; empty texts do not
count. -/
def ownText (e : Element) : Option String :=
  match e.text with
  | some t => if t = "" then flat else some t
  | none => flat
where
  flat : Option String := if e.flatText = "" then none else some e.flatText

/-! ### Document order -/

mutual
/-- An element and what stands below it. -/
def subtree : Element → List Element
  | e@⟨_, _, _, _, _, _, children⟩ => e :: walk children

/-- The elements of a forest in document order. -/
def walk : List Element → List Element
  | [] => []
  | e :: es => subtree e ++ walk es
end

@[simp] theorem walk_append (a b : List Element) : walk (a ++ b) = walk a ++ walk b := by
  induction a with
  | nil => rfl
  | cons e es ih => simp [walk, ih]

mutual
/-- The first text shown by an element or below it. -/
def shownText : Element → Option String
  | e@⟨_, _, _, _, _, _, children⟩ =>
    match e.ownText with
    | some t => some t
    | none => firstShown children

/-- The first text shown in a forest. -/
def firstShown : List Element → Option String
  | [] => none
  | e :: es =>
    match shownText e with
    | some t => some t
    | none => firstShown es
end

mutual
/-- The text shown is the first one in document order. -/
theorem shownText_eq : (e : Element) → shownText e = (subtree e).findSome? ownText
  | ⟨id, kind, key, label, text, richText, children⟩ => by
    rw [shownText, subtree, List.findSome?_cons, firstShown_eq children]
    cases ownText ⟨id, kind, key, label, text, richText, children⟩ <;> rfl

theorem firstShown_eq : (es : List Element) → firstShown es = (walk es).findSome? ownText
  | [] => rfl
  | e :: es => by
    rw [firstShown, walk, List.findSome?_append, shownText_eq e, firstShown_eq es]
    cases (subtree e).findSome? ownText <;> rfl
end

/-- The text an element shows itself comes before what is shown below it. -/
theorem shownText_of_ownText {e : Element} {text : String} (h : e.ownText = some text) :
    e.shownText = some text := by
  obtain ⟨id, kind, key, label, own, richText, children⟩ := e
  rw [shownText, h]

/-- An element does not show an empty text. -/
theorem ownText_ne_empty (e : Element) : e.ownText ≠ some "" := by
  have hflat : ownText.flat e ≠ some "" := by
    unfold ownText.flat
    split
    · nofun
    · rename_i hne
      exact fun h => hne (Option.some.inj h)
  unfold ownText
  split
  · split
    · exact hflat
    · rename_i hne
      exact fun h => hne (Option.some.inj h)
  · exact hflat

mutual
/-- The first element with an id, among an element and what stands below it. -/
def findBelow (id : Nat) : Element → Option Element
  | e@⟨own, _, _, _, _, _, children⟩ => if own = id then some e else find? id children

/-- The first element of a forest with an id. -/
def find? (id : Nat) : List Element → Option Element
  | [] => none
  | e :: es =>
    match findBelow id e with
    | some found => some found
    | none => find? id es
end

/-! ### Changing a text -/

mutual
/-- Puts a text into the first element with an id, if it stands here. -/
def enterBelow (id : Nat) (text : String) : Element → Option Element
  | ⟨own, kind, key, label, shown, richText, children⟩ =>
    if own = id then some ⟨own, kind, key, label, some text, richText, children⟩
    else (enter? id text children).map (⟨own, kind, key, label, shown, richText, ·⟩)

/-- Puts a text into the first element of a forest with an id. -/
def enter? (id : Nat) (text : String) : List Element → Option (List Element)
  | [] => none
  | e :: es =>
    match enterBelow id text e with
    | some e => some (e :: es)
    | none => (enter? id text es).map (e :: ·)
end

/-! ### Ids -/

mutual
/-- Gives every element of a tree without an id the next one, in document order; `last`
is the greatest id so far. -/
def number (last : Nat) : Element → Element × Nat
  | ⟨id, kind, key, label, text, richText, children⟩ =>
    let own := if id = 0 then last + 1 else id
    let (children, last) := numberAll (max last own) children
    (⟨own, kind, key, label, text, richText, children⟩, last)

/-- Gives every element of a forest without an id the next one. -/
def numberAll (last : Nat) : List Element → List Element × Nat
  | [] => ([], last)
  | e :: es =>
    let (e, last) := number last e
    let (es, last) := numberAll last es
    (e :: es, last)
end

end Element
end UiSuite
