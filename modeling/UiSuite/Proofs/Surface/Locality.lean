import UiSuite.Proofs.Surface.Numbering
import UiSuite.Proofs.Surface.Places
import UiSuite.Surface.Stage

/-! Acts on a stage are local.

An element is searched for by its id, once to look at it (`find?`) and once to write on it: the
second search hands out the element together with the way to put another one in its stead
(`locate?`). Ids may be shared, at any depth; both searches come to the first element with the id
in document order (`searches_agree`). So a text that is entered is the text of that element from
then on, if it takes one, and neither an entry nor a tap changes anything else on the stage
(`Stage.acts_on_first`). What else is said of entered texts rests on these searches, and not on how
they go. -/
namespace UiSuite

namespace Element

/-! ### Both searches -/

mutual
/-- The first element with an id, among an element and what stands below it, and what the whole is
with another one in its stead. -/
def locateBelow? (id : Nat) : Element → Option (Element × (Element → Element))
  | e@⟨own, kind, key, label, text, richText, children⟩ =>
    if own = id then some (e, fun x => x)
    else (locate? id children).map fun (found, put) =>
      (found, fun x => ⟨own, kind, key, label, text, richText, put x⟩)

/-- The first element of a forest with an id, and what the forest is with another one in its
stead. -/
def locate? (id : Nat) : List Element → Option (Element × (Element → List Element))
  | [] => none
  | e :: es =>
    match locateBelow? id e with
    | some (found, put) => some (found, fun x => put x :: es)
    | none => (locate? id es).map fun (found, put) => (found, fun x => e :: put x)
end

mutual
theorem enterBelow_eq (id : Nat) (text : String) : (e : Element) →
    enterBelow id text e =
      (locateBelow? id e).map fun (found, put) => put { found with text := some text }
  | ⟨own, kind, key, label, shown, richText, children⟩ => by
    rw [enterBelow, locateBelow?]
    split
    · rfl
    · rw [enter?_eq id text children, Option.map_map, Option.map_map]
      rfl

/-- A text is entered by writing on the element found and putting it back. -/
theorem enter?_eq (id : Nat) (text : String) : (es : List Element) →
    enter? id text es =
      (locate? id es).map fun (found, put) => put { found with text := some text }
  | [] => rfl
  | e :: es => by
    rw [enter?, locate?, enterBelow_eq id text e, enter?_eq id text es]
    cases locateBelow? id e with
    | none =>
      rw [Option.map_none, Option.map_map, Option.map_map]
      rfl
    | some found => rfl
end

/-- The search that looks, by the elements with their places. -/
theorem find?_eq_placed (id : Nat) (es : List Element) :
    find? id es = ((placed es).find? (·.2.id = id)).map (·.2) := by
  rw [find?_eq, ← map_snd_placed, List.find?_map]
  rfl

mutual
theorem locateBelow?_eq_placed (id : Nat) : (e : Element) →
    locateBelow? id e =
      ((placedBelow e).find? (·.2.id = id)).map fun (p, found) =>
        (found, fun x => putBelow p x e)
  | ⟨own, kind, key, label, text, richText, children⟩ => by
    rw [locateBelow?, placedBelow]
    by_cases hown : own = id
    · rw [if_pos hown, List.find?_cons_of_pos (by simpa using hown)]
      rfl
    · rw [if_neg hown, List.find?_cons_of_neg (by simpa using hown), locate?_eq_placed id children,
        Option.map_map]
      -- What is found below stands at a place that is not empty, so the element itself stays.
      refine Option.map_congr fun ⟨p, found⟩ hfound => ?_
      have hstands := (mem_placed children).1 (List.mem_of_find?_eq_some hfound)
      cases p with
      | nil => cases hstands
      | cons n p => rfl

/-- The search that writes, by the elements with their places. -/
theorem locate?_eq_placed (id : Nat) : (es : List Element) →
    locate? id es =
      ((placed es).find? (·.2.id = id)).map fun (p, found) => (found, fun x => putAt p x es)
  | [] => rfl
  | e :: es => by
    rw [locate?, placed, List.find?_append, List.find?_map, List.find?_map,
      locateBelow?_eq_placed id e, locate?_eq_placed id es]
    simp only [Function.comp_def]
    cases (placedBelow e).find? (·.2.id = id) with
    | some a => rfl
    | none =>
      cases (placed es).find? (·.2.id = id) with
      | none => rfl
      | some a => simp [putAt_modifyHead]
end

/-- **Both searches come to the same element**, the first with the id, or to none because no element
has it; and there a text is entered. -/
theorem searches_agree (id : Nat) (text : String) (es : List Element) :
    (∃ p e, First (·.id = id) es p e ∧ find? id es = some e ∧
        locate? id es = some (e, fun x => putAt p x es) ∧
        enter? id text es = some (putAt p { e with text := some text } es)) ∨
      (∀ p e, standing? p es = some e → e.id ≠ id) ∧ find? id es = none ∧
        locate? id es = none ∧ enter? id text es = none := by
  rw [enter?_eq, find?_eq_placed, locate?_eq_placed]
  cases hfound : (placed es).find? (·.2.id = id) with
  | none => exact .inr ⟨fun p e => not_of_find? (·.id = id) hfound, rfl, rfl, rfl⟩
  | some a => exact .inl ⟨a.1, a.2, first_of_find? (·.id = id) hfound, rfl, rfl, rfl⟩

/-- Entering a text changes no id. -/
theorem ids_enter? {id : Nat} {text : String} {es es' : List Element}
    (h : enter? id text es = some es') : ids es' = ids es := by
  rcases searches_agree id text es with ⟨p, found, hfirst, -, -, henter⟩ | ⟨-, -, -, henter⟩
  · rw [henter] at h
    cases h
    have hids (es : List Element) : ids es = (es.map fun e => (subtree e).map (·.id)).flatten := by
      rw [ids, walk_eq_flatMap, List.map_flatMap, List.flatMap_def]
    rw [hids, hids, map_putAt (fun e children hchildren => ?_) hfirst.stands]
    · cases found
      rfl
    · cases e with
      | mk own kind key label shown richText before =>
        have hbelow : ids children = ids before := by rw [hids, hids, hchildren]
        exact congrArg (own :: ·) hbelow
  · rw [henter] at h
    cases h

end Element

namespace Stage
open Element (find? enter? locate? standing? putAt First Written)

/-- An entry of text asks the element it writes on whether it takes one. -/
theorem enterText_eq_locate? (s : Stage) (id : Nat) (text : String) :
    s.enterText id text =
      match locate? id s.roots with
      | some (e, put) =>
        if e.kind.acceptsText then
          (.ok (), { s with
            roots := put { e with text := some text }
            interactions := s.interactions ++ [.enterText id text] })
        else (.error (.notEditable id), s)
      | none => (.error (.staleElement id), s) := by
  rw [enterText]
  rcases Element.searches_agree id text s.roots with
    ⟨p, e, -, hfind, hlocate, henter⟩ | ⟨-, hfind, hlocate, henter⟩
  · rw [hfind, hlocate, henter]
    rfl
  · rw [hfind, hlocate, henter]

/-- **Acts reach the first element with an id, and nothing else.** In any forest, the search that
looks and the search that writes come to the same element, the first with the id in document order,
or to none exactly when no element has it, and there a text is entered. On any stage, a tap on an
id that some element has is recorded, and that is all it does. A text that is entered is recorded
and is then the text of the first element with the id, if that one takes text; all else about it,
and all other elements, are as before. An act that fails changes nothing. -/
theorem acts_on_first (es : List Element) (s : Stage) (id : Nat) (text : String) :
    ((∃ p e, First (·.id = id) es p e ∧ find? id es = some e ∧
        locate? id es = some (e, fun x => putAt p x es) ∧
        enter? id text es = some (putAt p { e with text := some text } es)) ∨
      (∀ p e, standing? p es = some e → e.id ≠ id) ∧ find? id es = none ∧
        locate? id es = none ∧ enter? id text es = none) ∧
    ((∃ p e, First (·.id = id) s.roots p e ∧
        s.tap id = (.ok (), { s with interactions := s.interactions ++ [.tap id] }) ∧
        (e.kind.acceptsText = true ∧
            (∃ roots, Written p text s.roots roots ∧
              s.enterText id text = (.ok (), { s with
                roots := roots
                interactions := s.interactions ++ [.enterText id text] })) ∨
          e.kind.acceptsText = false ∧ s.enterText id text = (.error (.notEditable id), s))) ∨
      (∀ p e, standing? p s.roots = some e → e.id ≠ id) ∧
        s.tap id = (.error (.staleElement id), s) ∧
        s.enterText id text = (.error (.staleElement id), s)) := by
  refine ⟨Element.searches_agree id text es, ?_⟩
  rw [tap, enterText_eq_locate?]
  -- Both acts begin with a search, so they are told by where it comes to.
  rcases Element.searches_agree id text s.roots with
    ⟨p, e, hfirst, hfind, hlocate, -⟩ | ⟨hnone, hfind, hlocate, -⟩
  · rw [hfind, hlocate]
    refine .inl ⟨p, e, hfirst, rfl, ?_⟩
    cases haccepts : e.kind.acceptsText with
    | true => exact .inl ⟨rfl, _, Element.written_putAt hfirst.stands text, if_pos haccepts⟩
    | false => exact .inr ⟨rfl, if_neg (Bool.eq_false_iff.1 haccepts)⟩
  · rw [hfind, hlocate]
    exact .inr ⟨hnone, rfl, rfl⟩

/-- Two text inputs with one id, the first of them below another element. -/
def twins : Stage :=
  let input : Element := { Element.blank with id := 4, kind := .textInput }
  .ofForest [{ Element.blank with id := 9, children := [input] }, input]

/-- The one that is deeper is written on. -/
example : ((twins.enterText 4 "x").2.roots.map fun e => (e.id, e.text, e.children.map (·.text))) =
    [(9, none, [some "x"]), (4, none, [])] := rfl

end Stage

end UiSuite
