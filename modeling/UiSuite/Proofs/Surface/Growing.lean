import UiSuite.Proofs.Surface.Locality
import UiSuite.Proofs.Surface.Moves
import UiSuite.Proofs.Surface.Recording
import UiSuite.Selector.Matching

/-! Stages only grow.

An element on stage stays where it is. Nothing about it changes but a text that can be entered,
and what comes later comes after it (`Stage.Grows`). So a query that does not ask for texts keeps
the matches it has, each at its place (`Stage.Grows.matching`). -/
namespace UiSuite

namespace Element

mutual
/-- An element without the texts that can be entered, in it and below it. -/
def unwritten : Element → Element
  | ⟨id, kind, key, label, text, richText, children⟩ =>
    ⟨id, kind, key, label, if kind.acceptsText then none else text, richText,
      unwrittenAll children⟩

/-- A forest without the texts that can be entered. -/
def unwrittenAll : List Element → List Element
  | [] => []
  | e :: es => unwritten e :: unwrittenAll es
end

theorem unwrittenAll_eq_map (es : List Element) : unwrittenAll es = es.map unwritten := by
  induction es with
  | nil => rfl
  | cons e es ih => rw [unwrittenAll, ih, List.map_cons]

theorem unwritten_id (e : Element) : e.unwritten.id = e.id := by
  cases e
  rfl

mutual
theorem subtree_unwritten : (e : Element) → subtree e.unwritten = (subtree e).map unwritten
  | ⟨_, _, _, _, _, _, children⟩ => congrArg (_ :: ·) (walk_unwrittenAll children)

theorem walk_unwrittenAll : (es : List Element) →
    walk (unwrittenAll es) = (walk es).map unwritten
  | [] => rfl
  | e :: es => by
    rw [unwrittenAll, walk, walk, subtree_unwritten e, walk_unwrittenAll es, List.map_append]
end

/-- An element in the stead of another one leaves all as it is, if the two differ only in texts
that can be entered. -/
theorem unwrittenAll_putAt {p : Place} {es : List Element} {x y : Element}
    (h : standing? p es = some x) (hsame : y.unwritten = x.unwritten) :
    unwrittenAll (putAt p y es) = unwrittenAll es := by
  rw [unwrittenAll_eq_map, unwrittenAll_eq_map]
  refine map_putAt (fun e children hchildren => ?_) h hsame
  cases e
  rw [unwritten, unwritten, unwrittenAll_eq_map, hchildren, ← unwrittenAll_eq_map]

/-- Entering a text into a forest reaches the element that is found there, and changes nothing
else. -/
theorem unwritten_enter? (id : Nat) (text : String) (es : List Element) :
    find? id es = none ∧ enter? id text es = none ∨
      ∃ found es', find? id es = some found ∧ enter? id text es = some es' ∧
        (found.kind.acceptsText = true → unwrittenAll es' = unwrittenAll es) := by
  rcases searches_agree id text es with
    ⟨p, found, hfirst, hfind, -, henter⟩ | ⟨-, hfind, -, henter⟩
  · refine .inr ⟨found, _, hfind, henter, fun haccepts => unwrittenAll_putAt hfirst.stands ?_⟩
    cases found
    have haccepts : Kind.acceptsText _ = true := haccepts
    simp only [unwritten, haccepts, if_true]
  · exact .inl ⟨hfind, henter⟩

/-- The text entered into a forest is the text of the element that is found there then. -/
theorem find?_enter? {id : Nat} {text : String} {es es' : List Element}
    (h : enter? id text es = some es') :
    ∃ found, find? id es' = some found ∧ found.text = some text := by
  rcases searches_agree id text es with
    ⟨p, found, hfirst, -, -, henter⟩ | ⟨-, -, -, henter⟩
  · rw [henter] at h
    cases h
    have hfirst' := (written_putAt hfirst.stands text).first hfirst
    refine ⟨{ found with text := some text }, ?_, rfl⟩
    rw [find?_eq_placed, find?_of_first (·.id = id) hfirst']
    rfl
  · rw [henter] at h
    cases h

end Element

open Element (unwritten unwrittenAll unwrittenAll_eq_map)

/-! ### Growing -/

namespace Stage

/-- Whether a stage shows what another one showed, at the same place and but for texts that were
entered, and perhaps more after it. -/
def Grows (s t : Stage) : Prop :=
  unwrittenAll s.roots <+: unwrittenAll t.roots

theorem Grows.same {s t : Stage} (h : unwrittenAll t.roots = unwrittenAll s.roots) : s.Grows t :=
  ⟨[], by rw [List.append_nil, h]⟩

theorem Grows.refl (s : Stage) : s.Grows s :=
  .same rfl

theorem Grows.trans {s t u : Stage} (h : s.Grows t) (h' : t.Grows u) : s.Grows u :=
  List.IsPrefix.trans h h'

theorem grows_push (s : Stage) (e : Element) : s.Grows (s.push e) := by
  have hroots : unwrittenAll (s.push e).roots =
      unwrittenAll s.roots ++ unwrittenAll [(Element.number s.lastId e).1] := by
    simp only [unwrittenAll_eq_map]
    exact List.map_append
  rw [Grows, hroots]
  exact List.prefix_append _ _

theorem grows_foldl_push (es : List Element) (s : Stage) : s.Grows (es.foldl push s) := by
  induction es generalizing s with
  | nil => exact .refl s
  | cons e es ih => exact (s.grows_push e).trans (ih (s.push e))

theorem grows_settle (s : Stage) : s.Grows s.settle :=
  grows_foldl_push _ { s with
    pending := s.pending.filter (s.settles + 1 < ·.1)
    settles := s.settles + 1 }

theorem grows_tap (s : Stage) (id : Nat) : s.Grows (s.tap id).2 := by
  rw [tap]
  split <;> exact .refl s

/-- Only a text that can be entered is entered. -/
theorem unwrittenAll_enterText (s : Stage) (id : Nat) (text : String) :
    unwrittenAll (s.enterText id text).2.roots = unwrittenAll s.roots := by
  rw [enterText]
  split
  · rename_i found roots hfind henter
    split
    · rename_i haccepts
      rcases Element.unwritten_enter? id text s.roots with
        ⟨hnone, -⟩ | ⟨other, roots', hother, hroots, hsame⟩
      · rw [hfind] at hnone
        cases hnone
      · rw [hfind, Option.some.injEq] at hother
        rw [henter, Option.some.injEq] at hroots
        subst hother hroots
        exact hsame haccepts
    · rfl
  · rfl

theorem grows_enterText (s : Stage) (id : Nat) (text : String) : s.Grows (s.enterText id text).2 :=
  .same (s.unwrittenAll_enterText id text)

/-- **A stage grows**, whatever happens to it. -/
theorem grows_move (s : Stage) (m : Move) : s.Grows (s.move m) := by
  cases m with
  | schedule after e => exact .refl s
  | settle => exact s.grows_settle
  | tap id => exact s.grows_tap id
  | enterText id text => exact s.grows_enterText id text

theorem grows_play (s : Stage) (ms : List Move) : s.Grows (s.play ms) := by
  induction ms generalizing s with
  | nil => exact .refl s
  | cons m ms ih => exact (s.grows_move m).trans (ih (s.move m))

theorem grows_of_idles {s t : Stage} (h : Idles s t) : s.Grows t := by
  induction h with
  | refl => exact .refl s
  | @settle t h ih => exact ih.trans t.grows_settle
  | look h ih => exact ih

/-! ### Idling -/

/-- Elements that come one after the other are numbered as one forest. -/
theorem foldl_push_eq (es : List Element) (s : Stage) :
    es.foldl push s = { s with
      roots := s.roots ++ (Element.numberAll s.lastId es).1
      lastId := (Element.numberAll s.lastId es).2 } := by
  induction es generalizing s with
  | nil => simp [Element.numberAll]
  | cons e es ih => simp [ih, push, Element.numberAll]

/-- Settling brings what is due, after what is there. -/
theorem settle_roots (s : Stage) :
    s.settle.roots = s.roots ++ (Element.numberAll s.lastId (s.arriving .settle)).1 := by
  rw [settle, foldl_push_eq]
  rfl

/-- Settling leaves the elements on stage as they are, texts included. -/
theorem roots_prefix_settle (s : Stage) : s.roots <+: s.settle.roots := by
  rw [settle_roots]
  exact List.prefix_append _ _

/-- A stage that idles settles some number of times. -/
theorem exists_play_of_idles {s t : Stage} (h : Idles s t) :
    ∃ n, t = s.play (List.replicate n .settle) := by
  induction h with
  | refl => exact ⟨0, rfl⟩
  | settle h ih =>
    obtain ⟨n, rfl⟩ := ih
    refine ⟨n + 1, ?_⟩
    rw [List.replicate_succ', play, play, List.foldl_append]
    rfl
  | look h ih => exact ih

end Stage

/-! ### Matches that stay -/

/-- Whether a strategy does not ask for texts. -/
def Strategy.IgnoresText : Strategy → Prop
  | .key _ | .label _ | .kind _ => True
  | .exact _ | .part _ | .unknownKind _ | .reference _ => False

theorem Strategy.accepts_unwritten {s : Strategy} (h : s.IgnoresText) (e : Element) :
    s.accepts e.unwritten = s.accepts e := by
  cases e
  cases s with
  | key _ | label _ | kind _ => rfl
  | exact _ | part _ | unknownKind _ | reference _ => cases h

/-- A query that does not ask for texts has the same matches without them. -/
theorem Query.matching_unwrittenAll {q : Query} (h : q.strategy.IgnoresText)
    (roots : List Element) : q.matching (unwrittenAll roots) = (q.matching roots).map unwritten := by
  have haccepts : q.strategy.accepts ∘ unwritten = q.strategy.accepts :=
    funext (Strategy.accepts_unwritten h)
  rw [matching, Element.walk_unwrittenAll, List.filter_map, haccepts, matching]

/-- The matches in a forest are the first in a longer one. -/
theorem Query.matching_prefix (q : Query) {a b : List Element} (h : a <+: b) :
    q.matching a <+: q.matching b := by
  obtain ⟨rest, rfl⟩ := h
  rw [matching_append]
  exact List.prefix_append _ _

/-- What a list holds is at the same place in a longer one, as far as a map can tell. -/
theorem exists_getElem?_of_map_prefix {α β : Type} {f : α → β} {l m : List α}
    (h : l.map f <+: m.map f) {place : Nat} {a : α} (ha : l[place]? = some a) :
    ∃ b, m[place]? = some b ∧ f b = f a := by
  have hbefore : (l.map f)[place]? = some (f a) := by
    rw [List.getElem?_map, ha]
    rfl
  obtain ⟨hlength, hat⟩ := List.getElem?_eq_some_iff.1 hbefore
  have hafter := List.prefix_iff_getElem?.1 h place hlength
  rw [hat, List.getElem?_map] at hafter
  exact Option.map_eq_some_iff.1 hafter

/-- **An element stays at its place** in document order while a stage grows. -/
theorem Stage.Grows.getElem?_walk {s t : Stage} (h : s.Grows t) {place : Nat} {e : Element}
    (he : (Element.walk s.roots)[place]? = some e) :
    ∃ e', (Element.walk t.roots)[place]? = some e' ∧ e'.unwritten = e.unwritten := by
  obtain ⟨rest, hroots⟩ := h
  refine exists_getElem?_of_map_prefix ⟨Element.walk rest, ?_⟩ he
  rw [← Element.walk_unwrittenAll, ← Element.walk_unwrittenAll, ← hroots, Element.walk_append]

/-- **A match stays at its place** while a stage grows. -/
theorem Stage.Grows.matching {s t : Stage} (h : s.Grows t) {q : Query}
    (hq : q.strategy.IgnoresText) {place : Nat} {e : Element}
    (he : (q.matching s.roots)[place]? = some e) :
    ∃ e', (q.matching t.roots)[place]? = some e' ∧ e'.unwritten = e.unwritten := by
  have hprefix := q.matching_prefix h
  rw [Query.matching_unwrittenAll hq, Query.matching_unwrittenAll hq] at hprefix
  exact exists_getElem?_of_map_prefix hprefix he

end UiSuite
