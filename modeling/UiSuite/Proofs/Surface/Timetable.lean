import UiSuite.Proofs.Sorting
import UiSuite.Proofs.Surface.Growing
import UiSuite.Proofs.Surface.Identity

/-! When elements appear on a stage.

An element that is scheduled is a booking: it appears after so many settles, with the next one
at the earliest. After any moves a stage shows its first forest and then the elements of the
bookings whose settle has come, in the order of their settles and, within one settle, of their
bookings; the other bookings are pending, and what is shown stays (`Stage.roots_play`). This
rests on what a stage has pending of its bookings (`Stage.Keeps`), and on what a move adds to
the roots (`Stage.bareAll_move`). -/
namespace UiSuite

/-- An element scheduled when a stage had settled so often, to appear after so many settles
more. -/
structure Booking where
  made : Nat
  after : Nat
  element : Element

namespace Booking

/-- The settle an element appears with: the one it is due at, and the next one at the
earliest. -/
def appearance (b : Booking) : Nat :=
  max (b.made + b.after) (b.made + 1)

theorem lt_appearance (b : Booking) : b.made < b.appearance := by
  rw [appearance]
  omega

/-- What a stage has pending for a booking that is still to come. -/
def entry (b : Booking) : Nat × Element :=
  (b.made + b.after, b.element)

end Booking

def Move.isSettle : Move → Bool
  | .settle => true
  | .schedule .. | .tap _ | .enterText .. => false

/-- The bookings that moves make, in order, when a stage had settled so often before them. -/
def bookings : Nat → List Move → List Booking
  | _, [] => []
  | n, .schedule after e :: ms => ⟨n, after, e⟩ :: bookings n ms
  | n, .settle :: ms => bookings (n + 1) ms
  | n, .tap _ :: ms | n, .enterText .. :: ms => bookings n ms

/-- The elements that have appeared after so many settles: those whose settle has come, in the
order of their settles and, within one settle, of their bookings. -/
def appeared (n : Nat) (bs : List Booking) : List Element :=
  ((bs.filter (·.appearance ≤ n)).mergeSort (·.appearance ≤ ·.appearance)).map (·.element)

/-- The bookings whose settle is still to come. -/
def outstanding (n : Nat) (bs : List Booking) : List Booking :=
  bs.filter (n < ·.appearance)

/-- With one settle more, its elements have appeared after all that had before. -/
theorem appeared_succ (n : Nat) (bs : List Booking) :
    appeared (n + 1) bs = appeared n bs ++ (bs.filter (·.appearance = n + 1)).map (·.element) := by
  rw [appeared, mergeSort_filter_succ Booking.appearance, List.map_append, appeared]

namespace Stage

/-! ### Bookings -/

/-- What a stage keeps about its bookings: they were made by now, and those still to come are
pending. -/
structure Keeps (bs : List Booking) (s : Stage) : Prop where
  made : ∀ b ∈ bs, b.made ≤ s.settles
  pending : s.pending = (outstanding s.settles bs).map Booking.entry

theorem foldl_push_settles (es : List Element) (s : Stage) :
    (es.foldl push s).settles = s.settles := by
  induction es generalizing s with
  | nil => rfl
  | cons e es ih => exact ih _

theorem settle_settles (s : Stage) : s.settle.settles = s.settles + 1 := by
  rw [settle, foldl_push_settles]

theorem settle_pending (s : Stage) :
    s.settle.pending = s.pending.filter (s.settles + 1 < ·.1) := by
  rw [settle, foldl_push_pending]

theorem tap_settles (s : Stage) (id : Nat) : (s.tap id).2.settles = s.settles := by
  rw [tap]
  split <;> rfl

theorem enterText_settles (s : Stage) (id : Nat) (text : String) :
    (s.enterText id text).2.settles = s.settles := by
  rw [enterText]
  split
  · split <;> rfl
  · rfl

theorem move_settles (s : Stage) (m : Move) :
    (s.move m).settles = s.settles + [m].countP Move.isSettle := by
  cases m with
  | schedule after e => rfl
  | settle => exact s.settle_settles
  | tap id => exact s.tap_settles id
  | enterText id text => exact s.enterText_settles id text

theorem play_settles (s : Stage) (ms : List Move) :
    (s.play ms).settles = s.settles + ms.countP Move.isSettle := by
  induction ms generalizing s with
  | nil => rfl
  | cons m ms ih =>
    show ((s.move m).play ms).settles = _
    rw [ih, move_settles, Nat.add_assoc, ← List.countP_append, List.singleton_append]

theorem bookings_cons (s : Stage) (m : Move) (ms : List Move) :
    bookings s.settles (m :: ms) = bookings s.settles [m] ++ bookings (s.move m).settles ms := by
  rw [move_settles]
  cases m <;> rfl

namespace Keeps
variable {bs : List Booking} {s t : Stage}

/-- A move that neither schedules nor settles changes nothing about the bookings. -/
theorem same (h : s.Keeps bs) (hsettles : t.settles = s.settles)
    (hpending : t.pending = s.pending) : t.Keeps bs :=
  ⟨by rw [hsettles]; exact h.made, by rw [hsettles, hpending]; exact h.pending⟩

/-- A booking is made for a settle to come. -/
theorem schedule (h : s.Keeps bs) (after : Nat) (e : Element) :
    (s.schedule after e).Keeps (bs ++ [⟨s.settles, after, e⟩]) := by
  constructor
  · refine List.forall_mem_append.2 ⟨h.made, ?_⟩
    exact List.forall_mem_singleton.2 (Nat.le_refl s.settles)
  · have hlater : outstanding s.settles [⟨s.settles, after, e⟩] = [⟨s.settles, after, e⟩] := by
      exact List.filter_eq_self.2 (List.forall_mem_singleton.2 (decide_eq_true
        (Booking.lt_appearance ⟨s.settles, after, e⟩)))
    show s.pending ++ [(s.settles + after, e)] = (outstanding s.settles (bs ++ _)).map Booking.entry
    rw [outstanding, List.filter_append, ← outstanding, ← outstanding, hlater, List.map_append,
      ← h.pending]
    rfl

/-- A booking that is outstanding is due with a settle to come or with the next one. -/
theorem due_iff {b : Booking} (hmade : b.made ≤ s.settles) (hb : s.settles < b.appearance) :
    b.entry.1 ≤ s.settles + 1 ↔ b.appearance = s.settles + 1 := by
  simp only [Booking.appearance, Booking.entry] at hb ⊢
  omega

/-- Settling brings the elements whose settle it is. -/
theorem arriving (h : s.Keeps bs) :
    s.arriving .settle = (bs.filter (·.appearance = s.settles + 1)).map (·.element) := by
  rw [Stage.arriving, h.pending, List.filter_map, List.map_map, outstanding, List.filter_filter]
  refine congrArg (List.map _) (List.filter_congr fun b hb => ?_)
  have hdue := due_iff (b := b) (h.made b hb)
  simp only [Function.comp_apply]
  grind

theorem settle (h : s.Keeps bs) : s.settle.Keeps bs := by
  constructor
  · rw [settle_settles]
    exact fun b hb => Nat.le_succ_of_le (h.made b hb)
  · rw [settle_pending, settle_settles, h.pending, List.filter_map, outstanding, outstanding,
      List.filter_filter]
    refine congrArg (List.map _) (List.filter_congr fun b hb => ?_)
    have hdue := due_iff (b := b) (h.made b hb)
    simp only [Function.comp_apply]
    grind

/-- What a move does to the bookings: it adds its own, and the elements that have appeared are
those it brings after those that had before. -/
theorem move (h : s.Keeps bs) (m : Move) :
    (s.move m).Keeps (bs ++ bookings s.settles [m]) ∧
      appeared (s.move m).settles (bs ++ bookings s.settles [m]) =
        appeared s.settles bs ++ s.arriving m := by
  cases m with
  | schedule after e =>
    refine ⟨h.schedule after e, ?_⟩
    have hlater : ¬ (Booking.mk s.settles after e).appearance ≤ s.settles :=
      Nat.not_le.2 (Booking.lt_appearance ⟨s.settles, after, e⟩)
    show appeared s.settles (bs ++ [⟨s.settles, after, e⟩]) = appeared s.settles bs ++ []
    rw [appeared, List.filter_append, List.filter_cons_of_neg (by simpa using hlater),
      List.filter_nil, List.append_nil, List.append_nil, ← appeared]
  | settle =>
    have hnone : bs ++ bookings s.settles [.settle] = bs := List.append_nil bs
    rw [hnone]
    refine ⟨h.settle, ?_⟩
    rw [h.arriving, ← appeared_succ, Stage.move, settle_settles]
  | tap id =>
    have hnone : bs ++ bookings s.settles [.tap id] = bs := List.append_nil bs
    rw [hnone, Stage.move, tap_settles]
    exact ⟨h.same (s.tap_settles id) (s.tap_pending id), (List.append_nil _).symm⟩
  | enterText id text =>
    have hnone : bs ++ bookings s.settles [.enterText id text] = bs := List.append_nil bs
    rw [hnone, Stage.move, enterText_settles]
    exact ⟨h.same (s.enterText_settles id text) (s.enterText_pending id text),
      (List.append_nil _).symm⟩

/-- **What moves do to the bookings.** -/
theorem play (h : s.Keeps bs) (ms : List Move) :
    (s.play ms).Keeps (bs ++ bookings s.settles ms) ∧
      appeared (s.play ms).settles (bs ++ bookings s.settles ms) =
        appeared s.settles bs ++ s.arrivals ms := by
  induction ms generalizing s bs with
  | nil =>
    have hnone : bs ++ bookings s.settles [] = bs := List.append_nil bs
    rw [hnone]
    exact ⟨h, (List.append_nil _).symm⟩
  | cons m ms ih =>
    obtain ⟨hkeeps, happeared⟩ := h.move m
    rw [bookings_cons, ← List.append_assoc, arrivals, ← List.append_assoc, ← happeared]
    exact ih hkeeps

end Keeps
end Stage

/-! ### Roots -/

namespace Element

mutual
/-- An element without ids and without the texts that can be entered, in it and below it. -/
def bare : Element → Element
  | ⟨_, kind, key, label, text, richText, children⟩ =>
    ⟨0, kind, key, label, if kind.acceptsText then none else text, richText, bareAll children⟩

/-- A forest without ids and without the texts that can be entered. -/
def bareAll : List Element → List Element
  | [] => []
  | e :: es => bare e :: bareAll es
end

theorem bareAll_append (a b : List Element) : bareAll (a ++ b) = bareAll a ++ bareAll b := by
  induction a with
  | nil => rfl
  | cons e es ih => rw [List.cons_append, bareAll, bareAll, ih, List.cons_append]

mutual
theorem bare_unwritten : (e : Element) → bare (unwritten e) = bare e
  | ⟨_, kind, _, _, text, _, children⟩ => by
    rw [unwritten, bare, bare, bareAll_unwrittenAll children]
    split <;> rfl

theorem bareAll_unwrittenAll : (es : List Element) → bareAll (unwrittenAll es) = bareAll es
  | [] => rfl
  | e :: es => by rw [unwrittenAll, bareAll, bareAll, bare_unwritten e, bareAll_unwrittenAll es]
end

mutual
/-- Numbering changes nothing but ids. -/
theorem bare_number (last : Nat) : (e : Element) → bare (number last e).1 = bare e
  | ⟨id, _, _, _, _, _, children⟩ => by
    have hchildren := bareAll_numberAll (max last (if id = 0 then last + 1 else id)) children
    rw [number, bare, bare, hchildren]

theorem bareAll_numberAll (last : Nat) : (es : List Element) →
    bareAll (numberAll last es).1 = bareAll es
  | [] => rfl
  | e :: es => by
    rw [numberAll, bareAll, bareAll, bare_number last e, bareAll_numberAll (number last e).2 es]
end

/-- What two elements have in common that are the same but for the texts that can be entered. -/
theorem unwritten_eq_iff {e e' : Element} :
    e'.unwritten = e.unwritten ↔
      e'.id = e.id ∧ e'.kind = e.kind ∧ e'.key = e.key ∧ e'.label = e.label ∧
        e'.richText = e.richText ∧ unwrittenAll e'.children = unwrittenAll e.children ∧
        (e.kind.acceptsText = false → e'.text = e.text) := by
  obtain ⟨id, kind, key, label, text, richText, children⟩ := e
  obtain ⟨id', kind', key', label', text', richText', children'⟩ := e'
  simp only [unwritten, Element.mk.injEq]
  constructor
  · rintro ⟨hid, rfl, hkey, hlabel, htext, hrich, hchildren⟩
    refine ⟨hid, rfl, hkey, hlabel, hrich, hchildren, fun hfixed => ?_⟩
    simpa [hfixed] using htext
  · rintro ⟨hid, rfl, hkey, hlabel, hrich, hchildren, htext⟩
    refine ⟨hid, rfl, hkey, hlabel, ?_, hrich, hchildren⟩
    cases haccepts : kind'.acceptsText with
    | true => rfl
    | false => exact htext haccepts

end Element

namespace Stage
open Element (bareAll bareAll_append unwrittenAll ids assign walk)

theorem bareAll_push (s : Stage) (e : Element) :
    bareAll (s.push e).roots = bareAll s.roots ++ bareAll [e] := by
  have hroots : (s.push e).roots = s.roots ++ [(Element.number s.lastId e).1] := rfl
  rw [hroots, bareAll_append]
  simp only [bareAll, Element.bare_number]

theorem bareAll_foldl_push (es : List Element) (s : Stage) :
    bareAll (es.foldl push s).roots = bareAll s.roots ++ bareAll es := by
  induction es generalizing s with
  | nil => exact (List.append_nil _).symm
  | cons e es ih =>
    rw [List.foldl_cons, ih, bareAll_push, List.append_assoc, ← bareAll_append,
      List.singleton_append]

/-- But for ids and texts that were entered, a move adds to the roots what it brings. -/
theorem bareAll_move (s : Stage) (m : Move) :
    bareAll (s.move m).roots = bareAll s.roots ++ bareAll (s.arriving m) := by
  cases m with
  | schedule after e => exact (List.append_nil _).symm
  | settle => exact bareAll_foldl_push _ _
  | tap id =>
    have hroots : (s.tap id).2.roots = s.roots := by
      rw [tap]
      split <;> rfl
    rw [move, hroots]
    exact (List.append_nil _).symm
  | enterText id text =>
    have hsame := congrArg bareAll (s.unwrittenAll_enterText id text)
    rw [Element.bareAll_unwrittenAll, Element.bareAll_unwrittenAll] at hsame
    rw [move, hsame]
    exact (List.append_nil _).symm

theorem bareAll_play (s : Stage) (ms : List Move) :
    bareAll (s.play ms).roots = bareAll s.roots ++ bareAll (s.arrivals ms) := by
  induction ms generalizing s with
  | nil => exact (List.append_nil _).symm
  | cons m ms ih =>
    show bareAll ((s.move m).play ms).roots = _
    rw [ih, bareAll_move, arrivals, bareAll_append, List.append_assoc]

/-- **What a stage shows**, after any moves. It has settled as often as it was told to. But for
ids and for texts that can be entered, its roots are the first forest and the elements scheduled
whose settle has come, in the order of their settles and, within one settle, as they were
scheduled; an element that brings an id has it, and the others are given theirs. All other
elements scheduled are pending. Whatever comes later, what is shown keeps its place in the tree
and in document order, and nothing about it changes but texts that can be entered. -/
theorem roots_play (forest : List Element) (ms : List Move) :
    let s := (ofForest forest).play ms
    let shown := forest ++ appeared s.settles (bookings 0 ms)
    s.settles = ms.countP Move.isSettle ∧
      bareAll s.roots = bareAll shown ∧
      ids s.roots = assign 0 (ids shown) ∧
      s.pending = (outstanding s.settles (bookings 0 ms)).map Booking.entry ∧
      ∀ later, unwrittenAll s.roots <+: unwrittenAll (s.play later).roots ∧
        ∀ (place : Nat) (e : Element), (walk s.roots)[place]? = some e →
          ∃ e' : Element, (walk (s.play later).roots)[place]? = some e' ∧ e'.id = e.id ∧
            e'.kind = e.kind ∧ e'.key = e.key ∧ e'.label = e.label ∧ e'.richText = e.richText ∧
            unwrittenAll e'.children = unwrittenAll e.children ∧
            (e.kind.acceptsText = false → e'.text = e.text) := by
  intro s shown
  have hstart : (ofForest forest).settles = 0 := foldl_push_settles forest empty
  have hkeeps : (ofForest forest).Keeps [] :=
    ⟨List.forall_mem_nil _, foldl_push_pending forest empty⟩
  obtain ⟨hkept, happeared⟩ := hkeeps.play ms
  rw [hstart, List.nil_append] at hkept happeared
  have hnone : appeared 0 [] = [] := by simp [appeared]
  rw [hnone, List.nil_append] at happeared
  have harrivals : shown = forest ++ (ofForest forest).arrivals ms :=
    congrArg (forest ++ ·) happeared
  have hroots : bareAll (ofForest forest).roots = bareAll forest := bareAll_foldl_push forest empty
  have hnumbered := (Numbered.ofForest forest).play ms
  refine ⟨?_, ?_, ?_, hkept.pending, fun later => ⟨s.grows_play later, fun place e he => ?_⟩⟩
  · rw [play_settles, hstart, Nat.zero_add]
  · rw [bareAll_play, hroots, harrivals, bareAll_append]
  · rw [harrivals, Element.ids_append]
    exact hnumbered.ids
  · obtain ⟨e', he', hsame⟩ := (s.grows_play later).getElem?_walk he
    exact ⟨e', he', Element.unwritten_eq_iff.1 hsame⟩

/-- What is due at once appears with the next settle, after what was scheduled for it before. -/
example :
    let keyed (key : String) : Element := { Element.blank with key := some key }
    let s := empty.play [.schedule 2 (keyed "a"), .schedule 0 (keyed "b"), .settle,
      .schedule 0 (keyed "c"), .schedule 2 (keyed "d"), .settle]
    s.roots.map (·.key) = [some "b", some "a", some "c"] ∧ s.pending.map (·.1) = [3] := by
  decide

end Stage
end UiSuite
