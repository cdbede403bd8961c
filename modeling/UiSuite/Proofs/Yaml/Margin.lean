import Mathlib.Data.List.DropRight
import UiSuite.Text.Blank
import UiSuite.Text.Digit
import UiSuite.Yaml.Cursor

/-! Texts with a margin.

A text may stand below blank lines and have spaces and breaks after it (`Margin`). Whoever reads
the text within its margin is at the same place (`Cursor.inside`): as far as the text goes, what
comes next is the same, and the end of the text is a gap in either case. -/
namespace UiSuite.Text

theorem foldlM_digits_eq_none {radix : Nat} {d : Char} (hd : digitIn? radix d = none)
    {cs : List Char} (h : d ∈ cs) (n : Nat) :
    cs.foldlM (fun n c => (digitIn? radix c).map (radix * n + ·)) n = none := by
  induction cs generalizing n with
  | nil => cases h
  | cons c rest ih =>
    rw [List.foldlM_cons]
    rcases List.mem_cons.1 h with rfl | h
    · rw [hd]
      rfl
    · cases digitIn? radix c with
      | none => rfl
      | some v => exact ih h _

/-- What is no digit is in no number. -/
theorem valueIn?_eq_none {radix : Nat} {d : Char} (hd : digitIn? radix d = none) {cs : List Char}
    (h : d ∈ cs) : valueIn? radix cs = none := by
  rw [valueIn?, foldlM_digits_eq_none hd h]
  split <;> rfl

end UiSuite.Text

namespace UiSuite.Yaml

/-! ### Spaces and breaks -/

/-- A space or a line break. -/
def isSpacing (d : Char) : Bool :=
  d == ' ' || isBreak d

/-- Nothing but spaces and line breaks. -/
def Spaced (cs : List Char) : Prop :=
  ∀ d ∈ cs, isSpacing d = true

instance (cs : List Char) : Decidable (Spaced cs) :=
  decidable_of_iff (cs.all isSpacing = true) List.all_eq_true

/-- The spaces and breaks there are. -/
def spacings : List Char :=
  [' ', '\n', '\r', '\u0085', '\u2028', '\u2029']

theorem mem_spacings {d : Char} (h : isSpacing d = true) : d ∈ spacings := by
  have hchar (n : Nat) (hn : d.toNat = n) : d = Char.ofNat n := by rw [← hn, Char.ofNat_toNat]
  simp only [isSpacing, isBreak, Bool.or_eq_true, beq_iff_eq] at h
  rcases h with rfl | (((h | h) | h) | h) | h
  · simp [spacings]
  all_goals
    rw [hchar _ h]
    simp [spacings]

/-- What holds of all spaces and breaks holds of each. -/
theorem of_isSpacing {p : Char → Bool} (h : spacings.all p = true) {d : Char}
    (hd : isSpacing d = true) : p d = true :=
  List.all_eq_true.1 h d (mem_spacings hd)

theorem isBreak_of_isSpacing {d : Char} (h : isSpacing d = true) (hspace : d ≠ ' ') :
    isBreak d = true := by
  simpa [isSpacing, hspace] using h

theorem spaced_nil : Spaced [] :=
  fun _ h => nomatch h

theorem Spaced.head {cs rest : List Char} {d : Char} (h : Spaced cs) (hcs : cs = d :: rest) :
    isSpacing d = true :=
  h d (by rw [hcs]; exact List.mem_cons_self)

theorem Spaced.suffix {cs rest : List Char} (h : Spaced cs) (hs : rest <:+ cs) : Spaced rest :=
  fun d hd => h d (hs.subset hd)

/-! ### Texts that end with what is not blank -/

/-- A text without blanks at its end. -/
def Solid (cs : List Char) : Prop :=
  ∀ d, cs.getLast? = some d → Text.isBlank d = false

theorem Solid.suffix {cs rest : List Char} (h : Solid cs) (hs : rest <:+ cs) : Solid rest := by
  obtain ⟨before, rfl⟩ := hs
  intro d hd
  refine h d ?_
  rw [List.getLast?_append, hd]
  rfl

/-- A blank is not the last character. -/
theorem Solid.ne_nil {d : Char} {rest : List Char} (h : Solid (d :: rest))
    (hd : Text.isBlank d = true) : rest ≠ [] := by
  rintro rfl
  rw [h d rfl] at hd
  cases hd

/-- Blanks stop before the end. -/
theorem Solid.dropWhile_ne_nil {cs : List Char} {p : Char → Bool} (h : Solid cs) (hcs : cs ≠ [])
    (hp : ∀ d, p d = true → Text.isBlank d = true) : cs.dropWhile p ≠ [] := by
  intro hnil
  have hall := List.dropWhile_eq_nil_iff.1 hnil
  have hlast := hp _ (hall _ (List.getLast_mem hcs))
  rw [h _ (List.getLast?_eq_some_getLast hcs)] at hlast
  cases hlast

theorem isBlank_of_isBreak {d : Char} (h : isBreak d = true) : Text.isBlank d = true :=
  of_isSpacing (p := Text.isBlank) (by decide) (by simp [isSpacing, h])

theorem isBlank_of_isBlank {d : Char} (h : isBlank d = true) : Text.isBlank d = true := by
  simp only [isBlank, Bool.or_eq_true, beq_iff_eq] at h
  rcases h with rfl | rfl <;> decide

/-! ### Margins -/

/-- What stands around a text: so many characters on so many lines before it, and spaces and
breaks after it. -/
structure Margin where
  characters : Nat
  lines : Nat
  after : List Char
  spaced : Spaced after

variable (m : Margin)

/-- What is not said of spaces and breaks is said of the next character only within the text. -/
theorem head?_any_append {p : Char → Bool} (hp : spacings.all (!p ·) = true) (cs : List Char) :
    (cs ++ m.after).head?.any p = cs.head?.any p := by
  cases cs with
  | cons d rest => rfl
  | nil =>
    cases h : m.after with
    | nil => rfl
    | cons d rest => simpa using of_isSpacing hp (m.spaced.head h)

/-- What spaces and breaks do not denote, the next character denotes only within the text. -/
theorem head?_bind_append {α : Type} {f : Char → Option α}
    (hf : spacings.all (fun d => (f d).isNone) = true) (cs : List Char) :
    (cs ++ m.after).head?.bind f = cs.head?.bind f := by
  cases cs with
  | cons d rest => rfl
  | nil =>
    cases h : m.after with
    | nil => rfl
    | cons d rest => simpa using of_isSpacing hf (m.spaced.head h)

theorem takeWhile_of_spaced {cs : List Char} (h : Spaced cs) {p : Char → Bool}
    (hp : spacings.all (!p ·) = true) : cs.takeWhile p = [] := by
  cases cs with
  | nil => rfl
  | cons d rest =>
    have hd := of_isSpacing hp (h.head rfl)
    simp only [Bool.not_eq_true'] at hd
    simp [hd]

/-- The number that so many digits make. -/
def digitsValue? (count : Nat) (cs : List Char) : Option Nat :=
  if (cs.take count).length < count then none else Text.valueIn? 16 (cs.take count)

theorem le_length_of_digitsValue? {count b : Nat} {cs : List Char}
    (h : digitsValue? count cs = some b) : count ≤ cs.length := by
  rw [digitsValue?] at h
  split_ifs at h with hlength
  rw [List.length_take] at hlength
  omega

theorem digitIn?_spacing {d : Char} (h : isSpacing d = true) : Text.digitIn? 16 d = none := by
  have hnone := of_isSpacing (p := fun d => (Text.digitIn? 16 d).isNone) (by decide) h
  simpa using hnone

/-- A number that is cut short by the end of the text is none within the margin either. -/
theorem digitsValue?_append (count : Nat) (cs : List Char) :
    digitsValue? count (cs ++ m.after) = digitsValue? count cs := by
  rw [digitsValue?, digitsValue?]
  by_cases hcount : count ≤ cs.length
  · rw [List.take_append_of_le_length hcount]
  have hcut : (cs.take count).length < count := by
    rw [List.length_take]
    omega
  rw [if_pos hcut]
  split_ifs with hlength
  · rfl
  obtain ⟨d, after, hafter⟩ : ∃ d after, m.after = d :: after := by
    refine List.exists_cons_of_ne_nil fun hnil => hlength ?_
    rwa [hnil, List.append_nil]
  have hd : d ∈ (cs ++ m.after).take count := by
    rw [hafter, List.take_append, List.mem_append]
    right
    obtain ⟨k, hk⟩ : ∃ k, count - cs.length = k + 1 := ⟨count - cs.length - 1, by omega⟩
    rw [hk, List.take_succ_cons]
    exact List.mem_cons_self
  exact Text.valueIn?_eq_none (digitIn?_spacing (m.spaced.head hafter)) hd

/-- What is said of spaces and breaks holds at the end of the text in either case. -/
theorem endOr_append {p : Char → Bool} (hp : spacings.all p = true) (cs : List Char) :
    Cursor.endOr p (cs ++ m.after) = Cursor.endOr p cs := by
  cases cs with
  | cons d rest => rfl
  | nil =>
    cases h : m.after with
    | nil => rfl
    | cons d rest => exact of_isSpacing hp (m.spaced.head h)

theorem atGap_append (cs : List Char) : Cursor.atGap (cs ++ m.after) = Cursor.atGap cs :=
  endOr_append m (by decide) cs

theorem takeWhile_append {p : Char → Bool} (hp : spacings.all (!p ·) = true) (cs : List Char) :
    (cs ++ m.after).takeWhile p = cs.takeWhile p := by
  induction cs with
  | nil => exact takeWhile_of_spaced m.spaced hp
  | cons d rest ih => rw [List.cons_append, List.takeWhile_cons, List.takeWhile_cons, ih]

/-- A run that stops before the end of the text stops there within its margin too. -/
theorem takeWhile_append_of_stop {p : Char → Bool} {cs : List Char} (h : cs.dropWhile p ≠ []) :
    (cs ++ m.after).takeWhile p = cs.takeWhile p := by
  rw [List.takeWhile_append, if_neg]
  intro hlength
  refine h ?_
  have happend : cs.takeWhile p ++ cs.dropWhile p = cs := List.takeWhile_append_dropWhile
  have := congrArg List.length happend
  rw [List.length_append] at this
  exact List.length_eq_zero_iff.1 (by omega)

namespace Cursor

/-- The same place in a text with a margin. -/
def inside (c : Cursor) : Cursor :=
  ⟨c.rest ++ m.after, c.index + m.characters, c.line + m.lines, c.column⟩

@[simp] theorem rest_inside (c : Cursor) : (c.inside m).rest = c.rest ++ m.after := rfl

@[simp] theorem column_inside (c : Cursor) : (c.inside m).column = c.column := rfl

theorem spaced_inside {c : Cursor} (h : c.rest = []) : Spaced (c.inside m).rest := by
  rw [rest_inside, h]
  exact m.spaced

theorem sees_inside {d : Char} (h : spacings.all (· != d) = true) (c : Cursor) :
    (c.inside m).sees d = c.sees d := by
  have hany (cs : List Char) : (cs.head? == some d) = cs.head?.any (· == d) := by
    cases cs <;> rfl
  rw [sees, sees, hany, hany]
  exact head?_any_append m h c.rest

theorem sees_of_spaced {d : Char} {c : Cursor} (hspaced : Spaced c.rest)
    (h : spacings.all (· != d) = true) : c.sees d = false := by
  rw [sees]
  cases hrest : c.rest with
  | nil => rfl
  | cons e rest =>
    simpa using of_isSpacing h (hspaced.head hrest)

theorem advanceBy_inside {n : Nat} {c : Cursor} (h : n ≤ c.rest.length) :
    (c.inside m).advanceBy n = (c.advanceBy n).inside m := by
  rw [advanceBy, advanceBy, inside, inside]
  simp only [List.drop_append_of_le_length h, Nat.add_right_comm]

theorem advance_eq (c : Cursor) : c.advance = c.advanceBy 1 := by
  rw [advance, advanceBy, List.drop_one]

theorem advance_inside {c : Cursor} (h : c.rest ≠ []) :
    (c.inside m).advance = c.advance.inside m := by
  rw [advance_eq, advance_eq]
  exact advanceBy_inside m (List.length_pos_iff.2 h)

theorem rest_run (p : Char → Bool) (c : Cursor) : (c.run p).2.rest = c.rest.dropWhile p := by
  have happend : c.rest.takeWhile p ++ c.rest.dropWhile p = c.rest :=
    List.takeWhile_append_dropWhile
  calc c.rest.drop (c.rest.takeWhile p).length
      = (c.rest.takeWhile p ++ c.rest.dropWhile p).drop (c.rest.takeWhile p).length := by
        rw [happend]
    _ = c.rest.dropWhile p := List.drop_left

theorem rest_skip (p : Char → Bool) (c : Cursor) : (c.skip p).rest = c.rest.dropWhile p :=
  rest_run p c

/-- A run of what is no space and no break is the same within the margin. -/
theorem run_inside {p : Char → Bool} (hp : spacings.all (!p ·) = true) (c : Cursor) :
    (c.inside m).run p = ((c.run p).1, (c.run p).2.inside m) := by
  have hle : (c.rest.takeWhile p).length ≤ c.rest.length := (List.takeWhile_sublist p).length_le
  rw [run, run, rest_inside, takeWhile_append m hp]
  exact Prod.ext rfl (advanceBy_inside m hle)

/-- A run that stops before the end of the text is the same within the margin. -/
theorem run_inside_of_stop {p : Char → Bool} {c : Cursor} (h : (c.run p).2.rest ≠ []) :
    (c.inside m).run p = ((c.run p).1, (c.run p).2.inside m) := by
  have hle : (c.rest.takeWhile p).length ≤ c.rest.length := (List.takeWhile_sublist p).length_le
  rw [rest_run] at h
  rw [run, run, rest_inside, takeWhile_append_of_stop m h]
  exact Prod.ext rfl (advanceBy_inside m hle)

theorem skip_inside_of_stop {p : Char → Bool} {c : Cursor} (h : (c.skip p).rest ≠ []) :
    (c.inside m).skip p = (c.skip p).inside m :=
  congrArg Prod.snd (run_inside_of_stop m h)

/-- What is left after a character is shorter. -/
theorem length_lt_of_suffix {c c' : Cursor} {d : Char} {rest : List Char} {n : Nat}
    (hrest : c.rest = d :: rest) (hn : c.rest.length < n + 1) (h : c'.rest <:+ rest) :
    c'.rest.length < n := by
  rw [hrest, List.length_cons, Nat.add_lt_add_iff_right] at hn
  exact h.length_le.trans_lt hn

theorem length_le_of_suffix {c c' : Cursor} {d : Char} {rest : List Char} {n : Nat}
    (hrest : c.rest = d :: rest) (hn : c.rest.length ≤ n + 1) (h : c'.rest <:+ rest) :
    c'.rest.length ≤ n :=
  Nat.le_of_lt_succ (length_lt_of_suffix hrest (Nat.lt_succ_of_le hn) h)

theorem rest_advance {c : Cursor} {d : Char} {rest : List Char} (hrest : c.rest = d :: rest) :
    c.advance.rest = rest := by
  rw [advance, hrest, List.tail_cons]

theorem skip_suffix (p : Char → Bool) (c : Cursor) : (c.skip p).rest <:+ c.rest := by
  rw [rest_skip]
  exact List.dropWhile_suffix p

theorem expect_inside {d : Char} (h : spacings.all (· != d) = true) (c : Cursor) :
    (c.inside m).expect d = (c.expect d).map (inside m) := by
  rw [expect, expect, sees_inside m h]
  split
  · next hsees =>
    have hne : c.rest ≠ [] := by
      rintro hnil
      rw [sees, hnil] at hsees
      cases hsees
    rw [advance_inside m hne]
    rfl
  · rfl

theorem nextLine_pair (rest : List Char) (i l k : Nat) :
    nextLine ⟨'\r' :: '\n' :: rest, i, l, k⟩ = ⟨rest, i + 2, l + 1, 0⟩ := rfl

/-- A character that does not begin a pair is a break on its own. -/
theorem nextLine_single {d : Char} {rest : List Char} (h : ¬(d = '\r' ∧ rest.head? = some '\n'))
    (i l k : Nat) : nextLine ⟨d :: rest, i, l, k⟩ = ⟨rest, i + 1, l + 1, 0⟩ := by
  rw [nextLine]
  split
  · next heq =>
    cases heq
    exact absurd ⟨rfl, rfl⟩ h
  · next heq =>
    cases heq
    rfl
  · next heq => cases heq

/-- A break in a solid text is not its end, so it is the same break within the margin. -/
theorem nextLine_inside {d : Char} {rest : List Char} {c : Cursor} (hrest : c.rest = d :: rest)
    (hd : isBreak d = true) (hsolid : Solid c.rest) :
    (c.inside m).nextLine = c.nextLine.inside m := by
  have hne : rest ≠ [] := (hrest ▸ hsolid).ne_nil (isBlank_of_isBreak hd)
  obtain ⟨e, rest, rfl⟩ := List.exists_cons_of_ne_nil hne
  obtain ⟨cs, i, l, k⟩ := c
  cases hrest
  by_cases hpair : d = '\r' ∧ e = '\n'
  · obtain ⟨rfl, rfl⟩ := hpair
    simp only [inside, List.cons_append, nextLine_pair, Nat.add_right_comm]
  · have hhead (after : List Char) : ¬(d = '\r' ∧ (e :: after).head? = some '\n') := by
      simpa using hpair
    simp only [inside, List.cons_append, nextLine_single (hhead _), Nat.add_right_comm]

/-- Whether a text begins with three characters like this and a gap after them. -/
def marks (d : Char) : List Char → Bool
  | x :: y :: z :: rest => x == d && y == d && z == d && atGap rest
  | _ => false

theorem atMarker_eq (d : Char) (c : Cursor) : c.atMarker d = (c.column == 0 && marks d c.rest) :=
  rfl

theorem marks_append {d : Char} (hd : spacings.all (· != d) = true) (cs : List Char) :
    marks d (cs ++ m.after) = marks d cs := by
  have hother {e : Char} {rest : List Char} (h : m.after = e :: rest) : (e == d) = false := by
    simpa using of_isSpacing hd (m.spaced.head h)
  -- In a text that is too short for a marker the next character is a space or a break.
  match cs, h : m.after with
  | x :: y :: z :: rest, _ => exact congrArg (x == d && y == d && z == d && ·) (h ▸ atGap_append m rest)
  | [x, y], [] | [x], [] | [x], [_] | [], [] | [], [_] | [], [_, _] => rfl
  | [x, y], z :: _ => simp [marks, hother h]
  | [x], y :: _ :: _ | [], y :: _ :: _ :: _ => simp [marks, hother h]

theorem atMarker_inside {d : Char} (hd : spacings.all (· != d) = true) (c : Cursor) :
    (c.inside m).atMarker d = c.atMarker d := by
  rw [atMarker_eq, atMarker_eq, rest_inside, marks_append m hd, column_inside]

theorem atDocumentMarker_inside (c : Cursor) :
    (c.inside m).atDocumentMarker = c.atDocumentMarker := by
  rw [atDocumentMarker, atDocumentMarker, atMarker_inside m (by decide),
    atMarker_inside m (by decide)]

/-! ### Places that go together -/

/-- A place in the text with a margin that goes with one in the text: the same place, or nothing
but spaces and breaks where the text has ended. -/
inductive Follows : Cursor → Cursor → Prop where
  | within (c : Cursor) : Follows c (c.inside m)
  | beyond {c c' : Cursor} (hend : c.rest = []) (hspaced : Spaced c'.rest) : Follows c c'

variable {m}

theorem Follows.spaced {c c' : Cursor} (h : Follows m c c') (hend : c.rest = []) :
    Spaced c'.rest := by
  cases h with
  | within => exact spaced_inside m hend
  | beyond _ hspaced => exact hspaced

theorem Follows.eq_inside {c c' : Cursor} (h : Follows m c c') (hmore : c.rest ≠ []) :
    c' = c.inside m := by
  cases h with
  | within => rfl
  | beyond hend _ => exact absurd hend hmore

theorem rest_skip_of_nil {p : Char → Bool} {c : Cursor} (h : c.rest = []) : (c.skip p).rest = [] := by
  rw [rest_skip, h, List.dropWhile_nil]

theorem spaced_skip {p : Char → Bool} {c : Cursor} (h : Spaced c.rest) : Spaced (c.skip p).rest := by
  rw [rest_skip]
  exact h.suffix (List.dropWhile_suffix p)

/-- A run goes past the end of the text or stops within it. -/
theorem Follows.skip {c c' : Cursor} (h : Follows m c c') (p : Char → Bool) :
    Follows m (c.skip p) (c'.skip p) := by
  cases h with
  | beyond hend hspaced => exact .beyond (rest_skip_of_nil hend) (spaced_skip hspaced)
  | within =>
    by_cases hend : (c.skip p).rest = []
    · refine .beyond hend ?_
      rw [rest_skip] at hend
      rw [rest_skip, rest_inside, List.dropWhile_append, hend]
      exact m.spaced.suffix (List.dropWhile_suffix p)
    · rw [skip_inside_of_stop m hend]
      exact .within _

theorem Follows.sees {c c' : Cursor} (h : Follows m c c') {d : Char}
    (hd : spacings.all (· != d) = true) : c'.sees d = c.sees d := by
  cases h with
  | within => exact sees_inside m hd c
  | beyond hend hspaced =>
    rw [sees_of_spaced hspaced hd, sees_of_spaced (hend ▸ spaced_nil) hd]

theorem nextLine_suffix {d : Char} {rest : List Char} {c : Cursor} (hrest : c.rest = d :: rest) :
    c.nextLine.rest <:+ rest := by
  obtain ⟨cs, i, l, k⟩ := c
  cases hrest
  by_cases hpair : d = '\r' ∧ rest.head? = some '\n'
  · obtain ⟨rfl, hpair⟩ := hpair
    obtain ⟨rest, rfl⟩ := List.head?_eq_some_iff.1 hpair
    exact List.suffix_cons _ _
  · exact ⟨[], congrArg Cursor.rest (nextLine_single hpair i l k)⟩

/-- A line that breaks off in a solid text has a line after it. -/
theorem nextLine_ne_nil {d : Char} {rest : List Char} {c : Cursor} (hrest : c.rest = d :: rest)
    (hd : isBreak d = true) (hsolid : Solid c.rest) : c.nextLine.rest ≠ [] := by
  obtain ⟨cs, i, l, k⟩ := c
  cases hrest
  have hne := hsolid.ne_nil (isBlank_of_isBreak hd)
  by_cases hpair : d = '\r' ∧ rest.head? = some '\n'
  · obtain ⟨rfl, hpair⟩ := hpair
    obtain ⟨rest, rfl⟩ := List.head?_eq_some_iff.1 hpair
    exact (hsolid.suffix (List.suffix_cons _ _)).ne_nil (by decide)
  · rw [nextLine_single hpair]
    exact hne

theorem nextLine_of_nil {c : Cursor} (h : c.rest = []) : c.nextLine = c := by
  obtain ⟨cs, i, l, k⟩ := c
  cases h
  rfl

theorem nextLine_suffix_self (c : Cursor) : c.nextLine.rest <:+ c.rest := by
  cases hrest : c.rest with
  | nil => exact ⟨[], (congrArg Cursor.rest (nextLine_of_nil hrest)).trans hrest⟩
  | cons d rest => exact (nextLine_suffix hrest).trans (List.suffix_cons d rest)

/-! ### Past a comment -/

/-- Past a run of one kind, and past a comment after it. -/
def pastComment (p : Char → Bool) (c : Cursor) : Cursor :=
  if (c.skip p).sees '#' then (c.skip p).skip (!isBreak ·) else c.skip p

theorem pastComment_suffix (p : Char → Bool) (c : Cursor) : (c.pastComment p).rest <:+ c.rest := by
  rw [pastComment]
  split
  · exact (skip_suffix _ _).trans (skip_suffix p c)
  · exact skip_suffix p c

theorem Follows.pastComment {c c' : Cursor} (h : Follows m c c') (p : Char → Bool) :
    Follows m (c.pastComment p) (c'.pastComment p) := by
  rw [Cursor.pastComment, Cursor.pastComment, (h.skip p).sees (by decide)]
  split
  · exact (h.skip p).skip _
  · exact h.skip p

/-- After spaces and a comment there is no space. -/
theorem head_pastComment {p : Char → Bool} (hp : p ' ' = true) (c : Cursor) :
    (c.pastComment p).rest.head? ≠ some ' ' := by
  have hskip {p : Char → Bool} (hp : p ' ' = true) (c : Cursor) :
      (c.skip p).rest.head? ≠ some ' ' := by
    intro hhead
    have hnot := List.head?_dropWhile_not p c.rest
    rw [← rest_skip, hhead] at hnot
    simp [hp] at hnot
  rw [Cursor.pastComment]
  split
  · exact hskip (by decide) _
  · exact hskip hp c

/-- Where the text ends, its line ends within the margin. -/
theorem Follows.atLineEnd_pastComment {c c' : Cursor} (h : Follows m c c') {p : Char → Bool}
    (hp : p ' ' = true) (hend : (c.pastComment p).rest = []) :
    (c'.pastComment p).atLineEnd = true := by
  have hspaced := (h.pastComment p).spaced hend
  have hhead := head_pastComment hp c'
  rw [atLineEnd]
  cases hrest : (c'.pastComment p).rest with
  | nil => rfl
  | cons d rest =>
    rw [hrest] at hhead
    exact isBreak_of_isSpacing (hspaced.head hrest) fun heq =>
      hhead (by rw [heq, List.head?_cons])

theorem restOfLine_eq (c : Cursor) :
    c.restOfLine =
      if (c.pastComment isBlank).atLineEnd then some (c.pastComment isBlank).nextLine else none :=
  rfl

theorem restOfLine_suffix {c c' : Cursor} (h : c.restOfLine = some c') : c'.rest <:+ c.rest := by
  rw [restOfLine_eq] at h
  split at h
  · cases h
    exact (nextLine_suffix_self _).trans (pastComment_suffix isBlank c)
  · cases h

/-- The rest of a line, which may be the last one. -/
theorem Follows.restOfLine {c c' : Cursor} (h : Follows m c c') (hsolid : Solid c.rest) :
    Option.Rel (Follows m) c.restOfLine c'.restOfLine := by
  have hpast := h.pastComment isBlank
  rw [restOfLine_eq, restOfLine_eq]
  by_cases hend : (c.pastComment isBlank).rest = []
  · rw [if_pos (h.atLineEnd_pastComment rfl hend), if_pos (by rw [atLineEnd, hend]; rfl)]
    refine .some (.beyond ?_ ((hpast.spaced hend).suffix (nextLine_suffix_self _)))
    rw [nextLine_of_nil hend, hend]
  · obtain ⟨d, rest, hrest⟩ := List.exists_cons_of_ne_nil hend
    have hsolid' := hsolid.suffix (pastComment_suffix isBlank c)
    rw [hpast.eq_inside hend, atLineEnd, atLineEnd, rest_inside, hrest, List.cons_append, endOr, endOr]
    split
    · next hd =>
      rw [nextLine_inside m hrest hd hsolid']
      exact .some (.within _)
    · exact .none

end Cursor

/-! ### Reading on -/

open Cursor

/-- What was read, and the same place in the text with a margin. -/
def carry {α : Type} (p : α × Cursor) : α × Cursor :=
  (p.1, p.2.inside m)

/-- To go on after what was read in the text with a margin. -/
theorem bind_carry {α β : Type} (r : Option (α × Cursor)) (f : α × Cursor → Option β) :
    (r.map (carry m)).bind f = r.bind fun p => f (p.1, p.2.inside m) := by
  cases r <;> rfl

/-- A place in the text with a margin that goes with one in the text, and the same was read. -/
def Carries {α : Type} (p q : α × Cursor) : Prop :=
  q.1 = p.1 ∧ Follows m p.2 q.2

theorem rel_cases {α β : Type} {r : α → β → Prop} {x : Option α} {y : Option β}
    (h : Option.Rel r x y) :
    (x = none ∧ y = none) ∨ ∃ a b, x = some a ∧ y = some b ∧ r a b := by
  cases h with
  | none => exact .inl ⟨rfl, rfl⟩
  | some hab => exact .inr ⟨_, _, rfl, rfl, hab⟩

/-- To go on from places that go together. -/
theorem rel_bind {α β γ δ : Type} {r : α → β → Prop} {s : γ → δ → Prop} {x : Option α}
    {y : Option β} {f : α → Option γ} {g : β → Option δ} (h : Option.Rel r x y)
    (hfg : ∀ a b, x = some a → r a b → Option.Rel s (f a) (g b)) :
    Option.Rel s (x.bind f) (y.bind g) := by
  cases h with
  | none => exact .none
  | some hab => exact hfg _ _ rfl hab

theorem rel_unless {α β : Type} {r : α → β → Prop} {x : Option α} {y : Option β} {p q : Bool}
    (h : q = p) (hrel : p = false → Option.Rel r x y) :
    Option.Rel r (if p then none else x) (if q then none else y) := by
  subst h
  cases q with
  | true => exact .none
  | false => exact hrel rfl

theorem rel_refl {α : Type} (x : Option α) : Option.Rel Eq x x := by
  cases x with
  | none => exact .none
  | some a => exact .some rfl

theorem rel_map {α β : Type} (f : α → β) (x : Option α) :
    Option.Rel (fun a b => b = f a) x (x.map f) := by
  cases x with
  | none => exact .none
  | some p => exact .some rfl

end UiSuite.Yaml
