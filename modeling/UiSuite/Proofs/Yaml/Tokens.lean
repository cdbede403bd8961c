import UiSuite.Proofs.Yaml.Marks
import UiSuite.Proofs.Yaml.Scalars
import UiSuite.Yaml.Layout

/-! Tokens in a text with a margin.

The layout of a text is the same within a margin: the candidates for keys are further in and on
later lines, and so are the places they are compared with. Every token is the same, and stops at the
same place, except that the last one may take what comes after the text. -/
namespace UiSuite.Yaml
open Cursor

variable (m : Margin)

/-- The same candidate in a text with a margin. -/
def Candidate.inside (k : Candidate) : Candidate :=
  { k with index := k.index + m.characters, line := k.line + m.lines }

namespace Layout

/-- The same layout in a text with a margin. -/
def inside (s : Layout) : Layout :=
  { s with
    cursor := s.cursor.inside m
    candidate := s.candidate.map (·.inside m)
    outerCandidates := s.outerCandidates.map (·.map (·.inside m)) }

/-- A layout in the text with a margin that goes with one in the text: the same, or past the end
where the text has ended. -/
inductive Follows : Layout → Layout → Prop where
  | within (s : Layout) : Follows s (s.inside m)
  | beyond {s : Layout} {c : Cursor} (mayBeKey : Bool) (hend : s.cursor.rest = [])
    (hspaced : Spaced c.rest) : Follows s { s.inside m with cursor := c, mayBeKey := mayBeKey }

variable (s : Layout)

@[simp] theorem cursor_inside : (s.inside m).cursor = s.cursor.inside m := rfl

@[simp] theorem reversed_inside : (s.inside m).reversed = s.reversed := rfl

@[simp] theorem indent_inside : (s.inside m).indent = s.indent := rfl

@[simp] theorem candidate_inside :
    (s.inside m).candidate = s.candidate.map (·.inside m) := rfl

@[simp] theorem outerCandidates_inside :
    (s.inside m).outerCandidates = s.outerCandidates.map (·.map (·.inside m)) := rfl

@[simp] theorem mayBeKey_inside : (s.inside m).mayBeKey = s.mayBeKey := rfl

@[simp] theorem inFlow_inside : (s.inside m).inFlow = s.inFlow := by
  simp [inFlow, inside]

/-! ### Indentation -/

theorem indentTo_inside (column place : Nat) (t : Token) :
    (s.inside m).indentTo column place t = (s.indentTo column place t).inside m := by
  rw [indentTo, indentTo, inFlow_inside, indent_inside]
  split <;> rfl

theorem dedentTo_inside (column : Int) :
    (s.inside m).dedentTo column = (s.dedentTo column).inside m := by
  rw [dedentTo, dedentTo, inFlow_inside]
  split <;> rfl

@[simp] theorem cursor_dedentTo (column : Int) : (s.dedentTo column).cursor = s.cursor := by
  rw [dedentTo]
  split <;> rfl

@[simp] theorem cursor_indentTo (column place : Nat) (t : Token) :
    (s.indentTo column place t).cursor = s.cursor := by
  rw [indentTo]
  split <;> rfl

/-! ### Candidates -/

theorem giveUp_inside (k : Option Candidate) : giveUp (k.map (·.inside m)) = giveUp k := by
  cases k <;> rfl

theorem dropCandidate_inside : (s.inside m).dropCandidate = s.dropCandidate.map (inside m) := by
  rw [dropCandidate, dropCandidate, candidate_inside, giveUp_inside]
  cases giveUp s.candidate <;> rfl

theorem keep_inside (c : Cursor) (k : Option Candidate) :
    keep (c.inside m) (k.map (·.inside m)) = (keep c k).map (·.map (·.inside m)) := by
  cases k with
  | none => rfl
  | some k =>
    have hline : k.line + m.lines < c.line + m.lines ↔ k.line < c.line := Nat.add_lt_add_iff_right
    have hindex : k.index + m.characters + 1024 < c.index + m.characters ↔
        k.index + 1024 < c.index := by omega
    simp only [keep, Option.map_some, Candidate.inside, Cursor.inside, hline, hindex]
    split_ifs <;> rfl

theorem mapM_keep_inside (c : Cursor) (ks : List (Option Candidate)) :
    (ks.map (·.map (·.inside m))).mapM (keep (c.inside m)) =
      (ks.mapM (keep c)).map (·.map (·.map (·.inside m))) := by
  induction ks with
  | nil => rfl
  | cons k ks ih =>
    rw [List.map_cons, List.mapM_cons, List.mapM_cons, keep_inside, ih]
    cases keep c k with
    | none => rfl
    | some k => cases ks.mapM (keep c) <;> rfl

theorem dropStale_inside : (s.inside m).dropStale = s.dropStale.map (inside m) := by
  rw [dropStale, dropStale, candidate_inside, outerCandidates_inside, cursor_inside, keep_inside,
    mapM_keep_inside]
  cases s.outerCandidates.mapM (keep s.cursor) with
  | none => rfl
  | some outer => cases keep s.cursor s.candidate <;> rfl

theorem saveCandidate_inside : (s.inside m).saveCandidate = s.saveCandidate.map (inside m) := by
  rw [saveCandidate, saveCandidate, mayBeKey_inside, candidate_inside, giveUp_inside, inFlow_inside]
  split
  · cases giveUp s.candidate <;> rfl
  · rfl

theorem cursor_dropCandidate {s s' : Layout} (h : s.dropCandidate = some s') :
    s'.cursor = s.cursor := by
  obtain ⟨_, -, h⟩ := Option.bind_eq_some_iff.1 h
  cases h
  rfl

theorem cursor_dropStale {s s' : Layout} (h : s.dropStale = some s') : s'.cursor = s.cursor := by
  obtain ⟨_, -, h⟩ := Option.bind_eq_some_iff.1 h
  obtain ⟨_, -, h⟩ := Option.bind_eq_some_iff.1 h
  cases h
  rfl

theorem eq_of_saveCandidate {s s' : Layout} (h : s.saveCandidate = some s') :
    s' = { s with candidate := s'.candidate } := by
  rw [saveCandidate] at h
  split at h
  · obtain ⟨_, -, h⟩ := Option.bind_eq_some_iff.1 h
    cases h
    rfl
  · cases h
    rfl

theorem cursor_saveCandidate {s s' : Layout} (h : s.saveCandidate = some s') :
    s'.cursor = s.cursor := by
  rw [eq_of_saveCandidate h]

theorem inFlow_saveCandidate {s s' : Layout} (h : s.saveCandidate = some s') :
    s'.inFlow = s.inFlow := by
  rw [eq_of_saveCandidate h, inFlow, inFlow]

/-! ### Marks -/

variable {s}

theorem take_inside {n : Nat} (t : Token) (h : n ≤ s.cursor.rest.length) :
    (s.inside m).take n t = (s.take n t).inside m := by
  rw [take, take, cursor_inside, advanceBy_inside m h]
  rfl

theorem take_one_inside (t : Token) {s₁ : Layout} (h : s₁.cursor = s.cursor)
    (hmore : s.cursor.rest ≠ []) : (s₁.inside m).take 1 t = (s₁.take 1 t).inside m :=
  take_inside m t (List.length_pos_iff.2 (h ▸ hmore))

/-- A mark of one character takes it. -/
theorem take_suffix {s₁ : Layout} (h : s₁.cursor = s.cursor) :
    (s₁.cursor.advanceBy 1).rest <:+ s.cursor.rest.tail := by
  rw [← h, ← List.drop_one]
  exact List.suffix_refl _

theorem closeAll_inside : (s.inside m).closeAll = s.closeAll.map (inside m) := by
  rw [closeAll, closeAll, dedentTo_inside, dropCandidate_inside]
  cases (s.dedentTo (-1)).dropCandidate <;> rfl

theorem openBlock_inside (t : Token) :
    (s.inside m).openBlock t = (s.openBlock t).map (inside m) := by
  rw [openBlock, openBlock, inFlow_inside, mayBeKey_inside, reversed_inside, indentTo_inside]
  split
  · rfl
  · split <;> rfl

theorem cursor_closeAll {s s' : Layout} (h : s.closeAll = some s') : s'.cursor = s.cursor := by
  obtain ⟨s₁, hdrop, h⟩ := Option.bind_eq_some_iff.1 h
  cases h
  exact (cursor_dropCandidate hdrop).trans (cursor_dedentTo s (-1))

theorem cursor_openBlock {s s' : Layout} {t : Token} (h : s.openBlock t = some s') :
    s'.cursor = s.cursor := by
  rw [openBlock] at h
  split_ifs at h
  · cases h
    rfl
  · cases h
    exact cursor_indentTo s _ _ t

/-- To go on in the text with a margin as in the text. -/
theorem bind_inside {x : Option Layout} {f g : Layout → Option Layout}
    (h : ∀ s, x = some s → f (s.inside m) = (g s).map (inside m)) :
    (x.map (inside m)).bind f = (x.bind g).map (inside m) := by
  cases x with
  | none => rfl
  | some s => exact h s rfl

/-- A mark of one character where no candidate stays: an entry or a key, once a block collection
of its own is opened. -/
def mark (t : Token) (mayBeKey : Layout → Bool) (s : Layout) : Option Layout :=
  s.dropCandidate.bind fun s => some { s.take 1 t with mayBeKey := mayBeKey s }

theorem mark_inside {t : Token} {mayBeKey : Layout → Bool}
    (hkey : ∀ s : Layout, mayBeKey (s.inside m) = mayBeKey s) (hmore : s.cursor.rest ≠ []) :
    (s.inside m).mark t mayBeKey = (s.mark t mayBeKey).map (inside m) := by
  rw [mark, mark, dropCandidate_inside]
  refine bind_inside m fun s₁ hdrop => ?_
  rw [take_one_inside m t (cursor_dropCandidate hdrop) hmore, hkey]
  rfl

theorem mark_suffix {s' : Layout} {t : Token} {mayBeKey : Layout → Bool}
    (h : s.mark t mayBeKey = some s') : s'.cursor.rest <:+ s.cursor.rest.tail := by
  obtain ⟨s₁, hdrop, h⟩ := Option.bind_eq_some_iff.1 h
  cases h
  exact take_suffix (cursor_dropCandidate hdrop)

theorem openBlock_mark_inside {opening t : Token} {mayBeKey : Layout → Bool}
    (hkey : ∀ s : Layout, mayBeKey (s.inside m) = mayBeKey s) (hmore : s.cursor.rest ≠ []) :
    ((s.inside m).openBlock opening).bind (mark t mayBeKey) =
      ((s.openBlock opening).bind (mark t mayBeKey)).map (inside m) := by
  rw [openBlock_inside]
  exact bind_inside m fun s₁ hopen => mark_inside m hkey (cursor_openBlock hopen ▸ hmore)

theorem openBlock_mark_suffix {s' : Layout} {opening t : Token} {mayBeKey : Layout → Bool}
    (h : (s.openBlock opening).bind (mark t mayBeKey) = some s') :
    s'.cursor.rest <:+ s.cursor.rest.tail := by
  obtain ⟨s₁, hopen, h⟩ := Option.bind_eq_some_iff.1 h
  exact cursor_openBlock hopen ▸ mark_suffix h

theorem openFlow_inside (t : Token) (hmore : s.cursor.rest ≠ []) :
    (s.inside m).openFlow t = (s.openFlow t).map (inside m) := by
  rw [openFlow, openFlow, saveCandidate_inside]
  refine bind_inside m fun s₁ hsave => ?_
  rw [take_one_inside m t (cursor_saveCandidate hsave) hmore]
  rfl

theorem openFlow_suffix {s' : Layout} {t : Token} (h : s.openFlow t = some s') :
    s'.cursor.rest <:+ s.cursor.rest.tail := by
  obtain ⟨s₁, hsave, h⟩ := Option.bind_eq_some_iff.1 h
  cases h
  exact take_suffix (cursor_saveCandidate hsave)

theorem closeFlow_inside (t : Token) (hmore : s.cursor.rest ≠ []) :
    (s.inside m).closeFlow t = (s.closeFlow t).map (inside m) := by
  rw [closeFlow, closeFlow, dropCandidate_inside]
  refine bind_inside m fun s₁ hdrop => ?_
  rw [take_one_inside m t (cursor_dropCandidate hdrop) hmore]
  cases houter : s₁.outerCandidates <;> simp [take, emit, inside, houter]

theorem closeFlow_suffix {s' : Layout} {t : Token} (h : s.closeFlow t = some s') :
    s'.cursor.rest <:+ s.cursor.rest.tail := by
  obtain ⟨s₁, hdrop, h⟩ := Option.bind_eq_some_iff.1 h
  dsimp only at h
  split at h
  · cases h
    exact take_suffix (cursor_dropCandidate hdrop)
  · cases h
    exact take_suffix (cursor_dropCandidate hdrop)

theorem value_inside (hmore : s.cursor.rest ≠ []) :
    (s.inside m).value = s.value.map (inside m) := by
  rw [value, value, candidate_inside]
  cases s.candidate with
  | none =>
    dsimp only [Option.map_none]
    rw [openBlock_inside]
    refine bind_inside m fun s₁ hopen => ?_
    rw [take_one_inside m _ (cursor_openBlock hopen) hmore, inFlow_inside]
    rfl
  | some k =>
    have hcursor : ((s.insertAt k.place .key).indentTo k.column k.place .blockMapping).cursor =
        s.cursor := cursor_indentTo (s.insertAt k.place .key) k.column k.place .blockMapping
    have hindent : ((s.inside m).insertAt k.place .key).indentTo k.column k.place .blockMapping =
        ((s.insertAt k.place .key).indentTo k.column k.place .blockMapping).inside m :=
      indentTo_inside m (s.insertAt k.place .key) k.column k.place .blockMapping
    dsimp only [Option.map_some, Candidate.inside]
    rw [hindent, take_one_inside m _ hcursor hmore]
    rfl

theorem value_suffix {s' : Layout} (h : s.value = some s') :
    s'.cursor.rest <:+ s.cursor.rest.tail := by
  rw [value] at h
  split at h
  · next k _ =>
    cases h
    exact take_suffix (cursor_indentTo (s.insertAt k.place .key) k.column k.place .blockMapping)
  · obtain ⟨s₁, hopen, h⟩ := Option.bind_eq_some_iff.1 h
    cases h
    exact take_suffix (cursor_openBlock hopen)

/-! ### Scalars, names and tags -/

theorem piece_inside {read : Cursor → Option (Token × Cursor)}
    (hread : read (s.cursor.inside m) = (read s.cursor).map (carry m)) :
    (s.inside m).piece read = (s.piece read).map (inside m) := by
  rw [piece, piece, saveCandidate_inside]
  refine bind_inside m fun s₁ hsave => ?_
  rw [← cursor_saveCandidate hsave] at hread
  rw [cursor_inside, hread]
  cases read s₁.cursor <;> rfl

theorem piece_suffix {read : Cursor → Option (Token × Cursor)} {s' : Layout}
    (hread : ∀ p, read s.cursor = some p → p.2.rest <:+ s.cursor.rest.tail)
    (h : s.piece read = some s') : s'.cursor.rest <:+ s.cursor.rest.tail := by
  obtain ⟨s₁, hsave, h⟩ := Option.bind_eq_some_iff.1 h
  obtain ⟨p, hp, h⟩ := Option.bind_eq_some_iff.1 h
  cases h
  exact hread p (cursor_saveCandidate hsave ▸ hp)

/-- A name after its mark. -/
def named (name : String → Token) (c : Cursor) : Option (Token × Cursor) :=
  (anchorName c.advance).map fun (n, c) => (name n, c)

theorem named_inside (name : String → Token) {c : Cursor} (hmore : c.rest ≠ []) :
    named name (c.inside m) = (named name c).map (carry m) := by
  rw [named, named, advance_inside m hmore, anchorName_inside, Option.map_map, Option.map_map]
  rfl

theorem named_suffix {name : String → Token} {c : Cursor} {p : Token × Cursor}
    (h : named name c = some p) : p.2.rest <:+ c.rest.tail := by
  obtain ⟨⟨n, c'⟩, hname, rfl⟩ := Option.map_eq_some_iff.1 h
  exact anchorName_suffix hname

/-- A tag that stands alone. -/
def tagged (inFlow : Bool) (c : Cursor) : Option (Token × Cursor) := do
  let (handle, suffix, after) ← tag c
  if atGap after.rest || (inFlow && after.sees ',') then return (.tag handle suffix, after) else none

theorem tagged_inside (inFlow : Bool) {c : Cursor} (hmore : c.rest ≠ []) :
    tagged inFlow (c.inside m) = (tagged inFlow c).map (carry m) := by
  rw [tagged, tagged, tag_inside m hmore]
  simp only [Option.bind_eq_bind, Option.bind_map, Option.map_bind]
  refine Option.bind_congr fun ⟨handle, suffix, after⟩ _ => ?_
  dsimp only [Function.comp_apply]
  rw [rest_inside, atGap_append, sees_inside m (by decide)]
  split <;> rfl

theorem tagged_suffix {inFlow : Bool} {c : Cursor} {p : Token × Cursor}
    (h : tagged inFlow c = some p) : p.2.rest <:+ c.rest.tail := by
  obtain ⟨⟨handle, suffix, after⟩, htag, h⟩ := Option.bind_eq_some_iff.1 h
  dsimp only at h
  split at h
  · cases h
    exact tag_suffix htag
  · cases h

theorem quotedScalar_inside (single : Bool) (hsolid : Solid s.cursor.rest)
    (hmore : s.cursor.rest ≠ []) :
    (s.inside m).quotedScalar single = (s.quotedScalar single).map (inside m) := by
  refine piece_inside m ?_
  rw [quoted_inside m single hsolid hmore, Option.map_map, Option.map_map]
  rfl

theorem quotedScalar_suffix {single : Bool} {s' : Layout} (h : s.quotedScalar single = some s') :
    s'.cursor.rest <:+ s.cursor.rest.tail := by
  refine piece_suffix (fun p hp => ?_) h
  obtain ⟨⟨text, c⟩, hquoted, rfl⟩ := Option.map_eq_some_iff.1 hp
  exact quoted_suffix hquoted

theorem rel_within (x : Option Layout) : Option.Rel (Follows m) x (x.map (inside m)) := by
  cases x with
  | none => exact .none
  | some s => exact .some (.within s)

theorem plainScalar_rel (hsolid : Solid s.cursor.rest) :
    Option.Rel (Follows m) s.plainScalar (s.inside m).plainScalar := by
  rw [plainScalar, plainScalar, saveCandidate_inside]
  refine rel_bind (rel_map (inside m) _) fun s₁ _ hsave heq => ?_
  cases heq
  rw [← cursor_saveCandidate hsave] at hsolid
  rw [inFlow_inside, indent_inside, cursor_inside]
  refine rel_bind (plain_rel m s₁.inFlow s₁.indent hsolid) fun _ _ _ h => ?_
  cases h with
  | within text c broken => exact .some (.within _)
  | beyond hend hspaced text broken broken' => exact .some (.beyond broken' hend hspaced)

/-- A block scalar that stops within the text. -/
theorem blockScalar_inside (folded : Bool) (hsolid : Solid s.cursor.rest)
    (hmore : s.cursor.rest ≠ [])
    (hstops : ∀ s', s.blockScalar folded = some s' → s'.cursor.rest ≠ []) :
    (s.inside m).blockScalar folded = (s.blockScalar folded).map (inside m) := by
  rw [blockScalar] at hstops
  rw [blockScalar, blockScalar, dropCandidate_inside]
  refine bind_inside m fun s₁ hdrop => ?_
  rw [hdrop] at hstops
  rw [← cursor_dropCandidate hdrop] at hsolid hmore
  rw [indent_inside, cursor_inside, block_inside m hmore hsolid]
  · cases block folded s₁.indent s₁.cursor <;> rfl
  · intro ⟨text, c⟩ hblock
    refine hstops { s₁.emit (.scalar false text) with cursor := c, mayBeKey := true } ?_
    simp only [Option.bind_eq_bind, Option.bind_some, hblock]
    rfl

theorem blockScalar_suffix {folded : Bool} {s' : Layout} (h : s.blockScalar folded = some s') :
    s'.cursor.rest <:+ s.cursor.rest.tail := by
  obtain ⟨s₁, hdrop, h⟩ := Option.bind_eq_some_iff.1 h
  obtain ⟨⟨text, c⟩, hblock, h⟩ := Option.bind_eq_some_iff.1 h
  cases h
  exact cursor_dropCandidate hdrop ▸ block_suffix hblock

/-! ### The next token -/

/-- What begins at a place. -/
inductive Sign where
  | directive
  | document (t : Token)
  | openFlow (t : Token)
  | closeFlow (t : Token)
  | flowEntry
  | blockEntry
  | key
  | value
  | named (name : String → Token)
  | tag
  | block (folded : Bool)
  | quoted (single : Bool)
  | plain

/-- What begins with a character. -/
def sign? (inFlow : Bool) (c : Cursor) (d : Char) (rest : List Char) : Option Sign :=
  let gap := atGap rest
  if c.column == 0 && d == '%' then some .directive
  else if c.atMarker '-' then some (.document .documentStart)
  else if c.atMarker '.' then some (.document .documentEnd)
  else if d == '[' then some (.openFlow .flowSequence)
  else if d == '\x7b' then some (.openFlow .flowMapping)
  else if d == ']' then some (.closeFlow .flowSequenceEnd)
  else if d == '\x7d' then some (.closeFlow .flowMappingEnd)
  else if d == ',' then some .flowEntry
  else if d == '-' && gap then some .blockEntry
  else if d == '?' && (inFlow || gap) then some .key
  else if d == ':' && (inFlow || gap) then some .value
  else if d == '*' then some (.named .reference)
  else if d == '&' then some (.named .anchor)
  else if d == '!' then some .tag
  else if d == '|' && !inFlow then some (.block false)
  else if d == '>' && !inFlow then some (.block true)
  else if d == '\'' then some (.quoted true)
  else if d == '"' then some (.quoted false)
  else if beginsPlain inFlow d rest then some .plain
  else none

/-- Reads what begins. -/
def Sign.read : Sign → Layout → Option Layout
  | .directive, s => s.closeAll.bind fun closed =>
    (Yaml.directive s.cursor).bind fun (t, c) => some { closed.emit t with cursor := c }
  | .document t, s => s.closeAll.bind fun closed => some (closed.take 3 t)
  | .openFlow t, s => s.openFlow t
  | .closeFlow t, s => s.closeFlow t
  | .flowEntry, s => s.flowEntry
  | .blockEntry, s => s.blockEntry
  | .key, s => s.key
  | .value, s => s.value
  | .named name, s => s.piece (Layout.named name)
  | .tag, s => s.piece (tagged s.inFlow)
  | .block folded, s => s.blockScalar folded
  | .quoted single, s => s.quotedScalar single
  | .plain, s => s.plainScalar

theorem ite_bind {α β : Type} {p : Prop} [Decidable p] (x y : Option α) (f : α → Option β) :
    (if p then x else y).bind f = if p then x.bind f else y.bind f := by
  split <;> rfl

theorem nextToken_eq (s : Layout) (d : Char) (rest : List Char) :
    s.nextToken d rest = (sign? s.inFlow s.cursor d rest).bind (·.read s) := by
  rw [nextToken, sign?]
  conv_rhs => simp only [ite_bind, Option.bind_some, Option.bind_none, Sign.read]
  rfl

/-- What is known of the place where something begins. -/
def Sign.Fits (inFlow : Bool) (c : Cursor) (d : Char) (rest : List Char) : Sign → Prop
  | .document _ => 3 ≤ c.rest.length
  | .block _ => (d == '|' || d == '>') = true
  | .plain => c.atDocumentMarker = false ∧ beginsPlain inFlow d rest = true
  | _ => True

theorem le_length_of_atMarker {c : Cursor} {d : Char} (h : c.atMarker d = true) :
    3 ≤ c.rest.length := by
  rw [atMarker_eq, Bool.and_eq_true] at h
  match hrest : c.rest with
  | _ :: _ :: _ :: rest => exact Nat.le_add_left 3 rest.length
  | [] | [_] | [_, _] =>
    rw [hrest] at h
    exact absurd h.2 Bool.false_ne_true

theorem of_ite_eq_some {α : Type} {p : Prop} [Decidable p] {a b : α} {x : Option α}
    (h : (if p then some a else x) = some b) : (p ∧ a = b) ∨ (¬p ∧ x = some b) := by
  split at h
  · next hp => exact .inl ⟨hp, Option.some.inj h⟩
  · next hp => exact .inr ⟨hp, h⟩

theorem sign?_fits {inFlow : Bool} {c : Cursor} {d : Char} {rest : List Char} {k : Sign}
    (h : sign? inFlow c d rest = some k) : k.Fits inFlow c d rest := by
  rw [sign?] at h
  obtain ⟨-, rfl⟩ | ⟨-, h⟩ := of_ite_eq_some h
  · exact trivial
  obtain ⟨hmark, rfl⟩ | ⟨hdash, h⟩ := of_ite_eq_some h
  · exact le_length_of_atMarker hmark
  obtain ⟨hmark, rfl⟩ | ⟨hdot, h⟩ := of_ite_eq_some h
  · exact le_length_of_atMarker hmark
  -- From the brackets to the tags there is nothing to say.
  iterate 11
    replace h := of_ite_eq_some h
    obtain ⟨-, rfl⟩ | ⟨-, h⟩ := h
    · exact trivial
  obtain ⟨hbar, rfl⟩ | ⟨-, h⟩ := of_ite_eq_some h
  · exact Bool.or_eq_true_iff.2 (.inl (Bool.and_eq_true_iff.1 hbar).1)
  obtain ⟨hangle, rfl⟩ | ⟨-, h⟩ := of_ite_eq_some h
  · exact Bool.or_eq_true_iff.2 (.inr (Bool.and_eq_true_iff.1 hangle).1)
  obtain ⟨-, rfl⟩ | ⟨-, h⟩ := of_ite_eq_some h
  · exact trivial
  obtain ⟨-, rfl⟩ | ⟨-, h⟩ := of_ite_eq_some h
  · exact trivial
  obtain ⟨hplain, rfl⟩ | ⟨-, h⟩ := of_ite_eq_some h
  · refine ⟨?_, hplain⟩
    simp [atDocumentMarker, hdash, hdot]
  · cases h

/-- A dash without a gap after it begins a plain scalar within the margin too. -/
theorem beginsPlain_append {inFlow : Bool} {d : Char} {rest : List Char}
    (h : ¬(d == '-' && atGap rest) = true) :
    beginsPlain inFlow d (rest ++ m.after) = beginsPlain inFlow d rest := by
  by_cases hrest : rest = []
  · subst hrest
    have hdash : (d == '-') = false := by simpa [atGap, endOr] using h
    rw [beginsPlain, beginsPlain, atGap_append, hdash, Bool.false_and, Bool.false_and]
  · rw [beginsPlain, beginsPlain, atGap_append, List.head?_append_of_ne_nil _ hrest]

theorem ite_congr_right {α : Type} {p : Prop} [Decidable p] {a x y : α} (h : ¬p → x = y) :
    (if p then a else x) = if p then a else y := by
  split
  · rfl
  · next hp => exact h hp

theorem sign?_inside (inFlow : Bool) (c : Cursor) (d : Char) (rest : List Char) :
    sign? inFlow (c.inside m) d (rest ++ m.after) = sign? inFlow c d rest := by
  rw [sign?, sign?, atGap_append, column_inside, atMarker_inside m (by decide),
    atMarker_inside m (by decide)]
  -- Only whether a plain scalar begins depends on what comes after a dash.
  iterate 8 refine ite_congr_right fun _ => ?_
  refine ite_congr_right fun hentry => ?_
  rw [beginsPlain_append m hentry]

/-- Whether reading stops within the text. -/
def Stops (x : Option Layout) : Prop :=
  ∀ s, x = some s → s.cursor.rest ≠ []

theorem Sign.read_rel {d : Char} {rest : List Char} {k : Sign}
    (hfits : k.Fits s.inFlow s.cursor d rest) (hsolid : Solid s.cursor.rest)
    (hmore : s.cursor.rest ≠ []) (hstops : (d == '|' || d == '>') = true → Stops (k.read s)) :
    Option.Rel (Follows m) (k.read s) (k.read (s.inside m)) := by
  have hexact {x : Option Layout} (h : x = (k.read s).map (inside m)) :
      Option.Rel (Follows m) (k.read s) x := h ▸ rel_within m _
  cases k with
  | directive =>
    refine rel_bind (closeAll_inside m ▸ rel_map (inside m) _) fun closed _ hclosed heq => ?_
    cases heq
    refine rel_bind (directive_rel m hmore hsolid) fun ⟨t, c⟩ ⟨t', c'⟩ _ h => ?_
    obtain ⟨ht, hfollows⟩ := h
    dsimp only at ht hfollows
    subst ht
    cases hfollows with
    | within => exact .some (.within _)
    | beyond hend hspaced => exact .some (.beyond _ hend hspaced)
  | document t =>
    refine hexact ?_
    simp only [read, closeAll_inside]
    refine bind_inside m fun closed hclosed => ?_
    rw [take_inside m t (cursor_closeAll hclosed ▸ hfits)]
    rfl
  | openFlow t => exact hexact (openFlow_inside m t hmore)
  | closeFlow t => exact hexact (closeFlow_inside m t hmore)
  | flowEntry => exact hexact (mark_inside m (fun _ => rfl) hmore)
  | blockEntry => exact hexact (openBlock_mark_inside m (fun _ => rfl) hmore)
  | key => exact hexact (openBlock_mark_inside m (fun s => congrArg (!·) (inFlow_inside m s)) hmore)
  | value => exact hexact (value_inside m hmore)
  | named name => exact hexact (piece_inside m (Layout.named_inside m name hmore))
  | tag =>
    refine hexact ?_
    simp only [read, inFlow_inside]
    exact piece_inside m (tagged_inside m s.inFlow hmore)
  | block folded => exact hexact (blockScalar_inside m folded hsolid hmore (hstops hfits))
  | quoted single => exact hexact (quotedScalar_inside m single hsolid hmore)
  | plain => exact plainScalar_rel m hsolid

/-- No plain scalar begins with an indicator, but for three of them. -/
theorem beginsPlain_eq_false {inFlow : Bool} {d : Char} {rest : List Char}
    (h : (indicators.contains d && d != '-' && d != '?' && d != ':') = true) :
    beginsPlain inFlow d rest = false := by
  simp only [Bool.and_eq_true, bne_iff_ne] at h
  obtain ⟨⟨⟨hindicator, hdash⟩, hquery⟩, hcolon⟩ := h
  rw [beginsPlain, hindicator, beq_false_of_ne hdash, beq_false_of_ne hquery, beq_false_of_ne hcolon]
  simp

/-- A plain scalar does not end where it begins. -/
theorem plainEnds_of_beginsPlain {inFlow : Bool} {d : Char} {rest : List Char}
    (h : beginsPlain inFlow d rest = true) : plainEnds inFlow (d :: rest) ≠ some true := by
  by_cases hcolon : d = ':'
  · subst hcolon
    have hgap : atGap rest = false := by
      have hcolon : (isBlank ':' || indicators.contains ':') = true := by decide
      rw [beginsPlain, hcolon] at h
      cases hgap : atGap rest with
      | false => rfl
      | true => simp [hgap] at h
    simp only [plainEnds, hgap]
    split <;> simp
  · have hends : plainEnds inFlow (d :: rest) =
        some (inFlow && ",[]\x7b\x7d".toList.contains d) := by simp [plainEnds]
    rw [hends]
    intro htrue
    have hmem : d ∈ ",[]\x7b\x7d".toList := by
      simpa using (Bool.and_eq_true_iff.1 (Option.some.inj htrue)).2
    have hnot : ",[]\x7b\x7d".toList.all
        (fun e => indicators.contains e && e != '-' && e != '?' && e != ':') = true := by decide
    rw [beginsPlain_eq_false (List.all_eq_true.1 hnot d hmem)] at h
    cases h

theorem Sign.read_suffix {d : Char} {rest : List Char} {k : Sign} {s s' : Layout}
    (hfits : k.Fits s.inFlow s.cursor d rest) (hrest : s.cursor.rest = d :: rest)
    (h : k.read s = some s') : s'.cursor.rest <:+ s.cursor.rest.tail := by
  cases k with
  | directive =>
    obtain ⟨closed, hclosed, h⟩ := Option.bind_eq_some_iff.1 h
    obtain ⟨⟨t, c⟩, hdirective, h⟩ := Option.bind_eq_some_iff.1 h
    cases h
    exact directive_suffix hdirective
  | document t =>
    obtain ⟨closed, hclosed, h⟩ := Option.bind_eq_some_iff.1 h
    cases h
    show closed.cursor.rest.drop 3 <:+ _
    rw [cursor_closeAll hclosed, hrest]
    exact List.drop_suffix 2 rest
  | openFlow t => exact openFlow_suffix h
  | closeFlow t => exact closeFlow_suffix h
  | flowEntry => exact mark_suffix h
  | blockEntry => exact openBlock_mark_suffix h
  | key => exact openBlock_mark_suffix h
  | value => exact value_suffix h
  | named name => exact piece_suffix (fun _ => named_suffix) h
  | tag => exact piece_suffix (fun _ => tagged_suffix) h
  | block folded => exact blockScalar_suffix h
  | quoted single => exact quotedScalar_suffix h
  | plain =>
    obtain ⟨hmark, hbegins⟩ := hfits
    obtain ⟨s₁, hsave, h⟩ := Option.bind_eq_some_iff.1 h
    obtain ⟨⟨text, c, broken⟩, hplain, h⟩ := Option.bind_eq_some_iff.1 h
    cases h
    have hhash : (d == '#') = false := by
      by_contra hd
      rw [Bool.not_eq_false, beq_iff_eq] at hd
      subst hd
      rw [beginsPlain_eq_false (by decide)] at hbegins
      cases hbegins
    rw [cursor_saveCandidate hsave, inFlow_saveCandidate hsave] at hplain
    rw [hrest]
    exact plain_suffix hrest (by rw [hmark, hhash]; rfl) (plainEnds_of_beginsPlain hbegins) hplain

theorem nextToken_rel {d : Char} {rest : List Char} (hrest : s.cursor.rest = d :: rest)
    (hsolid : Solid s.cursor.rest)
    (hstops : (d == '|' || d == '>') = true → Stops (s.nextToken d rest)) :
    Option.Rel (Follows m) (s.nextToken d rest) ((s.inside m).nextToken d (rest ++ m.after)) := by
  rw [nextToken_eq] at hstops
  rw [nextToken_eq, nextToken_eq, inFlow_inside, cursor_inside, sign?_inside]
  cases hsign : sign? s.inFlow s.cursor d rest with
  | none => exact .none
  | some k =>
    rw [hsign] at hstops
    exact Sign.read_rel m (sign?_fits hsign) hsolid (by simp [hrest]) hstops

/-- Every token takes a character. -/
theorem nextToken_suffix {d : Char} {rest : List Char} {s s' : Layout}
    (hrest : s.cursor.rest = d :: rest) (h : s.nextToken d rest = some s') :
    s'.cursor.rest <:+ rest := by
  rw [nextToken_eq] at h
  obtain ⟨k, hsign, h⟩ := Option.bind_eq_some_iff.1 h
  have hsuffix := Sign.read_suffix (sign?_fits hsign) hrest h
  rwa [hrest] at hsuffix

end Layout
end UiSuite.Yaml
