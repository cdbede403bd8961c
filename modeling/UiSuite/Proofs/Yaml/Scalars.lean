import UiSuite.Proofs.Yaml.Margin
import UiSuite.Yaml.Scalar

/-! Scalars in a text with a margin.

Blanks in a text that ends with something else stop before its end, so they are taken as they are
without a margin. A plain scalar that ends with the text may take what comes after it, of which
nothing becomes part of its text. A quoted scalar closes within the text or not at all, and a
block scalar that stops within it is the same. -/
namespace UiSuite.Yaml
open Cursor

variable (m : Margin) {tabStop n n' : Nat} {c c' : Cursor} {f f' : Flow} {d : Char}
  {rest : List Char}

/-! ### Blanks -/

theorem takeBlanks_cons (hrest : c.rest = d :: rest) :
    takeBlanks tabStop (n + 1) c f =
      if isBlank d then
        if f.broken && c.column < tabStop && d == '\t' then none
        else takeBlanks tabStop n c.advance (f.blank d)
      else if isBreak d then takeBlanks tabStop n c.nextLine (f.lineBreak d)
      else some (c, f) := by
  rw [takeBlanks, hrest]

theorem takeBlanks_nil (hrest : c.rest = []) : takeBlanks tabStop n c f = some (c, f) := by
  cases n with
  | zero => rfl
  | succ n => rw [takeBlanks, hrest]

theorem takeBlanks_suffix (h : takeBlanks tabStop n c f = some (c', f')) :
    c'.rest <:+ c.rest := by
  induction n generalizing c f with
  | zero =>
    cases h
    exact List.suffix_refl _
  | succ n ih =>
    cases hrest : c.rest with
    | nil =>
      rw [takeBlanks_nil hrest] at h
      cases h
      exact hrest ▸ List.suffix_refl _
    | cons d rest =>
      rw [takeBlanks_cons hrest] at h
      rw [← hrest]
      split_ifs at h
      · exact (ih h).trans (List.tail_suffix _)
      · exact (ih h).trans (nextLine_suffix_self c)
      · cases h
        exact List.suffix_refl _

/-- Blanks that begin are taken. -/
theorem takeBlanks_suffix_of_blank (hrest : c.rest = d :: rest) (hd : isBlank d || isBreak d)
    (hn : c.rest.length ≤ n) (h : takeBlanks tabStop n c f = some (c', f')) : c'.rest <:+ rest := by
  obtain ⟨n, rfl⟩ : ∃ k, n = k + 1 := by
    rw [hrest, List.length_cons] at hn
    exact ⟨n - 1, by omega⟩
  rw [takeBlanks_cons hrest] at h
  split_ifs at h with hblank _ hbreak
  · exact rest_advance hrest ▸ takeBlanks_suffix h
  · exact (takeBlanks_suffix h).trans (nextLine_suffix hrest)
  · simp [hblank, hbreak] at hd

/-- Blanks within the text are the same within its margin. -/
theorem takeBlanks_inside (hsolid : Solid c.rest) (hmore : c.rest ≠ []) (hn : c.rest.length ≤ n) :
    takeBlanks tabStop (n + m.after.length) (c.inside m) f =
      (takeBlanks tabStop n c f).map fun (c, f) => (c.inside m, f) := by
  induction n generalizing c f with
  | zero => exact absurd (List.length_eq_zero_iff.1 (Nat.le_zero.1 hn)) hmore
  | succ n ih =>
    obtain ⟨d, rest, hrest⟩ := List.exists_cons_of_ne_nil hmore
    rw [Nat.add_right_comm, takeBlanks_cons hrest,
      takeBlanks_cons (by rw [rest_inside, hrest, List.cons_append]), column_inside]
    split_ifs with hblank _ hbreak
    · rfl
    · have hadvance := rest_advance hrest
      rw [advance_inside m hmore]
      refine ih (hsolid.suffix (List.tail_suffix _)) ?_
        (length_le_of_suffix hrest hn (hadvance ▸ List.suffix_refl _))
      rw [hadvance]
      exact (hrest ▸ hsolid).ne_nil (isBlank_of_isBlank hblank)
    · rw [nextLine_inside m hrest hbreak hsolid]
      exact ih (hsolid.suffix (nextLine_suffix_self c)) (nextLine_ne_nil hrest hbreak hsolid)
        (length_le_of_suffix hrest hn (nextLine_suffix hrest))
    · rfl

/-- Where nothing but spaces and breaks is left, some of them are taken and none is part of the
text. -/
theorem takeBlanks_of_spaced (tabStop n : Nat) (f : Flow) (hspaced : Spaced c.rest) :
    ∃ c' f', takeBlanks tabStop n c f = some (c', f') ∧ Spaced c'.rest ∧ f'.text = f.text := by
  induction n generalizing c f with
  | zero => exact ⟨c, f, rfl, hspaced, rfl⟩
  | succ n ih =>
    cases hrest : c.rest with
    | nil => exact ⟨c, f, takeBlanks_nil hrest, hrest ▸ spaced_nil, rfl⟩
    | cons d rest =>
      have hd : isSpacing d = true := hspaced.head hrest
      have htab : (d == '\t') = false := by simpa using of_isSpacing (p := (· != '\t')) (by decide) hd
      have hblank : (f.blank d).text = f.text := by
        rw [Flow.blank]
        split <;> rfl
      have hbreak : (f.lineBreak d).text = f.text := by
        rw [Flow.lineBreak]
        split <;> rfl
      rw [takeBlanks_cons hrest, htab, Bool.and_false, if_neg Bool.false_ne_true]
      split_ifs
      · exact hblank ▸ ih (f.blank d) (c := c.advance) (hspaced.suffix (List.tail_suffix _))
      · exact hbreak ▸ ih (f.lineBreak d) (hspaced.suffix (nextLine_suffix_self c))
      · exact ⟨c, f, rfl, hspaced, rfl⟩

/-! ### Plain scalars -/

theorem plainFrom_cons {inFlow : Bool} {indent : Int} {fresh : Bool} (hrest : c.rest = d :: rest) :
    plainFrom inFlow indent (n + 1) fresh c f =
      if fresh && (c.atDocumentMarker || d == '#') then some (c, f)
      else if isBlank d || isBreak d then
        (takeBlanks (indent + 1).toNat n c f).bind fun (c, f) =>
          if !inFlow && c.column < indent + 1 then some (c, f)
          else plainFrom inFlow indent n true c f
      else
        (plainEnds inFlow (d :: rest)).bind fun ends =>
          if ends then some (c, f) else plainFrom inFlow indent n false c.advance (f.join.put d) := by
  rw [plainFrom, hrest]
  rfl

theorem plainFrom_nil {inFlow : Bool} {indent : Int} {fresh : Bool} (hrest : c.rest = []) :
    plainFrom inFlow indent n fresh c f = some (c, f) := by
  cases n with
  | zero => rfl
  | succ n => rw [plainFrom, hrest]

theorem plainFrom_suffix {inFlow : Bool} {indent : Int} {fresh : Bool}
    (h : plainFrom inFlow indent n fresh c f = some (c', f')) : c'.rest <:+ c.rest := by
  induction n generalizing fresh c f with
  | zero =>
    cases h
    exact List.suffix_refl _
  | succ n ih =>
    cases hrest : c.rest with
    | nil =>
      rw [plainFrom_nil hrest] at h
      cases h
      exact hrest ▸ List.suffix_refl _
    | cons d rest =>
      rw [plainFrom_cons hrest] at h
      rw [← hrest]
      split_ifs at h
      · cases h
        exact List.suffix_refl _
      · obtain ⟨⟨c₁, f₁⟩, hblanks, h⟩ := Option.bind_eq_some_iff.1 h
        dsimp only at h
        split_ifs at h
        · cases h
          exact takeBlanks_suffix hblanks
        · exact (ih h).trans (takeBlanks_suffix hblanks)
      · obtain ⟨ends, -, h⟩ := Option.bind_eq_some_iff.1 h
        split_ifs at h
        · cases h
          exact List.suffix_refl _
        · exact (ih h).trans (List.tail_suffix _)

/-- Where nothing but spaces and breaks is left, nothing becomes part of a plain scalar. -/
theorem plainFrom_of_spaced (inFlow : Bool) (indent : Int) (n : Nat) (fresh : Bool) (f : Flow)
    (hspaced : Spaced c.rest) :
    ∃ c' f', plainFrom inFlow indent n fresh c f = some (c', f') ∧ Spaced c'.rest ∧
      f'.text = f.text := by
  induction n generalizing fresh c f with
  | zero => exact ⟨c, f, rfl, hspaced, rfl⟩
  | succ n ih =>
    cases hrest : c.rest with
    | nil => exact ⟨c, f, plainFrom_nil hrest, hrest ▸ spaced_nil, rfl⟩
    | cons d rest =>
      have hd : (isBlank d || isBreak d) = true :=
        of_isSpacing (p := fun d => isBlank d || isBreak d) (by decide)
          (hspaced.head hrest)
      obtain ⟨c₁, f₁, hblanks, hspaced₁, htext₁⟩ :=
        takeBlanks_of_spaced (indent + 1).toNat n f hspaced
      rw [plainFrom_cons hrest, if_pos hd, hblanks, Option.bind_some]
      dsimp only
      split_ifs
      · exact ⟨c, f, rfl, hspaced, rfl⟩
      · exact ⟨c₁, f₁, rfl, hspaced₁, htext₁⟩
      · exact htext₁ ▸ ih true f₁ hspaced₁

theorem plainEnds_append (inFlow : Bool) (d : Char) (rest : List Char) :
    plainEnds inFlow (d :: (rest ++ m.after)) = plainEnds inFlow (d :: rest) := by
  by_cases hd : d = ':'
  · subst hd
    have hhead := head?_any_append m (p := ",?[]\x7b\x7d".toList.contains) (by decide) rest
    simp only [plainEnds, hhead, atGap_append]
  · simp [plainEnds]

/-- A plain scalar under way within the margin: at the same place with the same text, or past the
end with nothing more in the text. -/
inductive Flows : Cursor × Flow → Cursor × Flow → Prop where
  | within (c : Cursor) (f : Flow) : Flows (c, f) (c.inside m, f)
  | beyond {c c' : Cursor} {f f' : Flow} (hend : c.rest = []) (hspaced : Spaced c'.rest)
    (htext : f'.text = f.text) : Flows (c, f) (c', f')

theorem plainFrom_rel_of_nil {inFlow : Bool} {indent : Int} {fresh : Bool} (hend : c.rest = []) :
    Option.Rel (Flows m) (plainFrom inFlow indent n fresh c f)
      (plainFrom inFlow indent n' fresh (c.inside m) f) := by
  obtain ⟨c₁, f₁, h₁, hspaced₁, htext⟩ := plainFrom_of_spaced inFlow indent n' fresh f
    (spaced_inside m hend)
  rw [plainFrom_nil hend, h₁]
  exact .some (.beyond hend hspaced₁ htext)

theorem plainFrom_rel {inFlow : Bool} {indent : Int} {fresh : Bool} (hsolid : Solid c.rest)
    (hn : c.rest.length < n) :
    Option.Rel (Flows m) (plainFrom inFlow indent n fresh c f)
      (plainFrom inFlow indent (n + m.after.length) fresh (c.inside m) f) := by
  induction n generalizing fresh c f with
  | zero => exact absurd hn (Nat.not_lt_zero _)
  | succ n ih =>
    by_cases hend : c.rest = []
    · exact plainFrom_rel_of_nil m hend
    obtain ⟨d, rest, hrest⟩ := List.exists_cons_of_ne_nil hend
    rw [Nat.add_right_comm, plainFrom_cons hrest,
      plainFrom_cons (by rw [rest_inside, hrest, List.cons_append]), atDocumentMarker_inside,
      plainEnds_append]
    by_cases hmark : (fresh && (c.atDocumentMarker || d == '#')) = true
    · rw [if_pos hmark, if_pos hmark]
      exact .some (.within c f)
    rw [if_neg hmark, if_neg hmark]
    by_cases hblank : (isBlank d || isBreak d) = true
    · rw [if_pos hblank, if_pos hblank, takeBlanks_inside m hsolid hend (Nat.le_of_lt_succ hn)]
      refine rel_bind (rel_map _ _) fun ⟨c₁, f₁⟩ _ hblanks heq => ?_
      cases heq
      dsimp only
      rw [column_inside]
      split
      · exact .some (.within c₁ f₁)
      · have hsuffix := takeBlanks_suffix_of_blank hrest hblank (Nat.le_of_lt_succ hn) hblanks
        exact ih (hsolid.suffix (takeBlanks_suffix hblanks)) (length_lt_of_suffix hrest hn hsuffix)
    · rw [if_neg hblank, if_neg hblank]
      refine rel_bind (rel_refl _) fun ends _ _ heq => ?_
      cases heq
      split
      · exact .some (.within c f)
      · rw [advance_inside m hend]
        exact ih (hsolid.suffix (List.tail_suffix _))
          (length_lt_of_suffix hrest hn (rest_advance hrest ▸ List.suffix_refl _))

/-- A plain scalar within the margin: the same, or of the same text and past the end. -/
inductive Plains : String × Cursor × Bool → String × Cursor × Bool → Prop where
  | within (text : String) (c : Cursor) (broken : Bool) :
    Plains (text, c, broken) (text, c.inside m, broken)
  | beyond {c c' : Cursor} (hend : c.rest = []) (hspaced : Spaced c'.rest) (text : String)
    (broken broken' : Bool) : Plains (text, c, broken) (text, c', broken')

theorem plain_rel (inFlow : Bool) (indent : Int) (hsolid : Solid c.rest) :
    Option.Rel (Plains m) (plain inFlow indent c) (plain inFlow indent (c.inside m)) := by
  rw [plain, plain, rest_inside, List.length_append, Nat.add_right_comm]
  refine rel_bind (plainFrom_rel m hsolid (Nat.lt_succ_self _)) fun _ _ _ h => ?_
  cases h with
  | within c f => exact .some (.within _ c f.broken)
  | beyond hend hspaced htext => exact .some (htext ▸ .beyond hend hspaced _ _ _)

/-- A plain scalar that does not end at once takes a character. -/
theorem plain_suffix {inFlow : Bool} {indent : Int} {text : String} {broken : Bool}
    (hrest : c.rest = d :: rest) (hmark : (c.atDocumentMarker || d == '#') = false)
    (hends : plainEnds inFlow (d :: rest) ≠ some true)
    (h : plain inFlow indent c = some (text, c', broken)) : c'.rest <:+ rest := by
  obtain ⟨⟨c₁, f₁⟩, hfrom, h⟩ := Option.bind_eq_some_iff.1 h
  cases h
  rw [plainFrom_cons hrest, hmark, Bool.and_false, if_neg Bool.false_ne_true] at hfrom
  split_ifs at hfrom with hblank
  · obtain ⟨⟨c₂, f₂⟩, hblanks, hfrom⟩ := Option.bind_eq_some_iff.1 hfrom
    have hsuffix := takeBlanks_suffix_of_blank hrest hblank le_rfl hblanks
    dsimp only at hfrom
    split_ifs at hfrom
    · cases hfrom
      exact hsuffix
    · exact (plainFrom_suffix hfrom).trans hsuffix
  · obtain ⟨ends, hends', hfrom⟩ := Option.bind_eq_some_iff.1 hfrom
    split_ifs at hfrom with hend
    · exact absurd (hend ▸ hends') hends
    · exact rest_advance hrest ▸ plainFrom_suffix hfrom

/-! ### Quoted scalars -/

theorem escape_eq (c : Cursor) :
    escape c = c.rest.head?.bind fun d =>
      match longEscape d with
      | none => (shortEscape d).map (·, c.advance)
      | some digits =>
        ((digitsValue? digits c.rest.tail).bind charOf).map (·, c.advanceBy (digits + 1)) := by
  rw [escape]
  refine Option.bind_congr fun d _ => ?_
  cases longEscape d with
  | none => cases shortEscape d <;> rfl
  | some digits =>
    dsimp only
    rw [digitsValue?]
    split
    · rfl
    · cases Text.valueIn? 16 (c.rest.tail.take digits) with
      | none => rfl
      | some n => cases h : charOf n <;> simp [h]

/-- An escape within the text. -/
theorem escape_inside (hmore : c.rest ≠ []) : escape (c.inside m) = (escape c).map (carry m) := by
  obtain ⟨d, rest, hrest⟩ := List.exists_cons_of_ne_nil hmore
  rw [escape_eq, escape_eq, rest_inside, hrest, advance_inside m hmore]
  simp only [List.cons_append, List.head?_cons, List.tail_cons, Option.bind_some, digitsValue?_append]
  cases longEscape d with
  | none => cases shortEscape d <;> rfl
  | some digits =>
    dsimp only
    cases h : (digitsValue? digits rest).bind charOf with
    | none => rfl
    | some e =>
      obtain ⟨n, hn, -⟩ := Option.bind_eq_some_iff.1 h
      have hle : digits + 1 ≤ c.rest.length := by
        rw [hrest]
        exact Nat.succ_le_succ (le_length_of_digitsValue? hn)
      rw [advanceBy_inside m hle]
      rfl

theorem escape_suffix {e : Char} (h : escape c = some (e, c')) : c'.rest <:+ c.rest := by
  rw [escape_eq] at h
  obtain ⟨d, -, h⟩ := Option.bind_eq_some_iff.1 h
  cases hlong : longEscape d with
  | none =>
    rw [hlong] at h
    obtain ⟨_, -, heq⟩ := Option.map_eq_some_iff.1 h
    cases heq
    exact List.tail_suffix _
  | some digits =>
    rw [hlong] at h
    obtain ⟨_, -, heq⟩ := Option.map_eq_some_iff.1 h
    cases heq
    exact List.drop_suffix _ _

variable {single : Bool}

/-- What stands behind a backslash: a break that is taken back, or an escape. -/
def behindBackslash (n : Nat) (c : Cursor) (f : Flow) : Option (Cursor × Flow) :=
  if c.rest.head?.any isBreak then
    (takeBlanks 0 n c.nextLine f.escapedBreak).map fun (c, f) => (c, f.join)
  else (escape c).map fun (e, c) => (c, f.put e)

theorem behindBackslash_suffix (h : behindBackslash n c f = some (c', f')) : c'.rest <:+ c.rest := by
  rw [behindBackslash] at h
  split at h
  · obtain ⟨⟨c₁, f₁⟩, hblanks, heq⟩ := Option.map_eq_some_iff.1 h
    cases heq
    exact (takeBlanks_suffix hblanks).trans (nextLine_suffix_self c)
  · obtain ⟨⟨e, c₁⟩, hescape, heq⟩ := Option.map_eq_some_iff.1 h
    cases heq
    exact escape_suffix hescape

theorem behindBackslash_inside (hsolid : Solid c.rest) (hmore : c.rest ≠ []) (hn : c.rest.length ≤ n) :
    behindBackslash (n + m.after.length) (c.inside m) f =
      (behindBackslash n c f).map fun (c, f) => (c.inside m, f) := by
  obtain ⟨d, rest, hrest⟩ := List.exists_cons_of_ne_nil hmore
  have hhead : (c.inside m).rest.head? = c.rest.head? := by
    rw [rest_inside, List.head?_append_of_ne_nil _ hmore]
  rw [behindBackslash, behindBackslash, hhead]
  split
  · next hbreak =>
    rw [hrest] at hbreak
    rw [nextLine_inside m hrest hbreak hsolid, takeBlanks_inside m
      (hsolid.suffix (nextLine_suffix_self c)) (nextLine_ne_nil hrest hbreak hsolid)
      ((nextLine_suffix_self c).length_le.trans hn), Option.map_map, Option.map_map]
    rfl
  · rw [escape_inside m hmore, Option.map_map, Option.map_map]
    rfl

theorem quotedFrom_cons (hrest : c.rest = d :: rest) :
    quotedFrom single (n + 1) c f =
      if c.atDocumentMarker then none
      else if isBlank d || isBreak d then
        (takeBlanks 0 n c f).bind fun (c, f) => quotedFrom single n c f.join
      else if single then
        if d == '\'' then
          if rest.head? == some '\'' then quotedFrom single n (c.advanceBy 2) (f.put d)
          else some (c.advance, f)
        else quotedFrom single n c.advance (f.put d)
      else if d == '"' then some (c.advance, f)
      else if d == '\\' then
        (behindBackslash n c.advance f).bind fun (c, f) => quotedFrom single n c f
      else quotedFrom single n c.advance (f.put d) := by
  rw [quotedFrom, hrest, behindBackslash, rest_advance hrest]
  by_cases hbreak : rest.head?.any isBreak = true
  · simp only [if_pos hbreak, Option.bind_map]
    rfl
  · simp only [if_neg hbreak, Option.bind_map]
    rfl

/-- No quote closes where nothing but spaces and breaks is left. -/
theorem quotedFrom_of_spaced (hspaced : Spaced c.rest) : quotedFrom single n c f = none := by
  induction n generalizing c f with
  | zero => rfl
  | succ n ih =>
    cases hrest : c.rest with
    | nil =>
      rw [quotedFrom, hrest]
      split <;> rfl
    | cons d rest =>
      have hd : (isBlank d || isBreak d) = true :=
        of_isSpacing (p := fun d => isBlank d || isBreak d) (by decide)
          (hspaced.head hrest)
      obtain ⟨c₁, f₁, hblanks, hspaced₁, -⟩ :=
        takeBlanks_of_spaced 0 n f hspaced
      rw [quotedFrom_cons hrest, if_pos hd, hblanks, Option.bind_some]
      split
      · rfl
      · exact ih hspaced₁

/-- Nor behind a backslash there. -/
theorem quotedFrom_of_backslash (hrest : c.rest = '\\' :: rest) (hspaced : Spaced rest) :
    quotedFrom false n c f = none := by
  cases n with
  | zero => rfl
  | succ n =>
    rw [quotedFrom_cons hrest]
    split
    · rfl
    rw [if_neg (by decide), if_neg (by decide), if_neg (by decide), if_pos (by decide)]
    refine Option.bind_eq_none_iff.2 fun ⟨c₁, f₁⟩ h => ?_
    have hsuffix : c₁.rest <:+ rest := rest_advance hrest ▸ behindBackslash_suffix h
    exact quotedFrom_of_spaced (hspaced.suffix hsuffix)

/-- The inside of a quoted scalar: a quote that does not close within the text does not close within
its margin. -/
theorem quotedFrom_inside (hsolid : Solid c.rest) (hn : c.rest.length < n) :
    quotedFrom single (n + m.after.length) (c.inside m) f =
      (quotedFrom single n c f).map fun (c, f) => (c.inside m, f) := by
  induction n generalizing c f with
  | zero => exact absurd hn (Nat.not_lt_zero _)
  | succ n ih =>
    by_cases hend : c.rest = []
    · rw [quotedFrom_of_spaced (spaced_inside m hend),
        quotedFrom_of_spaced (hend ▸ spaced_nil)]
      rfl
    by_cases hlast : single = false ∧ c.rest = ['\\']
    · obtain ⟨rfl, hrest⟩ := hlast
      rw [quotedFrom_of_backslash hrest spaced_nil,
        quotedFrom_of_backslash (by rw [rest_inside, hrest, List.singleton_append]) m.spaced]
      rfl
    obtain ⟨d, rest, hrest⟩ := List.exists_cons_of_ne_nil hend
    have hon {c' : Cursor} {f : Flow} (h : c'.rest <:+ rest) :
        quotedFrom single (n + m.after.length) (c'.inside m) f =
          (quotedFrom single n c' f).map fun (c, f) => (c.inside m, f) :=
      ih (hsolid.suffix (h.trans (hrest ▸ List.suffix_cons d rest))) (length_lt_of_suffix hrest hn h)
    have hadvance : c.advance.rest <:+ rest := rest_advance hrest ▸ List.suffix_refl _
    have hsees : ((rest ++ m.after).head? == some '\'') = (rest.head? == some '\'') :=
      sees_inside m (d := '\'') (by decide) ⟨rest, 0, 0, 0⟩
    rw [Nat.add_right_comm, quotedFrom_cons hrest,
      quotedFrom_cons (by rw [rest_inside, hrest, List.cons_append]), atDocumentMarker_inside,
      advance_inside m hend, hsees]
    split_ifs with hmark hblank hsingle hquote hagain hquote hback
    · rfl
    · rw [takeBlanks_inside m hsolid hend (Nat.le_of_lt_succ hn), Option.bind_map, Option.map_bind]
      refine Option.bind_congr fun p hblanks => ?_
      obtain ⟨c₁, f₁⟩ := p
      exact hon (takeBlanks_suffix_of_blank hrest hblank (Nat.le_of_lt_succ hn) hblanks)
    · have htwo : 2 ≤ c.rest.length := by
        rw [hrest]
        cases rest with
        | nil => cases hagain
        | cons e rest => simp
      rw [advanceBy_inside m htwo]
      refine hon ?_
      rw [advanceBy, hrest]
      exact List.drop_suffix 1 rest
    · rfl
    · exact hon hadvance
    · rfl
    · have hmore : c.advance.rest ≠ [] := by
        intro hnil
        rw [rest_advance hrest] at hnil
        exact hlast ⟨by simpa using hsingle, by rw [hrest, hnil, beq_iff_eq.1 hback]⟩
      have hsolid₁ : Solid c.advance.rest := hsolid.suffix (List.tail_suffix _)
      rw [behindBackslash_inside m hsolid₁ hmore, Option.bind_map, Option.map_bind]
      · refine Option.bind_congr fun p h => ?_
        obtain ⟨c₁, f₁⟩ := p
        exact hon ((behindBackslash_suffix h).trans hadvance)
      · exact (length_lt_of_suffix hrest hn hadvance).le
    · exact hon hadvance

theorem quotedFrom_suffix (h : quotedFrom single n c f = some (c', f')) : c'.rest <:+ c.rest := by
  induction n generalizing c f with
  | zero => cases h
  | succ n ih =>
    cases hrest : c.rest with
    | nil =>
      rw [quotedFrom_of_spaced (hrest ▸ spaced_nil)] at h
      cases h
    | cons d rest =>
      rw [quotedFrom_cons hrest] at h
      rw [← hrest]
      have hadvance : c.advance.rest <:+ c.rest := List.tail_suffix _
      split_ifs at h
      · obtain ⟨⟨c₁, f₁⟩, hblanks, h⟩ := Option.bind_eq_some_iff.1 h
        exact (ih h).trans (takeBlanks_suffix hblanks)
      · exact (ih h).trans (List.drop_suffix 2 _)
      · cases h
        exact hadvance
      · exact (ih h).trans hadvance
      · cases h
        exact hadvance
      · obtain ⟨⟨c₁, f₁⟩, hback, h⟩ := Option.bind_eq_some_iff.1 h
        exact (ih h).trans ((behindBackslash_suffix hback).trans hadvance)
      · exact (ih h).trans hadvance

theorem quoted_inside (single : Bool) (hsolid : Solid c.rest) (hmore : c.rest ≠ []) :
    quoted single (c.inside m) = (quoted single c).map (carry m) := by
  have hlt : c.advance.rest.length < c.rest.length + 1 :=
    Nat.lt_succ_of_le (List.tail_suffix _).length_le
  rw [quoted, quoted, advance_inside m hmore, rest_inside, List.length_append, Nat.add_right_comm,
    quotedFrom_inside m (hsolid.suffix (List.tail_suffix _)) hlt]
  cases quotedFrom single (c.rest.length + 1) c.advance .empty <;> rfl

theorem quoted_suffix {text : String} (h : quoted single c = some (text, c')) :
    c'.rest <:+ c.rest.tail := by
  obtain ⟨⟨c₁, f₁⟩, hfrom, h⟩ := Option.bind_eq_some_iff.1 h
  cases h
  exact quotedFrom_suffix hfrom

/-! ### Block scalars -/

theorem chompMark_inside (c : Cursor) :
    chompMark (c.inside m) = ((chompMark c).1, (chompMark c).2.inside m) := by
  rw [chompMark, chompMark, rest_inside, head?_bind_append m (by decide)]
  cases h : c.rest.head?.bind Chomp.ofChar? with
  | none => rfl
  | some chomp =>
    have hmore : c.rest ≠ [] := by
      intro hnil
      rw [hnil] at h
      cases h
    exact congrArg (chomp, ·) (advance_inside m hmore)

theorem chompMark_suffix (c : Cursor) : (chompMark c).2.rest <:+ c.rest := by
  rw [chompMark]
  split
  · exact List.tail_suffix _
  · exact List.suffix_refl _

theorem indentMark_inside (c : Cursor) :
    indentMark (c.inside m) = (indentMark c).map (carry m) := by
  cases hrest : c.rest with
  | cons d rest =>
    have hmore : c.rest ≠ [] := by simp [hrest]
    simp only [indentMark, rest_inside, hrest, List.cons_append, advance_inside m hmore]
    split_ifs <;> rfl
  | nil =>
    simp only [indentMark, rest_inside, hrest, List.nil_append]
    cases h : m.after with
    | nil => rfl
    | cons d rest =>
      have hd : (d != '0' && !d.isDigit) = true :=
        of_isSpacing (p := fun d => d != '0' && !d.isDigit) (by decide) (m.spaced.head h)
      simp only [Bool.and_eq_true, bne_iff_ne, Bool.not_eq_true'] at hd
      simp only [if_neg hd.1, hd.2]
      rfl

theorem indentMark_suffix {indent : Option Nat} (h : indentMark c = some (indent, c')) :
    c'.rest <:+ c.rest := by
  rw [indentMark] at h
  split at h
  · cases h
    exact List.suffix_refl _
  · split_ifs at h
    · cases h
      exact List.tail_suffix _
    · cases h
      exact List.suffix_refl _

theorem blockMarks_inside (c : Cursor) :
    blockMarks (c.inside m) =
      (blockMarks c).map fun (chomp, indent, c) => (chomp, indent, c.inside m) := by
  rw [blockMarks, blockMarks, rest_inside, head?_bind_append m (by decide)]
  split
  · simp only [chompMark_inside, indentMark_inside, Option.bind_eq_bind, bind_carry, Option.map_bind]
    rfl
  · simp only [indentMark_inside, Option.bind_eq_bind, bind_carry, Option.map_bind]
    refine Option.bind_congr fun ⟨indent, c₁⟩ _ => ?_
    simp only [chompMark_inside]
    rfl

theorem blockMarks_suffix {chomp : Chomp} {indent : Option Nat}
    (h : blockMarks c = some (chomp, indent, c')) : c'.rest <:+ c.rest := by
  rw [blockMarks] at h
  split at h
  · obtain ⟨⟨indent, c₁⟩, hindent, h⟩ := Option.bind_eq_some_iff.1 h
    cases h
    exact (indentMark_suffix hindent).trans (chompMark_suffix c)
  · obtain ⟨⟨indent, c₁⟩, hindent, h⟩ := Option.bind_eq_some_iff.1 h
    cases h
    exact (chompMark_suffix c₁).trans (indentMark_suffix hindent)

variable {given : Option Nat} {breaks : List Char} {deepest : Nat}

/-- Past the spaces that indent a line, as many as count. -/
def indented (given : Option Nat) (c : Cursor) : Cursor :=
  c.advanceBy (match given with
    | some i => min (c.rest.takeWhile (· == ' ')).length (i - c.column)
    | none => (c.rest.takeWhile (· == ' ')).length)

/-- Whether a column is before the indentation, as far as that is known. -/
def isBefore (given : Option Nat) (column : Nat) : Bool :=
  match given with
  | some i => column < i
  | none => true

theorem emptyLines_succ :
    emptyLines given (n + 1) c breaks deepest =
      if (indented given c).sees '\t' && isBefore given (indented given c).column then none
      else match (indented given c).rest with
        | d :: _ =>
          if isBreak d then
            emptyLines given n (indented given c).nextLine (breakChar d :: breaks)
              (max deepest (indented given c).column)
          else some (breaks, max deepest (indented given c).column, indented given c)
        | [] => some (breaks, max deepest (indented given c).column, indented given c) :=
  rfl

theorem indented_suffix (given : Option Nat) (c : Cursor) : (indented given c).rest <:+ c.rest :=
  List.drop_suffix _ _

/-- So many of the first spaces. -/
theorem indented_le (given : Option Nat) (c : Cursor) :
    ∃ k ≤ (c.rest.takeWhile (· == ' ')).length, indented given c = c.advanceBy k := by
  cases given with
  | none => exact ⟨_, le_rfl, rfl⟩
  | some i => exact ⟨_, Nat.min_le_left _ _, rfl⟩

theorem indented_ne_nil (given : Option Nat) (hsolid : Solid c.rest) (hmore : c.rest ≠ []) :
    (indented given c).rest ≠ [] := by
  obtain ⟨k, hk, heq⟩ := indented_le given c
  have hstop : c.rest.dropWhile (· == ' ') ≠ [] :=
    hsolid.dropWhile_ne_nil hmore fun d hd => by rw [beq_iff_eq.1 hd]; decide
  have hsum := congrArg List.length (List.takeWhile_append_dropWhile (p := (· == ' ')) (l := c.rest))
  have hpos := List.length_pos_iff.2 hstop
  rw [List.length_append] at hsum
  rw [heq, advanceBy]
  intro hnil
  have hdrop := List.drop_eq_nil_iff.1 hnil
  omega

theorem indented_inside (hsolid : Solid c.rest) (hmore : c.rest ≠ []) :
    indented given (c.inside m) = (indented given c).inside m := by
  have hstop : c.rest.dropWhile (· == ' ') ≠ [] :=
    hsolid.dropWhile_ne_nil hmore fun d hd => by rw [beq_iff_eq.1 hd]; decide
  have hle : (c.rest.takeWhile (· == ' ')).length ≤ c.rest.length :=
    (List.takeWhile_sublist _).length_le
  simp only [indented, rest_inside, takeWhile_append_of_stop m hstop, column_inside]
  cases given with
  | none => exact advanceBy_inside m hle
  | some i => exact advanceBy_inside m ((Nat.min_le_left _ _).trans hle)

theorem emptyLines_nil (given : Option Nat) (n : Nat) (breaks : List Char) (deepest : Nat)
    (hrest : c.rest = []) :
    ∃ breaks' deepest' c', emptyLines given n c breaks deepest = some (breaks', deepest', c') ∧
      c'.rest = [] := by
  cases n with
  | zero => exact ⟨breaks, deepest, c, rfl, hrest⟩
  | succ n =>
    have hend : (indented given c).rest = [] := List.suffix_nil.1 (hrest ▸ indented_suffix given c)
    have htab : (indented given c).sees '\t' = false := by
      rw [sees, hend]
      rfl
    refine ⟨breaks, max deepest (indented given c).column, indented given c, ?_, hend⟩
    rw [emptyLines_succ, htab, Bool.false_and, if_neg Bool.false_ne_true, hend]

theorem emptyLines_suffix {breaks' : List Char} {deepest' : Nat}
    (h : emptyLines given n c breaks deepest = some (breaks', deepest', c')) :
    c'.rest <:+ c.rest := by
  induction n generalizing c breaks deepest with
  | zero =>
    cases h
    exact List.suffix_refl _
  | succ n ih =>
    have hindented := indented_suffix given c
    rw [emptyLines_succ] at h
    split at h
    · cases h
    split at h
    · split at h
      · exact (ih h).trans ((nextLine_suffix_self _).trans hindented)
      · cases h
        exact hindented
    · cases h
      exact hindented

theorem emptyLines_inside (hsolid : Solid c.rest) (hmore : c.rest ≠ []) (hn : c.rest.length < n) :
    emptyLines given (n + m.after.length) (c.inside m) breaks deepest =
      (emptyLines given n c breaks deepest).map fun (breaks, deepest, c) =>
        (breaks, deepest, c.inside m) := by
  induction n generalizing c breaks deepest with
  | zero => exact absurd hn (Nat.not_lt_zero _)
  | succ n ih =>
    have hsuffix := indented_suffix given c
    have hsolid' := hsolid.suffix hsuffix
    obtain ⟨d, rest, hrest⟩ :=
      List.exists_cons_of_ne_nil (indented_ne_nil given hsolid hmore)
    rw [Nat.add_right_comm, emptyLines_succ, emptyLines_succ, indented_inside m hsolid hmore,
      sees_inside m (by decide), column_inside, rest_inside, hrest]
    split
    · rfl
    dsimp only [List.cons_append]
    split
    · next hbreak =>
      have hlt := length_lt_of_suffix hrest (hsuffix.length_le.trans_lt hn) (nextLine_suffix hrest)
      rw [nextLine_inside m hrest hbreak hsolid']
      exact ih (hsolid'.suffix (nextLine_suffix_self _)) (nextLine_ne_nil hrest hbreak hsolid') hlt
    · rfl

variable {folded : Bool} {indent : Nat} {b b' : Block}

/-- The place after the text of a line. -/
def lineEnd (c : Cursor) : Cursor :=
  c.skip (!isBreak ·)

theorem blockLines_cons (hrest : c.rest = d :: rest) :
    blockLines folded indent (n + 1) c b =
      if c.column != indent then some (b, c)
      else
        (emptyLines (some indent) n (lineEnd c).nextLine [] 0).bind fun (further, _, next) =>
          blockLines folded indent n next
            ⟨(c.run (!isBreak ·)).1.reverse ++ b.join folded (isBlank d),
              (lineEnd c).rest.head?.map breakChar, further, isBlank d⟩ := by
  rw [blockLines, hrest]
  rfl

theorem blockLines_nil (hrest : c.rest = []) : blockLines folded indent n c b = some (b, c) := by
  cases n with
  | zero => rfl
  | succ n =>
    rw [blockLines, hrest]
    split <;> rfl

theorem blockLines_suffix (h : blockLines folded indent n c b = some (b', c')) :
    c'.rest <:+ c.rest := by
  induction n generalizing c b with
  | zero =>
    cases h
    exact List.suffix_refl _
  | succ n ih =>
    cases hrest : c.rest with
    | nil =>
      rw [blockLines_nil hrest] at h
      cases h
      exact hrest ▸ List.suffix_refl _
    | cons d rest =>
      rw [blockLines_cons hrest] at h
      rw [← hrest]
      split at h
      · cases h
        exact List.suffix_refl _
      · obtain ⟨⟨further, deepest, next⟩, hempty, h⟩ := Option.bind_eq_some_iff.1 h
        exact (ih h).trans ((emptyLines_suffix hempty).trans
          ((nextLine_suffix_self _).trans (skip_suffix _ c)))

/-- The lines of a block scalar that stops within the text. -/
theorem blockLines_inside (hsolid : Solid c.rest) (hn : c.rest.length < n)
    (hstops : ∀ b' c', blockLines folded indent n c b = some (b', c') → c'.rest ≠ []) :
    blockLines folded indent (n + m.after.length) (c.inside m) b =
      (blockLines folded indent n c b).map (carry m) := by
  induction n generalizing c b with
  | zero => exact absurd hn (Nat.not_lt_zero _)
  | succ n ih =>
    have hmore : c.rest ≠ [] := fun hnil => hstops b c (blockLines_nil hnil) hnil
    obtain ⟨d, rest, hrest⟩ := List.exists_cons_of_ne_nil hmore
    rw [blockLines_cons hrest] at hstops
    rw [Nat.add_right_comm, blockLines_cons hrest,
      blockLines_cons (by rw [rest_inside, hrest, List.cons_append]), column_inside]
    by_cases hcolumn : (c.column != indent) = true
    · rw [if_pos hcolumn, if_pos hcolumn]
      rfl
    rw [if_neg hcolumn] at hstops
    rw [if_neg hcolumn, if_neg hcolumn]
    have hmore' : (lineEnd c).rest ≠ [] := by
      intro hend
      obtain ⟨further, deepest, next, hempty, hnext⟩ :=
        emptyLines_nil (some indent) n [] 0
          (nextLine_of_nil hend ▸ hend)
      rw [hempty, Option.bind_some] at hstops
      exact hstops _ _ (blockLines_nil hnext) hnext
    obtain ⟨e, line, hline⟩ := List.exists_cons_of_ne_nil hmore'
    have hbreak : isBreak e = true := by
      have hnot := List.head?_dropWhile_not (!isBreak ·) c.rest
      rw [← rest_skip, ← lineEnd, hline] at hnot
      simpa using hnot
    have hsolid' : Solid (lineEnd c).rest := hsolid.suffix (skip_suffix _ c)
    have hlt : (lineEnd c).nextLine.rest.length < n :=
      length_lt_of_suffix hline ((skip_suffix _ c).length_le.trans_lt hn) (nextLine_suffix hline)
    have hsolid₁ := hsolid'.suffix (nextLine_suffix_self _)
    have hmore₁ := nextLine_ne_nil hline hbreak hsolid'
    have hrun : (c.inside m).run (!isBreak ·) =
        ((c.run (!isBreak ·)).1, (lineEnd c).inside m) := run_inside_of_stop m hmore'
    have hend : lineEnd (c.inside m) = (lineEnd c).inside m := skip_inside_of_stop m hmore'
    rw [hrun, hend, nextLine_inside m hline hbreak hsolid', emptyLines_inside m hsolid₁ hmore₁ hlt,
      Option.bind_map, Option.map_bind, rest_inside, List.head?_append_of_ne_nil _ hmore']
    refine Option.bind_congr fun ⟨further, deepest, next⟩ hempty => ?_
    have hsuffix := emptyLines_suffix hempty
    refine ih (hsolid₁.suffix hsuffix) (hsuffix.length_le.trans_lt hlt) fun b' c' h => ?_
    refine hstops b' c' ?_
    rw [hempty]
    exact h

/-- The text of a block scalar, last character first. -/
def chomped (chomp : Chomp) (b : Block) : List Char :=
  match chomp with
  | .strip => b.text
  | .clip => b.last.toList ++ b.text
  | .keep => b.further ++ (b.last.toList ++ b.text)

/-- What follows the first line of a block scalar. -/
def blockBody (folded : Bool) (outer : Int) (size : Nat) (chomp : Chomp) (given : Option Nat)
    (c : Cursor) : Option (String × Cursor) := do
  let given := given.map fun n => if 0 ≤ outer then outer.toNat + n else n
  let (further, deepest, c) ← emptyLines given size c [] 0
  let indent := given.getD (max 1 (max deepest (outer + 1).toNat))
  let (b, c) ← blockLines folded indent size c ⟨[], none, further, false⟩
  return (String.ofList (chomped chomp b).reverse, c)

theorem block_eq (folded : Bool) (outer : Int) (c : Cursor) :
    block folded outer c =
      (blockMarks c.advance).bind fun (chomp, given, c₁) =>
        c₁.restOfLine.bind fun c₂ => blockBody folded outer (c.rest.length + 1) chomp given c₂ :=
  rfl

variable {outer : Int} {chomp : Chomp} {text : String}

theorem blockBody_nil (folded : Bool) (outer : Int) (n : Nat) (chomp : Chomp) (given : Option Nat)
    (hrest : c.rest = []) :
    ∃ p, blockBody folded outer n chomp given c = some p ∧ p.2.rest = [] := by
  obtain ⟨further, deepest, next, hempty, hnext⟩ := emptyLines_nil
    (given.map fun n => if 0 ≤ outer then outer.toNat + n else n) n [] 0 hrest
  refine ⟨(String.ofList (chomped chomp ⟨[], none, further, false⟩).reverse, next), ?_, hnext⟩
  simp only [blockBody, hempty, Option.bind_eq_bind, Option.bind_some, blockLines_nil hnext]
  rfl

theorem blockBody_suffix (h : blockBody folded outer n chomp given c = some (text, c')) :
    c'.rest <:+ c.rest := by
  obtain ⟨⟨further, deepest, c₁⟩, hempty, h⟩ := Option.bind_eq_some_iff.1 h
  obtain ⟨⟨b, c₂⟩, hlines, h⟩ := Option.bind_eq_some_iff.1 h
  cases h
  exact (blockLines_suffix hlines).trans (emptyLines_suffix hempty)

theorem blockBody_inside (hsolid : Solid c.rest) (hn : c.rest.length < n)
    (hstops : ∀ p, blockBody folded outer n chomp given c = some p → p.2.rest ≠ []) :
    blockBody folded outer (n + m.after.length) chomp given (c.inside m) =
      (blockBody folded outer n chomp given c).map (carry m) := by
  have hmore : c.rest ≠ [] := by
    intro hnil
    obtain ⟨p, h, hnext⟩ := blockBody_nil folded outer n chomp given hnil
    exact hstops p h hnext
  rw [blockBody, blockBody, emptyLines_inside m hsolid hmore hn]
  simp only [Option.bind_eq_bind, Option.bind_map, Option.map_bind]
  refine Option.bind_congr fun ⟨further, deepest, c₁⟩ hempty => ?_
  have hsuffix := emptyLines_suffix hempty
  dsimp only [Function.comp_apply]
  rw [blockLines_inside m (hsolid.suffix hsuffix) (hsuffix.length_le.trans_lt hn), bind_carry,
    Option.map_bind]
  · rfl
  · intro b' c' hlines
    refine hstops (String.ofList (chomped chomp b').reverse, c') ?_
    rw [blockBody, hempty]
    simp only [Option.bind_eq_bind, Option.bind_some, hlines]
    rfl

theorem block_suffix (h : block folded outer c = some (text, c')) : c'.rest <:+ c.rest.tail := by
  obtain ⟨⟨chomp, given, c₁⟩, hmarks, h⟩ := Option.bind_eq_some_iff.1 h
  obtain ⟨c₂, hline, h⟩ := Option.bind_eq_some_iff.1 h
  exact (blockBody_suffix h).trans ((restOfLine_suffix hline).trans (blockMarks_suffix hmarks))

/-- A block scalar that stops within the text. -/
theorem block_inside (hmark : c.rest ≠ []) (hsolid : Solid c.rest)
    (hstops : ∀ p, block folded outer c = some p → p.2.rest ≠ []) :
    block folded outer (c.inside m) = (block folded outer c).map (carry m) := by
  rw [block_eq] at hstops
  rw [block_eq, block_eq, advance_inside m hmark, blockMarks_inside, rest_inside, List.length_append,
    Nat.add_right_comm, Option.bind_map, Option.map_bind]
  refine Option.bind_congr fun ⟨chomp, given, c₁⟩ hmarks => ?_
  have hsuffix : c₁.rest <:+ c.rest := (blockMarks_suffix hmarks).trans (List.tail_suffix _)
  have hsolid₁ := hsolid.suffix hsuffix
  rw [hmarks] at hstops
  dsimp only [Function.comp_apply, Option.bind_some] at hstops ⊢
  obtain ⟨hnone, hnone'⟩ | ⟨c₂, c₂', hline, hline', hfollows⟩ :=
    rel_cases ((Follows.within (m := m) c₁).restOfLine hsolid₁)
  · rw [hnone, hnone']
    rfl
  rw [hline, Option.bind_some] at hstops
  rw [hline, hline', Option.bind_some, Option.bind_some]
  have hsuffix₂ := restOfLine_suffix hline
  have hmore : c₂.rest ≠ [] := by
    intro hnil
    obtain ⟨p, hbody, hend⟩ := blockBody_nil folded outer (c.rest.length + 1) chomp given hnil
    exact hstops p hbody hend
  rw [hfollows.eq_inside hmore]
  exact blockBody_inside m (hsolid₁.suffix hsuffix₂)
    (Nat.lt_succ_of_le (hsuffix₂.trans hsuffix).length_le) hstops

end UiSuite.Yaml
