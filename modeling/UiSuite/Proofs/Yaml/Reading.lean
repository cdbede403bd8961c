import UiSuite.Proofs.Yaml.Tokens
import UiSuite.Yaml.Value

/-! Texts read within a margin.

Between tokens blanks, comments and breaks are passed over, and with them whatever a margin adds.
The tokens of a text that is complete where it ends (`endsOpen`) are therefore the tokens of the
text below blank lines and with spaces and breaks after it (`tokens_margin`). -/
namespace UiSuite.Yaml
open Cursor

variable (m : Margin)

/-- Nothing but blank lines, each with its break. -/
def BlankLines (cs : List Char) : Prop :=
  Spaced cs ∧ cs.getLast?.all isBreak = true

instance (cs : List Char) : Decidable (BlankLines cs) :=
  inferInstanceAs (Decidable (Spaced cs ∧ cs.getLast?.all isBreak = true))

theorem BlankLines.suffix {cs rest : List Char} (h : BlankLines cs) (hs : rest <:+ cs) :
    BlankLines rest := by
  obtain ⟨hspaced, hlast⟩ := h
  obtain ⟨before, rfl⟩ := hs
  refine ⟨hspaced.suffix (List.suffix_append before rest), ?_⟩
  rw [List.getLast?_append] at hlast
  cases hrest : rest.getLast? with
  | none => rfl
  | some d => simpa [hrest] using hlast

/-- The first of some blank lines. -/
theorem BlankLines.exists_line {cs : List Char} (h : BlankLines cs) (hcs : cs ≠ []) :
    ∃ spaces d lines, cs = spaces ++ d :: lines ∧ (∀ e ∈ spaces, e = ' ') ∧ isBreak d = true := by
  have hsplit : cs.takeWhile (· == ' ') ++ cs.dropWhile (· == ' ') = cs :=
    List.takeWhile_append_dropWhile
  have hmore : cs.dropWhile (· == ' ') ≠ [] := by
    intro hnil
    have hspace := List.dropWhile_eq_nil_iff.1 hnil _ (List.getLast_mem hcs)
    have hbreak := h.2
    rw [List.getLast?_eq_some_getLast hcs, beq_iff_eq.1 hspace] at hbreak
    cases hbreak
  obtain ⟨d, lines, hlines⟩ := List.exists_cons_of_ne_nil hmore
  rw [hlines] at hsplit
  refine ⟨_, d, lines, hsplit.symm, fun e he => by simpa using List.mem_takeWhile_imp he, ?_⟩
  have hspace := List.head?_dropWhile_not (· == ' ') cs
  rw [hlines] at hspace
  refine isBreak_of_isSpacing (h.1 d ?_) (by simpa using hspace)
  rw [← hsplit]
  exact List.mem_append_right _ List.mem_cons_self

namespace Layout

/-! ### Between tokens -/

/-- Past a byte order mark, blanks and a comment. -/
def gap (s : Layout) : Cursor :=
  (if s.cursor.column == 0 && s.cursor.sees '\uFEFF' then s.cursor.advance else s.cursor).pastComment
    fun d => d == ' ' || ((s.inFlow || !s.mayBeKey) && d == '\t')

theorem toNext_succ (n : Nat) (s : Layout) :
    s.toNext (n + 1) =
      if s.gap.rest.head?.any isBreak then
        toNext n { s with cursor := s.gap.nextLine, mayBeKey := s.mayBeKey || !s.inFlow }
      else { s with cursor := s.gap } :=
  rfl

theorem gap_suffix (s : Layout) : s.gap.rest <:+ s.cursor.rest := by
  refine (pastComment_suffix _ _).trans ?_
  split
  · exact List.tail_suffix _
  · exact List.suffix_refl _

theorem gap_follows (s : Layout) : Cursor.Follows m s.gap (s.inside m).gap := by
  have hmark : Cursor.Follows m
      (if s.cursor.column == 0 && s.cursor.sees '\uFEFF' then s.cursor.advance else s.cursor)
      (if (s.inside m).cursor.column == 0 && (s.inside m).cursor.sees '\uFEFF' then
        (s.inside m).cursor.advance else (s.inside m).cursor) := by
    rw [cursor_inside, column_inside, sees_inside m (by decide)]
    split
    · next hsees =>
      have hmore : s.cursor.rest ≠ [] := by
        intro hnil
        rw [sees, hnil, Bool.and_eq_true] at hsees
        cases hsees.2
      rw [advance_inside m hmore]
      exact .within _
    · exact .within _
  rw [gap, gap, inFlow_inside, mayBeKey_inside]
  exact hmark.pastComment _

theorem head_gap (s : Layout) : s.gap.rest.head? ≠ some ' ' :=
  head_pastComment (by simp) _

theorem toNext_suffix (n : Nat) (s : Layout) : (s.toNext n).cursor.rest <:+ s.cursor.rest := by
  induction n generalizing s with
  | zero => exact List.suffix_refl _
  | succ n ih =>
    rw [toNext_succ]
    split
    · exact (ih _).trans ((nextLine_suffix_self _).trans (gap_suffix s))
    · exact gap_suffix s

/-- With as much fuel as there are characters, more does not count. -/
theorem toNext_fuel {n n' : Nat} {s : Layout} (hn : s.cursor.rest.length < n)
    (hn' : s.cursor.rest.length < n') : s.toNext n' = s.toNext n := by
  induction n generalizing n' s with
  | zero => exact absurd hn (Nat.not_lt_zero _)
  | succ n ih =>
    obtain ⟨n', rfl⟩ : ∃ k, n' = k + 1 := ⟨n' - 1, by omega⟩
    rw [toNext_succ, toNext_succ]
    split
    · next hbreak =>
      obtain ⟨d, rest, hrest⟩ : ∃ d rest, s.gap.rest = d :: rest := by
        refine List.exists_cons_of_ne_nil fun hnil => ?_
        rw [hnil] at hbreak
        cases hbreak
      have hlength := (gap_suffix s).length_le
      exact ih (length_lt_of_suffix hrest (hlength.trans_lt hn) (nextLine_suffix hrest))
        (length_lt_of_suffix hrest (hlength.trans_lt hn') (nextLine_suffix hrest))
    · rfl

/-- Spaces and breaks are passed over to the end. -/
theorem toNext_of_spaced {n : Nat} {s : Layout} (hspaced : Spaced s.gap.rest)
    (hn : s.gap.rest.length < n) :
    ∃ c mayBeKey, s.toNext n = { s with cursor := c, mayBeKey := mayBeKey } ∧ c.rest = [] := by
  induction n generalizing s with
  | zero => exact absurd hn (Nat.not_lt_zero _)
  | succ n ih =>
    rw [toNext_succ]
    cases hrest : s.gap.rest with
    | nil =>
      exact ⟨s.gap, s.mayBeKey, rfl, hrest⟩
    | cons d rest =>
      have hhead := head_gap s
      rw [hrest] at hhead hspaced
      have hbreak : isBreak d = true := isBreak_of_isSpacing (hspaced d List.mem_cons_self)
        fun heq => hhead (by rw [heq, List.head?_cons])
      rw [if_pos (by rw [List.head?_cons]; exact hbreak)]
      obtain ⟨c, mayBeKey, hnext, hend⟩ :=
        ih (s := { s with cursor := s.gap.nextLine, mayBeKey := s.mayBeKey || !s.inFlow })
          (hspaced.suffix ((gap_suffix _).trans ((nextLine_suffix hrest).trans
            (List.suffix_cons d rest))))
          ((gap_suffix _).length_le.trans_lt (length_lt_of_suffix hrest hn (nextLine_suffix hrest)))
      exact ⟨c, mayBeKey, hnext, hend⟩

/-- What comes next in a text within its margin: the same, or the end of both. -/
inductive Arrives : Layout → Layout → Prop where
  | within {s : Layout} (hmore : s.cursor.rest ≠ []) : Arrives s (s.inside m)
  | atEnd {s : Layout} {c : Cursor} (mayBeKey : Bool) (hend : s.cursor.rest = [])
    (hend' : c.rest = []) : Arrives s { s.inside m with cursor := c, mayBeKey := mayBeKey }

theorem toNext_arrives_of_end {n n' : Nat} {s : Layout} {c : Cursor} {mayBeKey : Bool}
    (hend : s.cursor.rest = []) (hspaced : Spaced c.rest) (hn : s.cursor.rest.length < n)
    (hn' : c.rest.length < n') :
    Arrives m (s.toNext n) (toNext n' { s.inside m with cursor := c, mayBeKey := mayBeKey }) := by
  have hgap {s : Layout} (h : Spaced s.cursor.rest) : Spaced s.gap.rest := h.suffix (gap_suffix s)
  obtain ⟨c₁, b₁, hnext, hend₁⟩ := toNext_of_spaced (s := s) (hgap (hend ▸ spaced_nil))
    ((gap_suffix s).length_le.trans_lt hn)
  obtain ⟨c₂, b₂, hnext', hend₂⟩ := toNext_of_spaced
    (s := { s.inside m with cursor := c, mayBeKey := mayBeKey }) (hgap hspaced)
    ((gap_suffix _).length_le.trans_lt hn')
  rw [hnext, hnext']
  exact .atEnd (s := { s with cursor := c₁, mayBeKey := b₁ }) b₂ hend₁ hend₂

/-- Between tokens of a text within its margin. -/
theorem toNext_arrives {n : Nat} {s : Layout} (hsolid : Solid s.cursor.rest)
    (hn : s.cursor.rest.length < n) :
    Arrives m (s.toNext n) ((s.inside m).toNext (n + m.after.length)) := by
  induction n generalizing s with
  | zero => exact absurd hn (Nat.not_lt_zero _)
  | succ n ih =>
    have hgap := gap_follows m s
    have hsolid' := hsolid.suffix (gap_suffix s)
    by_cases hend : s.gap.rest = []
    · obtain ⟨c, mayBeKey, hnext, hend'⟩ := toNext_of_spaced (n := n + 1 + m.after.length)
        (hgap.spaced hend) (by
          have hlength := (gap_suffix (s.inside m)).length_le
          rw [cursor_inside, rest_inside, List.length_append] at hlength
          omega)
      rw [hnext, toNext_succ, if_neg (by rw [hend]; exact Bool.false_ne_true)]
      exact .atEnd (s := { s with cursor := s.gap }) mayBeKey hend hend'
    · rw [Nat.add_right_comm, toNext_succ, toNext_succ, hgap.eq_inside hend, rest_inside,
        List.head?_append_of_ne_nil _ hend, inFlow_inside, mayBeKey_inside]
      split
      · next hbreak =>
        obtain ⟨d, rest, hrest⟩ := List.exists_cons_of_ne_nil hend
        rw [hrest] at hbreak
        have hlt := length_lt_of_suffix hrest ((gap_suffix s).length_le.trans_lt hn)
          (nextLine_suffix hrest)
        rw [nextLine_inside m hrest hbreak hsolid']
        exact ih (hsolid'.suffix (nextLine_suffix_self _)) hlt
      · exact .within (s := { s with cursor := s.gap }) hend

/-! ### The end -/

/-- The candidates that can still be keys, and the block collections that go on. -/
def settle (s : Layout) : Option Layout :=
  s.dropStale.map fun s => s.dedentTo s.cursor.column

theorem cursor_settle {s s' : Layout} (h : s.settle = some s') : s'.cursor = s.cursor := by
  obtain ⟨t, hdrop, rfl⟩ := Option.map_eq_some_iff.1 h
  exact (cursor_dedentTo t _).trans (cursor_dropStale hdrop)

theorem settle_inside (s : Layout) : (s.inside m).settle = s.settle.map (inside m) := by
  rw [settle, settle, dropStale_inside, Option.map_map, Option.map_map]
  exact congrArg (Option.map · s.dropStale) (funext fun s => dedentTo_inside m s s.cursor.column)

/-- The tokens from a place between tokens on. -/
def runFrom (n : Nat) (s : Layout) : Option (List Token) :=
  match s.cursor.rest with
  | [] => s.settle.bind atEnd
  | d :: rest => (s.settle.bind (·.nextToken d rest)).bind (run n)

theorem run_succ (n : Nat) (s : Layout) :
    s.run (n + 1) = (s.toNext (s.cursor.rest.length + 1)).runFrom n := by
  rw [run, runFrom]
  generalize s.toNext (s.cursor.rest.length + 1) = t
  have hcursor {u : Layout} (hdrop : t.dropStale = some u) :
      (u.dedentTo u.cursor.column).cursor.rest = t.cursor.rest := by
    rw [cursor_dedentTo, cursor_dropStale hdrop]
  cases hrest : t.cursor.rest with
  | nil =>
    rw [settle, Option.bind_map]
    refine Option.bind_congr fun u hdrop => ?_
    dsimp only [Function.comp_apply]
    rw [hcursor hdrop, hrest]
  | cons d rest =>
    dsimp only
    rw [settle, Option.bind_map, Option.bind_assoc]
    refine Option.bind_congr fun u hdrop => ?_
    dsimp only [Function.comp_apply]
    rw [hcursor hdrop, hrest]
    rfl

/-- Closing down to a column and then further is closing further. -/
theorem closeTo_closeTo {column low : Int} (h : low ≤ column) (indent : Int) (outer : List Int)
    (ts : List Token) :
    closeTo low (closeTo column indent outer ts).1 (closeTo column indent outer ts).2.1
      (closeTo column indent outer ts).2.2 = closeTo low indent outer ts := by
  induction outer generalizing indent ts with
  | nil => rfl
  | cons o outer ih =>
    rw [closeTo]
    split
    · next hcolumn =>
      have hlow : low < indent := by omega
      rw [ih]
      exact (if_pos hlow).symm
    · rfl

/-- A candidate that must be a key is missed at the end if not before. -/
theorem keep_bind_giveUp (c : Cursor) (k : Option Candidate) :
    (keep c k).bind giveUp = giveUp k := by
  cases k with
  | none => rfl
  | some k =>
    rw [keep, giveUp]
    split_ifs with hstale hrequired hrequired
    · rfl
    · rfl
    · simp [giveUp, hrequired]
    · simp [giveUp, hrequired]

theorem dedentTo_eq {s : Layout} (hflow : s.outerCandidates = []) (column : Int) :
    s.dedentTo column =
      { s with
        indent := (closeTo column s.indent s.outerIndents s.reversed).1
        outerIndents := (closeTo column s.indent s.outerIndents s.reversed).2.1
        reversed := (closeTo column s.indent s.outerIndents s.reversed).2.2 } := by
  rw [dedentTo, inFlow, hflow]
  rfl

theorem atEnd_eq {s : Layout} (hflow : s.outerCandidates = []) :
    s.atEnd = (giveUp s.candidate).map fun _ =>
      (.streamEnd :: (closeTo (-1) s.indent s.outerIndents s.reversed).2.2).reverse := by
  rw [atEnd, closeAll, dedentTo_eq hflow, dropCandidate]
  cases giveUp s.candidate <;> rfl

/-- At the end of a text what remains depends only on the block collections that are open and on
whether a candidate must be a key. -/
theorem settle_bind_atEnd {s : Layout} (hflow : s.outerCandidates = []) :
    s.settle.bind atEnd =
      (giveUp s.candidate).map fun _ =>
        (.streamEnd :: (closeTo (-1) s.indent s.outerIndents s.reversed).2.2).reverse := by
  have hdrop : s.dropStale = (keep s.cursor s.candidate).map fun k => { s with candidate := k } := by
    obtain ⟨cursor, reversed, indent, outer, candidate, outerCandidates, mayBeKey⟩ := s
    cases hflow
    rw [dropStale]
    dsimp only
    cases keep cursor candidate <;> rfl
  rw [settle, hdrop, Option.map_map, Option.bind_map, ← keep_bind_giveUp s.cursor, Option.map_bind]
  refine Option.bind_congr fun k _ => ?_
  have hlow : (-1 : Int) ≤ s.cursor.column := by omega
  dsimp only [Function.comp_apply]
  rw [dedentTo_eq (s := { s with candidate := k }) hflow, atEnd_eq (by exact hflow)]
  dsimp only
  rw [closeTo_closeTo hlow]

/-! ### Runs -/

/-- Whether the text ends inside a block scalar or a flow collection. -/
def endsOpen : Nat → Layout → Bool
  | 0, _ => false
  | n + 1, s =>
    let s := s.toNext (s.cursor.rest.length + 1)
    match s.cursor.rest with
    | [] => s.inFlow
    | d :: rest =>
      match s.settle.bind (·.nextToken d rest) with
      | none => false
      | some next => ((d == '|' || d == '>') && next.cursor.rest.isEmpty) || endsOpen n next

/-- A text that does not end open has the same tokens within its margin. -/
theorem run_follows {n n' : Nat} {s s' : Layout} (hfollows : Follows m s s')
    (hsolid : Solid s.cursor.rest) (hn : s.cursor.rest.length < n) (hn' : n ≤ n')
    (hopen : endsOpen n s = false) : s'.run n' = s.run n := by
  induction n generalizing n' s s' with
  | zero => exact absurd hn (Nat.not_lt_zero _)
  | succ n ih =>
    obtain ⟨n', rfl⟩ : ∃ k, n' = k + 1 := ⟨n' - 1, by omega⟩
    have harrives : Arrives m (s.toNext (s.cursor.rest.length + 1))
        (s'.toNext (s'.cursor.rest.length + 1)) := by
      cases hfollows with
      | within =>
        rw [cursor_inside, rest_inside, List.length_append, Nat.add_right_comm]
        exact toNext_arrives m hsolid (Nat.lt_succ_self _)
      | beyond mayBeKey hend hspaced =>
        exact toNext_arrives_of_end m hend hspaced (Nat.lt_succ_self _) (Nat.lt_succ_self _)
    have hsuffix := toNext_suffix (s.cursor.rest.length + 1) s
    rw [endsOpen] at hopen
    rw [run_succ, run_succ]
    generalize s.toNext (s.cursor.rest.length + 1) = t at harrives hsuffix hopen ⊢
    generalize s'.toNext (s'.cursor.rest.length + 1) = t' at harrives ⊢
    cases harrives with
    | atEnd mayBeKey hend hend' =>
      rw [hend] at hopen
      have hflow : t.outerCandidates = [] := by simpa [inFlow] using hopen
      have hflow' : (t.inside m).outerCandidates = [] := by rw [outerCandidates_inside, hflow]; rfl
      rw [runFrom, runFrom, hend, hend']
      dsimp only
      rw [settle_bind_atEnd hflow, settle_bind_atEnd (by exact hflow')]
      dsimp only
      rw [candidate_inside, giveUp_inside]
      rfl
    | within hmore =>
      obtain ⟨d, rest, hrest⟩ := List.exists_cons_of_ne_nil hmore
      rw [hrest] at hopen
      rw [runFrom, runFrom, cursor_inside, rest_inside, hrest, List.cons_append, settle_inside]
      dsimp only at hopen ⊢
      rw [Option.bind_map]
      cases hsettle : t.settle with
      | none => rfl
      | some u =>
        have hcursor := cursor_settle hsettle
        rw [hsettle, Option.bind_some] at hopen
        rw [Option.bind_some, Option.bind_some]
        rw [← hcursor] at hrest
        have hsolid' : Solid u.cursor.rest := hcursor ▸ hsolid.suffix hsuffix
        have hstops : (d == '|' || d == '>') = true → Stops (u.nextToken d rest) := by
          intro hblock next hnext hend
          rw [hnext] at hopen
          simp [hblock, hend] at hopen
        obtain ⟨hnone, hnone'⟩ | ⟨next, next', hnext, hnext', hfollows'⟩ :=
          rel_cases (nextToken_rel m hrest hsolid' hstops)
        · rw [hnone]
          exact congrArg (Option.bind · (run n')) hnone'
        · have hsuffix' := nextToken_suffix hrest hnext
          have hlt : u.cursor.rest.length < n + 1 := hcursor ▸ hsuffix.length_le.trans_lt hn
          rw [hnext] at hopen
          rw [hnext]
          refine (congrArg (Option.bind · (run n')) hnext').trans ?_
          exact ih hfollows' (hsolid'.suffix (hsuffix'.trans (hrest ▸ List.suffix_cons d rest)))
            (length_lt_of_suffix hrest hlt hsuffix') (Nat.le_of_succ_le_succ hn')
            (Bool.or_eq_false_iff.1 hopen).2

/-! ### Blank lines -/

/-- The spaces of a blank line are passed over. -/
theorem gap_blankLine {s : Layout} {spaces rest : List Char} {d : Char}
    (hspaces : ∀ e ∈ spaces, e = ' ') (hd : isBreak d = true)
    (hrest : s.cursor.rest = spaces ++ d :: rest) :
    s.gap = s.cursor.advanceBy spaces.length := by
  have hother : (d != ' ' && d != '\t' && d != '#' && d != '\uFEFF') = true := by
    have hspacing : isSpacing d = true := by simp [isSpacing, hd]
    have := of_isSpacing (d := d)
      (p := fun d => !isBreak d || (d != ' ' && d != '\t' && d != '#' && d != '\uFEFF'))
      (by decide) hspacing
    simpa [hd] using this
  simp only [Bool.and_eq_true, bne_iff_ne] at hother
  obtain ⟨⟨⟨hspace, htab⟩, hhash⟩, hmark⟩ := hother
  have hsees : s.cursor.sees '\uFEFF' = false := by
    rw [sees, hrest]
    cases spaces with
    | nil => simpa using hmark
    | cons e spaces =>
      rw [hspaces e List.mem_cons_self]
      rfl
  rw [gap, hsees, Bool.and_false, if_neg Bool.false_ne_true, pastComment]
  have hskip {p : Char → Bool} (hp : p ' ' = true) (hpd : p d = false) :
      s.cursor.skip p = s.cursor.advanceBy spaces.length := by
    rw [skip, Cursor.run, hrest, List.takeWhile_append_of_pos fun e he => hspaces e he ▸ hp,
      List.takeWhile_cons, hpd, if_neg Bool.false_ne_true, List.append_nil]
  rw [hskip (by simp) (by simp [hspace, htab])]
  have hnext : (s.cursor.advanceBy spaces.length).sees '#' = false := by
    rw [sees, advanceBy, hrest, List.drop_left]
    simpa using hhash
  rw [hnext, if_neg Bool.false_ne_true]

/-- The break of a blank line, which is not torn apart by what stands below. -/
theorem nextLine_blankLine (d : Char) (lines : List Char) {rest : List Char}
    (hrest : rest.head? ≠ some '\n') (i l k : Nat) :
    ∃ taken lines', lines = taken ++ lines' ∧
      nextLine ⟨d :: (lines ++ rest), i, l, k⟩ =
        ⟨lines' ++ rest, i + 1 + taken.length, l + 1, 0⟩ := by
  by_cases hpair : d = '\r' ∧ (lines ++ rest).head? = some '\n'
  · obtain ⟨rfl, hhead⟩ := hpair
    cases lines with
    | nil => exact absurd hhead hrest
    | cons e lines =>
      obtain rfl : e = '\n' := by simpa using hhead
      exact ⟨['\n'], lines, rfl, nextLine_pair _ i l k⟩
  · exact ⟨[], lines, rfl, nextLine_single hpair i l k⟩

theorem toNext_blankLines {n n' : Nat} {lead rest : List Char} {i l : Nat} {s : Layout}
    (hlead : BlankLines lead) (hrest : rest.head? ≠ some '\n') (hkey : s.mayBeKey = true)
    (hn : (lead ++ rest).length < n) (hn' : rest.length < n') :
    ∃ k, toNext n { s with cursor := ⟨lead ++ rest, i, l, 0⟩ } =
      toNext n' { s with cursor := ⟨rest, i + lead.length, l + k, 0⟩ } := by
  induction n generalizing lead i l with
  | zero => exact absurd hn (Nat.not_lt_zero _)
  | succ n ih =>
    by_cases hnil : lead = []
    · subst hnil
      exact ⟨0, toNext_fuel hn' hn⟩
    obtain ⟨spaces, d, lines, rfl, hspaces, hd⟩ := hlead.exists_line hnil
    have hline : spaces ++ d :: lines ++ rest = spaces ++ d :: (lines ++ rest) := by
      rw [List.append_assoc, List.cons_append]
    have hgap := gap_blankLine (s := { s with cursor := ⟨spaces ++ d :: lines ++ rest, i, l, 0⟩ })
      hspaces hd hline
    have hgap_rest : gap { s with cursor := ⟨spaces ++ d :: lines ++ rest, i, l, 0⟩ } =
        ⟨d :: (lines ++ rest), i + spaces.length, l, 0 + spaces.length⟩ := by
      rw [hgap, advanceBy]
      simp
    obtain ⟨taken, lines, rfl, hnext⟩ :=
      nextLine_blankLine d lines hrest (i + spaces.length) l (0 + spaces.length)
    have hlines : BlankLines lines := hlead.suffix
      ⟨spaces ++ d :: taken, by rw [List.append_assoc, List.cons_append]⟩
    obtain ⟨k, hk⟩ := ih (i := i + spaces.length + 1 + taken.length) (l := l + 1) hlines (by
      simp only [List.length_append, List.length_cons] at hn ⊢
      omega)
    refine ⟨1 + k, ?_⟩
    have hindex : i + spaces.length + 1 + taken.length + lines.length =
        i + (spaces ++ d :: (taken ++ lines)).length := by
      simp only [List.length_append, List.length_cons]
      omega
    rw [hindex, Nat.add_assoc l 1 k] at hk
    rw [toNext_succ, hgap_rest, if_pos (by exact hd), hnext, ← hk, hkey, Bool.true_or, ← hkey]

end Layout

/-! ### Texts -/

/-- Whether a text ends inside a block scalar or a flow collection. -/
def endsOpen (cs : List Char) : Bool :=
  (Layout.start cs).endsOpen (cs.length + 1)

theorem all_isAllowed_of_spaced {cs : List Char} (h : Spaced cs) : cs.all isAllowed = true :=
  List.all_eq_true.2 fun _ hd => of_isSpacing (by decide) (h _ hd)

/-- The tokens below blank lines, which do not tear the first break of the rest apart. -/
theorem run_margin {lead body trail : List Char} (hlead : BlankLines lead) (htrail : Spaced trail)
    (hfirst : (body ++ trail).head? ≠ some '\n') (hsolid : Solid body)
    (hopen : endsOpen body = false) :
    (Layout.start (lead ++ (body ++ trail))).run ((lead ++ (body ++ trail)).length + 1) =
      (Layout.start body).run (body.length + 1) := by
  obtain ⟨k, hk⟩ := Layout.toNext_blankLines (i := 0) (l := 0) (s := Layout.start []) hlead hfirst rfl
    (Nat.lt_succ_self _) (Nat.lt_succ_self _)
  let m : Margin := ⟨lead.length, k, trail, htrail⟩
  have hle : body.length + 1 ≤ (lead ++ (body ++ trail)).length + 1 := by
    simp only [List.length_append]
    omega
  calc (Layout.start (lead ++ (body ++ trail))).run ((lead ++ (body ++ trail)).length + 1)
      = ((Layout.start body).inside m).run ((lead ++ (body ++ trail)).length + 1) := by
        rw [Layout.run_succ, Layout.run_succ]
        exact congrArg (Layout.runFrom _) hk
    _ = (Layout.start body).run (body.length + 1) :=
        Layout.run_follows m (.within _) hsolid (Nat.lt_succ_self _) hle hopen

/-- **A text that does not end open has the same tokens below blank lines and with spaces and
breaks after it.** -/
theorem tokens_margin {lead body trail : List Char} (hlead : BlankLines lead) (htrail : Spaced trail)
    (hfirst : ∀ d, body.head? = some d → Text.isBlank d = false) (hsolid : Solid body)
    (hopen : endsOpen body = false) : tokens (lead ++ (body ++ trail)) = tokens body := by
  have hallowed : (lead ++ (body ++ trail)).all isAllowed = body.all isAllowed := by
    rw [List.all_append, List.all_append, all_isAllowed_of_spaced hlead.1,
      all_isAllowed_of_spaced htrail, Bool.true_and, Bool.and_true]
  have hrun : (Layout.start (lead ++ (body ++ trail))).run ((lead ++ (body ++ trail)).length + 1) =
      (Layout.start body).run (body.length + 1) := by
    cases body with
    | nil =>
      -- All of the text is margin, whichever way it is divided.
      have hspaced : Spaced (lead ++ trail) := fun d hd =>
        (List.mem_append.1 hd).elim (hlead.1 d) (htrail d)
      exact Layout.run_follows ⟨0, 0, lead ++ trail, hspaced⟩ (.within (Layout.start []))
        hsolid (Nat.lt_succ_self _) (Nat.le_add_left 1 _) hopen
    | cons d rest =>
      refine run_margin hlead htrail (fun hhead => ?_) hsolid hopen
      have hblank := hfirst d rfl
      rw [Option.some.inj hhead] at hblank
      exact absurd hblank (by decide)
  rw [tokens, tokens, hallowed, hrun]

end UiSuite.Yaml
