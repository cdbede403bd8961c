import UiSuite.Proofs.Yaml.Margin
import UiSuite.Yaml.Mark

/-! Marks in a text with a margin.

Names, tags and directives hold no spaces and no breaks, so within a margin they are read as they
are without it. Reading one never goes back in the text. -/
namespace UiSuite.Yaml
open Cursor

variable (m : Margin)

/-! ### Anchors -/

theorem anchorName_inside (c : Cursor) :
    anchorName (c.inside m) = (anchorName c).map (carry m) := by
  have hrun := run_inside m (p := isWord) (by decide) c
  rw [anchorName, anchorName, hrun]
  dsimp only
  rw [rest_inside, atGap_append, head?_any_append m (by decide)]
  split
  · rfl
  split <;> rfl

theorem anchorName_suffix {c c' : Cursor} {name : String} (h : anchorName c = some (name, c')) :
    c'.rest <:+ c.rest := by
  rw [anchorName] at h
  dsimp only at h
  split at h
  · cases h
  split at h
  · cases h
    rw [rest_run]
    exact List.dropWhile_suffix _
  · cases h

/-! ### Tags -/

/-- The number of an escaped octet that comes next. -/
def octetValue? : List Char → Option Nat
  | p :: rest => if p = '%' then digitsValue? 2 rest else none
  | [] => none

theorem octet_eq (c : Cursor) : octet c = (octetValue? c.rest).map (·, c.advanceBy 3) := by
  obtain ⟨cs, i, l, k⟩ := c
  match cs with
  | [] => rfl
  | p :: rest =>
    by_cases hp : p = '%'
    · subst hp
      match rest with
      | [] | [_] | _ :: _ :: _ => rfl
    · simp [octet, octetValue?, hp]

theorem le_length_of_octetValue? {cs : List Char} {b : Nat} (h : octetValue? cs = some b) :
    3 ≤ cs.length := by
  match cs with
  | [] => cases h
  | p :: rest =>
    rw [octetValue?] at h
    split at h
    · exact Nat.succ_le_succ (le_length_of_digitsValue? h)
    · cases h

theorem octetValue?_append (cs : List Char) : octetValue? (cs ++ m.after) = octetValue? cs := by
  cases cs with
  | cons p rest => exact congrArg (if p = '%' then · else none) (digitsValue?_append m 2 rest)
  | nil =>
    cases h : m.after with
    | nil => rfl
    | cons d rest =>
      have hd : d ≠ '%' := by
        simpa using of_isSpacing (p := (· != '%')) (by decide) (m.spaced.head h)
      exact if_neg hd

theorem octet_inside (c : Cursor) : octet (c.inside m) = (octet c).map (carry m) := by
  rw [octet_eq, octet_eq, rest_inside, octetValue?_append]
  cases h : octetValue? c.rest with
  | none => rfl
  | some b => exact congrArg (fun c => some (b, c)) (advanceBy_inside m (le_length_of_octetValue? h))

theorem octet_suffix {c c' : Cursor} {b : Nat} (h : octet c = some (b, c')) :
    c'.rest <:+ c.rest.tail := by
  rw [octet_eq] at h
  obtain ⟨_, -, heq⟩ := Option.map_eq_some_iff.1 h
  cases heq
  show c.rest.drop 3 <:+ c.rest.tail
  rw [← List.drop_drop (i := 2) (j := 1), List.drop_one]
  exact List.drop_suffix 2 _

theorem furtherOctets_inside (n code : Nat) (c : Cursor) :
    furtherOctets n code (c.inside m) = (furtherOctets n code c).map (carry m) := by
  induction n generalizing code c with
  | zero => rfl
  | succ n ih =>
    simp only [furtherOctets, octet_inside, Option.bind_eq_bind, bind_carry, Option.map_bind]
    refine Option.bind_congr fun ⟨b, c'⟩ _ => ?_
    dsimp only [Function.comp_apply]
    rw [ih]
    split <;> rfl

theorem furtherOctets_suffix {n code : Nat} {c c' : Cursor} {b : Nat}
    (h : furtherOctets n code c = some (b, c')) : c'.rest <:+ c.rest := by
  induction n generalizing code c with
  | zero =>
    cases h
    exact List.suffix_refl _
  | succ n ih =>
    obtain ⟨⟨b, next⟩, hoctet, h⟩ := Option.bind_eq_some_iff.1 h
    dsimp only at h
    split at h
    · exact (ih h).trans ((octet_suffix hoctet).trans (List.tail_suffix _))
    · cases h

theorem escapedChar_inside (c : Cursor) :
    escapedChar (c.inside m) = (escapedChar c).map (carry m) := by
  simp only [escapedChar, octet_inside, Option.bind_eq_bind, bind_carry, Option.map_bind]
  refine Option.bind_congr fun ⟨b, c'⟩ _ => ?_
  have hfurther (further start : Nat) :
      ((furtherOctets further start (c'.inside m)).bind fun p =>
        if p.1.isValidChar then some (Char.ofNat p.1, p.2) else none) =
      ((furtherOctets further start c').bind fun p =>
        if p.1.isValidChar then some (Char.ofNat p.1, p.2) else none).map (carry m) := by
    rw [furtherOctets_inside, bind_carry, Option.map_bind]
    refine Option.bind_congr fun ⟨code, c''⟩ _ => ?_
    dsimp only [Function.comp_apply]
    split <;> rfl
  dsimp only [Function.comp_apply]
  split_ifs
  · exact hfurther 0 b
  · exact hfurther 1 (b % 32)
  · exact hfurther 2 (b % 16)
  · exact hfurther 3 (b % 8)
  · rfl

theorem escapedChar_suffix {c c' : Cursor} {e : Char} (h : escapedChar c = some (e, c')) :
    c'.rest <:+ c.rest.tail := by
  obtain ⟨⟨b, first⟩, hoctet, h⟩ := Option.bind_eq_some_iff.1 h
  have hfurther {further start : Nat} (h : ((furtherOctets further start first).bind fun p =>
      if p.1.isValidChar then some (Char.ofNat p.1, p.2) else none) = some (e, c')) :
      c'.rest <:+ c.rest.tail := by
    obtain ⟨⟨code, next⟩, hnext, h⟩ := Option.bind_eq_some_iff.1 h
    dsimp only at h
    split at h
    · cases h
      exact (furtherOctets_suffix hnext).trans (octet_suffix hoctet)
    · cases h
  dsimp only at h
  simp only [Option.bind_eq_bind, Option.bind_some, Option.bind_none] at h
  split_ifs at h
  · exact hfurther h
  · exact hfurther h
  · exact hfurther h
  · exact hfurther h

theorem isTagChar_spacing (whole : Bool) {d : Char} (h : isSpacing d = true) :
    isTagChar whole d = false := by
  have hall := of_isSpacing (p := fun d => !isTagChar true d && !isTagChar false d) (by decide) h
  cases whole <;> simp_all

/-- No tag goes on with a space or a break. -/
theorem tagChars_of_spaced (whole : Bool) (n : Nat) (acc : List Char) {c : Cursor}
    (h : Spaced c.rest) : tagChars whole n acc c = some (acc, c) := by
  cases n with
  | zero => rfl
  | succ n =>
    rw [tagChars]
    split
    · rfl
    · next d rest hrest =>
      have hd : isSpacing d = true := h.head hrest
      have hpercent : (d == '%') = false := by
        simpa using of_isSpacing (p := (· != '%')) (by decide) hd
      rw [hpercent, isTagChar_spacing whole hd]
      rfl

/-- The characters of a tag, with as much fuel as there are characters. -/
theorem tagChars_inside (whole : Bool) {n : Nat} {acc : List Char} {c : Cursor}
    (hn : c.rest.length < n) :
    tagChars whole (n + m.after.length) acc (c.inside m) =
      (tagChars whole n acc c).map (carry m) := by
  induction n generalizing acc c with
  | zero => exact absurd hn (Nat.not_lt_zero _)
  | succ n ih =>
    cases hrest : c.rest with
    | nil =>
      rw [tagChars, hrest]
      exact tagChars_of_spaced whole _ acc (spaced_inside m hrest)
    | cons d rest =>
      have hmore : c.rest ≠ [] := by simp [hrest]
      rw [Nat.add_right_comm, tagChars, tagChars, rest_inside, hrest]
      simp only [List.cons_append]
      split_ifs
      · rw [escapedChar_inside, Option.bind_eq_bind, bind_carry, Option.map_bind]
        refine Option.bind_congr fun ⟨e, c'⟩ hescaped => ?_
        have hsuffix := escapedChar_suffix hescaped
        rw [hrest] at hsuffix
        exact ih (length_lt_of_suffix hrest hn hsuffix)
      · rw [advance_inside m hmore]
        exact ih (length_lt_of_suffix hrest hn (rest_advance hrest ▸ List.suffix_refl _))
      · rfl

theorem tagChars_suffix {whole : Bool} {n : Nat} {acc cs : List Char} {c c' : Cursor}
    (h : tagChars whole n acc c = some (cs, c')) : c'.rest <:+ c.rest := by
  induction n generalizing acc c with
  | zero =>
    cases h
    exact List.suffix_refl _
  | succ n ih =>
    rw [tagChars] at h
    split at h
    · cases h
      exact List.suffix_refl _
    split_ifs at h
    · obtain ⟨⟨e, next⟩, hnext, h⟩ := Option.bind_eq_some_iff.1 h
      exact (ih h).trans ((escapedChar_suffix hnext).trans (List.tail_suffix _))
    · exact (ih h).trans (List.tail_suffix _)
    · cases h
      exact List.suffix_refl _

theorem tagText_inside (whole : Bool) (c : Cursor) :
    tagText whole (c.inside m) = (tagText whole c).map (carry m) := by
  rw [tagText, tagText, rest_inside, List.length_append, Nat.add_right_comm,
    tagChars_inside m whole (Nat.lt_succ_self _)]
  simp only [Option.bind_eq_bind, bind_carry, Option.map_bind]
  rfl

theorem tagText_of_spaced (whole : Bool) {c : Cursor} (h : Spaced c.rest) :
    tagText whole c = some ("", c) := by
  rw [tagText, tagChars_of_spaced whole _ _ h]
  rfl

theorem tagText_suffix {whole : Bool} {c c' : Cursor} {text : String}
    (h : tagText whole c = some (text, c')) : c'.rest <:+ c.rest := by
  obtain ⟨⟨cs, next⟩, hnext, h⟩ := Option.bind_eq_some_iff.1 h
  cases h
  exact tagChars_suffix hnext

theorem handleWord_inside (c : Cursor) :
    handleWord (c.inside m) =
      ((handleWord c).1, (handleWord c).2.1, (handleWord c).2.2.inside m) := by
  rw [handleWord, handleWord, run_inside m (by decide)]
  dsimp only
  rw [sees_inside m (by decide)]
  split
  · next hsees =>
    have hne : (c.run isWord).2.rest ≠ [] := by
      intro hnil
      rw [sees, hnil] at hsees
      cases hsees
    rw [advance_inside m hne]
  · rfl

theorem handleWord_suffix (c : Cursor) : (handleWord c).2.2.rest <:+ c.rest := by
  have hrun : (c.run isWord).2.rest <:+ c.rest := rest_run isWord c ▸ List.dropWhile_suffix _
  rw [handleWord]
  dsimp only
  split
  · exact (List.tail_suffix _).trans hrun
  · exact hrun

theorem expect_suffix {d : Char} {c c' : Cursor} (h : c.expect d = some c') :
    c'.rest <:+ c.rest := by
  rw [expect] at h
  split at h
  · cases h
    exact List.tail_suffix _
  · cases h

/-- A tag from its mark. -/
theorem tag_inside {c : Cursor} (h : c.rest ≠ []) :
    tag (c.inside m) = (tag c).map fun (handle, suffix, c) => (handle, suffix, c.inside m) := by
  rw [tag, tag, advance_inside m h]
  dsimp only
  rw [sees_inside m (by decide)]
  split
  · next hsees =>
    have hne : c.advance.rest ≠ [] := by
      intro hnil
      rw [sees, hnil] at hsees
      cases hsees
    rw [advance_inside m hne, tagText_inside]
    simp only [Option.bind_eq_bind, bind_carry, Option.map_bind]
    refine Option.bind_congr fun p _ => ?_
    obtain ⟨text, c'⟩ := p
    dsimp only [Function.comp_apply]
    split
    · rfl
    · rw [expect_inside m (by decide)]
      cases c'.expect '>' <;> rfl
  · rw [handleWord_inside]
    dsimp only
    rw [tagText_inside]
    simp only [Option.bind_eq_bind, bind_carry, Option.map_bind]
    refine Option.bind_congr fun p _ => ?_
    obtain ⟨suffix, c'⟩ := p
    dsimp only [Function.comp_apply]
    split
    · split <;> rfl
    · split <;> rfl

theorem tag_suffix {c c' : Cursor} {handle suffix : String}
    (h : tag c = some (handle, suffix, c')) : c'.rest <:+ c.rest.tail := by
  rw [tag] at h
  dsimp only at h
  split at h
  · obtain ⟨⟨text, next⟩, hnext, h⟩ := Option.bind_eq_some_iff.1 h
    dsimp only at h
    split at h
    · cases h
    · obtain ⟨after, hafter, h⟩ := Option.bind_eq_some_iff.1 h
      cases h
      exact (expect_suffix hafter).trans ((tagText_suffix hnext).trans (List.tail_suffix _))
  · obtain ⟨⟨text, next⟩, hnext, h⟩ := Option.bind_eq_some_iff.1 h
    have hsuffix : next.rest <:+ c.rest.tail := (tagText_suffix hnext).trans (handleWord_suffix _)
    dsimp only at h
    split at h
    · split at h
      · cases h
      · cases h
        exact hsuffix
    · split at h
      · cases h
        exact hsuffix
      · cases h
        exact hsuffix

/-! ### Directives -/

theorem versionNumber_inside (c : Cursor) :
    versionNumber (c.inside m) = (versionNumber c).map (carry m) := by
  rw [versionNumber, versionNumber, run_inside m (by decide)]
  dsimp only
  split <;> rfl

theorem versionNumber_suffix {c c' : Cursor} {n : Nat} (h : versionNumber c = some (n, c')) :
    c'.rest <:+ c.rest := by
  rw [versionNumber] at h
  dsimp only at h
  split at h
  · cases h
  · cases h
    exact rest_run _ c ▸ List.dropWhile_suffix _

theorem directiveHandle_inside (c : Cursor) :
    directiveHandle (c.inside m) = (directiveHandle c).map (carry m) := by
  rw [directiveHandle, directiveHandle, expect_inside m (by decide)]
  cases c.expect '!' with
  | none => rfl
  | some c' =>
    simp only [Option.map_some, Option.bind_eq_bind, Option.bind_some, handleWord_inside]
    split
    · rfl
    · split <;> rfl

theorem directiveHandle_suffix {c c' : Cursor} {handle : String}
    (h : directiveHandle c = some (handle, c')) : c'.rest <:+ c.rest := by
  obtain ⟨next, hnext, h⟩ := Option.bind_eq_some_iff.1 h
  have hsuffix : (handleWord next).2.2.rest <:+ c.rest :=
    (handleWord_suffix next).trans (expect_suffix hnext)
  dsimp only at h
  split at h
  · cases h
    exact hsuffix
  · split at h
    · cases h
      exact hsuffix
    · cases h

/-- The rest of a directive that gives the version. -/
def versionLine (c : Cursor) : Option (Token × Cursor) := do
  let (major, c) ← versionNumber c
  let (minor, c) ← versionNumber (← c.expect '.')
  return (.version major minor, ← c.restOfLine)

/-- The rest of a directive that gives a handle its meaning. -/
def handleLine (c : Cursor) : Option (Token × Cursor) := do
  let (handle, c) ← directiveHandle c
  if !c.rest.head?.any isBlank then none
  else
    let (beginning, c) ← tagText true (c.skip isBlank)
    if beginning = "" || !atGap c.rest then none
    else return (.tagHandle handle beginning, ← c.restOfLine)

theorem directive_eq (c : Cursor) :
    directive c =
      let (name, c) := c.advance.run isWord
      if !atGap c.rest then none
      else match String.ofList name with
        | "YAML" => versionLine (c.skip isBlank)
        | "TAG" => handleLine (c.skip isBlank)
        | _ => none :=
  rfl

theorem versionNumber_of_spaced {c : Cursor} (h : Spaced c.rest) : versionNumber c = none := by
  have hrun : (c.run Char.isDigit).1 = [] := takeWhile_of_spaced h (by decide)
  rw [versionNumber]
  dsimp only
  rw [hrun]
  rfl

theorem directiveHandle_of_spaced {c : Cursor} (h : Spaced c.rest) : directiveHandle c = none := by
  rw [directiveHandle, expect, sees_of_spaced h (by decide)]
  rfl

theorem versionLine_rel {c c' : Cursor} (h : Follows m c c') (hsolid : Solid c.rest) :
    Option.Rel (Carries m) (versionLine c) (versionLine c') := by
  rw [versionLine, versionLine]
  by_cases hend : c.rest = []
  · rw [versionNumber_of_spaced (hend ▸ spaced_nil), versionNumber_of_spaced (h.spaced hend)]
    exact .none
  obtain rfl := h.eq_inside hend
  rw [versionNumber_inside]
  refine rel_bind (rel_map (carry m) _) fun ⟨major, c₁⟩ _ hmajor heq => ?_
  cases heq
  dsimp only [carry]
  rw [expect_inside m (by decide)]
  refine rel_bind (rel_map (inside m) _) fun c₂ _ hdot heq => ?_
  cases heq
  rw [versionNumber_inside]
  refine rel_bind (rel_map (carry m) _) fun ⟨minor, c₃⟩ _ hminor heq => ?_
  cases heq
  have hsuffix : c₃.rest <:+ c.rest :=
    (versionNumber_suffix hminor).trans ((expect_suffix hdot).trans (versionNumber_suffix hmajor))
  refine rel_bind ((Follows.within c₃).restOfLine (hsolid.suffix hsuffix)) fun _ _ _ hline => ?_
  exact .some ⟨rfl, hline⟩

theorem versionLine_suffix {c c' : Cursor} {t : Token} (h : versionLine c = some (t, c')) :
    c'.rest <:+ c.rest := by
  obtain ⟨⟨major, c₁⟩, hmajor, h⟩ := Option.bind_eq_some_iff.1 h
  obtain ⟨c₂, hdot, h⟩ := Option.bind_eq_some_iff.1 h
  obtain ⟨⟨minor, c₃⟩, hminor, h⟩ := Option.bind_eq_some_iff.1 h
  obtain ⟨c₄, hline, h⟩ := Option.bind_eq_some_iff.1 h
  cases h
  exact (restOfLine_suffix hline).trans ((versionNumber_suffix hminor).trans
    ((expect_suffix hdot).trans (versionNumber_suffix hmajor)))

theorem handleLine_rel {c c' : Cursor} (h : Follows m c c') (hsolid : Solid c.rest) :
    Option.Rel (Carries m) (handleLine c) (handleLine c') := by
  rw [handleLine, handleLine]
  by_cases hend : c.rest = []
  · rw [directiveHandle_of_spaced (hend ▸ spaced_nil), directiveHandle_of_spaced (h.spaced hend)]
    exact .none
  obtain rfl := h.eq_inside hend
  rw [directiveHandle_inside]
  refine rel_bind (rel_map (carry m) _) fun ⟨handle, c₁⟩ _ hhandle heq => ?_
  cases heq
  dsimp only [carry]
  by_cases hend₁ : c₁.rest = []
  · -- No tag begins in the margin.
    have hspaced := spaced_skip (p := isBlank) (spaced_inside m hend₁)
    rw [tagText_of_spaced true hspaced, if_pos (by rw [hend₁]; rfl)]
    split <;> exact .none
  have hsolid₁ := hsolid.suffix (directiveHandle_suffix hhandle)
  have hmore : (c₁.skip isBlank).rest ≠ [] := by
    rw [rest_skip]
    exact hsolid₁.dropWhile_ne_nil hend₁ fun d => isBlank_of_isBlank
  rw [rest_inside, List.head?_append_of_ne_nil _ hend₁, skip_inside_of_stop m hmore, tagText_inside]
  split
  · exact .none
  refine rel_bind (rel_map (carry m) _) fun ⟨beginning, c₂⟩ _ hbeginning heq => ?_
  cases heq
  have hsolid₂ := hsolid₁.suffix ((tagText_suffix hbeginning).trans (skip_suffix isBlank c₁))
  refine rel_unless (congrArg (beginning = "" || !·) (atGap_append m c₂.rest)) fun _ => ?_
  refine rel_bind ((Follows.within c₂).restOfLine hsolid₂) fun _ _ _ hline => ?_
  exact .some ⟨rfl, hline⟩

theorem handleLine_suffix {c c' : Cursor} {t : Token} (h : handleLine c = some (t, c')) :
    c'.rest <:+ c.rest := by
  obtain ⟨⟨handle, c₁⟩, hhandle, h⟩ := Option.bind_eq_some_iff.1 h
  dsimp only at h
  split at h
  · cases h
  obtain ⟨⟨beginning, c₂⟩, hbeginning, h⟩ := Option.bind_eq_some_iff.1 h
  dsimp only at h
  split at h
  · cases h
  obtain ⟨c₃, hline, h⟩ := Option.bind_eq_some_iff.1 h
  cases h
  exact (restOfLine_suffix hline).trans ((tagText_suffix hbeginning).trans
    ((skip_suffix isBlank c₁).trans (directiveHandle_suffix hhandle)))

/-- A directive, whose line may be the last one. -/
theorem directive_rel {c : Cursor} (hmark : c.rest ≠ []) (hsolid : Solid c.rest) :
    Option.Rel (Carries m) (directive c) (directive (c.inside m)) := by
  have hsuffix : (c.advance.run isWord).2.rest <:+ c.rest := by
    rw [rest_run]
    exact (List.dropWhile_suffix _).trans (List.tail_suffix _)
  have hskip := (Follows.within (m := m) (c.advance.run isWord).2).skip isBlank
  have hsolid' := hsolid.suffix ((skip_suffix isBlank _).trans hsuffix)
  rw [directive_eq, directive_eq, advance_inside m hmark, run_inside m (by decide)]
  dsimp only
  rw [rest_inside, atGap_append]
  split
  · exact .none
  split
  · exact versionLine_rel m hskip hsolid'
  · exact handleLine_rel m hskip hsolid'
  · exact .none

theorem directive_suffix {c c' : Cursor} {t : Token} (h : directive c = some (t, c')) :
    c'.rest <:+ c.rest.tail := by
  have hsuffix : ((c.advance.run isWord).2.skip isBlank).rest <:+ c.rest.tail := by
    refine (skip_suffix _ _).trans ?_
    rw [rest_run]
    exact List.dropWhile_suffix _
  rw [directive_eq] at h
  dsimp only at h
  split at h
  · cases h
  split at h
  · exact (versionLine_suffix h).trans hsuffix
  · exact (handleLine_suffix h).trans hsuffix
  · cases h

end UiSuite.Yaml
