/-! Searching and splitting texts.

Texts are searched as lists of characters. A split never loses a character: the
two parts with the separator between them are the text again
(`eq_of_splitFirst`). Letters fold by ASCII case only, so texts that differ
outside ASCII are never taken for equal. -/
namespace UiSuite.Text

/-- Whether `needle` stands somewhere in the text; the empty needle always does. -/
def occursIn (needle : List Char) : List Char → Bool
  | [] => needle.isEmpty
  | c :: cs => needle.isPrefixOf (c :: cs) || occursIn needle cs

/-- Whether one text stands somewhere in another. -/
def contains (text part : String) : Bool :=
  occursIn part.toList text.toList

theorem occursIn_iff {needle cs : List Char} : occursIn needle cs = true ↔ needle <:+: cs := by
  induction cs with
  | nil => rw [occursIn, List.isEmpty_iff, List.infix_nil]
  | cons c cs ih =>
    rw [occursIn, Bool.or_eq_true, ih, List.isPrefixOf_iff_prefix, List.infix_cons_iff]

/-- A text contains another one exactly if that is a run of its characters. -/
theorem contains_iff {text part : String} :
    contains text part = true ↔ part.toList <:+: text.toList :=
  occursIn_iff

@[simp] theorem contains_empty (text : String) : contains text "" = true :=
  contains_iff.2 List.nil_infix

@[simp] theorem contains_self (text : String) : contains text text = true :=
  contains_iff.2 List.infix_rfl

/-- The parts before and after the first `sep`. -/
def splitFirst (sep : Char) : List Char → Option (List Char × List Char)
  | [] => none
  | c :: cs =>
    if c = sep then some ([], cs)
    else (splitFirst sep cs).map fun (before, after) => (c :: before, after)

/-- The parts before and after the last `sep`. -/
def splitLast (sep : Char) (cs : List Char) : Option (List Char × List Char) :=
  (splitFirst sep cs.reverse).map fun (after, before) => (before.reverse, after.reverse)

/-- The pieces between separators; a text without one is a single piece. -/
def pieces (sep : Char) : List Char → List (List Char)
  | [] => [[]]
  | c :: cs =>
    if c = sep then [] :: pieces sep cs
    else match pieces sep cs with
      | [] => [[c]]
      | p :: ps => (c :: p) :: ps

/-- The text after a given beginning. -/
def dropBeginning (beginning text : List Char) : Option (List Char) :=
  if beginning.isPrefixOf text then some (text.drop beginning.length) else none

theorem eq_of_splitFirst {sep : Char} {cs before after : List Char}
    (h : splitFirst sep cs = some (before, after)) : cs = before ++ sep :: after := by
  induction cs generalizing before with
  | nil => simp [splitFirst] at h
  | cons c cs ih =>
    by_cases hc : c = sep
    · simp only [splitFirst, hc, if_true, Option.some.injEq, Prod.mk.injEq] at h
      simp [← h.1, ← h.2, hc]
    · simp only [splitFirst, hc, if_false, Option.map_eq_some_iff] at h
      obtain ⟨⟨b, a⟩, hs, he⟩ := h
      simp only [Prod.mk.injEq] at he
      rw [ih (by rw [hs, he.2]), ← he.1, List.cons_append]

theorem splitFirst_eq_none {sep : Char} {cs : List Char} (h : sep ∉ cs) :
    splitFirst sep cs = none := by
  induction cs with
  | nil => rfl
  | cons c cs ih =>
    have hne : c ≠ sep := fun he => h (he ▸ List.mem_cons_self)
    rw [splitFirst, if_neg hne, ih fun hmem => h (List.mem_cons_of_mem c hmem)]
    rfl

theorem splitFirst_append {sep : Char} {before : List Char} (h : sep ∉ before)
    (after : List Char) : splitFirst sep (before ++ sep :: after) = some (before, after) := by
  induction before with
  | nil => simp [splitFirst]
  | cons c cs ih =>
    have hne : c ≠ sep := fun he => h (he ▸ List.mem_cons_self)
    have hrest : sep ∉ cs := fun hmem => h (List.mem_cons_of_mem c hmem)
    rw [List.cons_append, splitFirst, if_neg hne, ih hrest]
    rfl

theorem splitLast_append {sep : Char} {after : List Char} (h : sep ∉ after)
    (before : List Char) : splitLast sep (before ++ sep :: after) = some (before, after) := by
  have hreverse : (before ++ sep :: after).reverse = after.reverse ++ sep :: before.reverse := by
    simp
  have hnone : sep ∉ after.reverse := fun hmem => h (List.mem_reverse.1 hmem)
  rw [splitLast, hreverse, splitFirst_append hnone]
  simp

theorem eq_of_splitLast {sep : Char} {cs before after : List Char}
    (h : splitLast sep cs = some (before, after)) : cs = before ++ sep :: after := by
  obtain ⟨⟨a, b⟩, hsplit, heq⟩ := Option.map_eq_some_iff.1 h
  cases heq
  have hcs := congrArg List.reverse (eq_of_splitFirst hsplit)
  rw [List.reverse_reverse, List.reverse_append, List.reverse_cons, List.append_assoc] at hcs
  exact hcs

/-- The first piece is what stands before the first separator. -/
theorem pieces_eq_cons (sep : Char) (cs : List Char) :
    ∃ further, pieces sep cs = cs.takeWhile (· != sep) :: further := by
  induction cs with
  | nil => exact ⟨[], rfl⟩
  | cons c cs ih =>
    by_cases hc : c = sep
    · exact ⟨pieces sep cs, by simp [pieces, hc]⟩
    · obtain ⟨further, hpieces⟩ := ih
      exact ⟨further, by simp [pieces, hc, hpieces]⟩

theorem pieces_of_not_mem {sep : Char} {cs : List Char} (h : sep ∉ cs) :
    pieces sep cs = [cs] := by
  induction cs with
  | nil => rfl
  | cons c cs ih =>
    have hne : c ≠ sep := fun he => h (he ▸ List.mem_cons_self)
    simp [pieces, hne, ih fun hmem => h (List.mem_cons_of_mem c hmem)]

/-- Pieces have what the text has but the separator. -/
theorem mem_of_mem_pieces {sep : Char} {cs piece : List Char} (h : piece ∈ pieces sep cs) :
    ∀ c ∈ piece, c ∈ cs ∧ c ≠ sep := by
  induction cs generalizing piece with
  | nil =>
    obtain rfl := List.mem_singleton.1 h
    exact nofun
  | cons d cs ih =>
    have hrest {piece : List Char} (h : piece ∈ pieces sep cs) : ∀ c ∈ piece, c ∈ d :: cs ∧ c ≠ sep :=
      fun c hc => ⟨List.mem_cons_of_mem d (ih h c hc).1, (ih h c hc).2⟩
    by_cases hd : d = sep
    · rw [pieces, if_pos hd, List.mem_cons] at h
      rcases h with rfl | h
      · exact nofun
      · exact hrest h
    · obtain ⟨further, hpieces⟩ := pieces_eq_cons sep cs
      rw [hpieces] at hrest
      rw [pieces, if_neg hd, hpieces, List.mem_cons] at h
      rcases h with rfl | h
      · exact List.forall_mem_cons.2 ⟨⟨List.mem_cons_self, hd⟩, hrest List.mem_cons_self⟩
      · exact hrest (List.mem_cons_of_mem _ h)

/-- A separator divides the pieces before it from those after it. -/
theorem pieces_append (sep : Char) (cs rest : List Char) :
    pieces sep (cs ++ sep :: rest) = pieces sep cs ++ pieces sep rest := by
  induction cs with
  | nil => simp [pieces]
  | cons c cs ih =>
    by_cases hc : c = sep
    · simp [pieces, hc, ih]
    · obtain ⟨further, hpieces⟩ := pieces_eq_cons sep cs
      simp [pieces, hc, ih, hpieces]

/-- A text with its ASCII capitals made small. -/
def foldCase (s : String) : List Char :=
  s.toList.map Char.toLower

/-- Equality up to ASCII case. -/
def equalFold (a b : String) : Bool :=
  foldCase a == foldCase b

end UiSuite.Text
