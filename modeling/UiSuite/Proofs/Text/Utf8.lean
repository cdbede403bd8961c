import UiSuite.Text.Utf8

/-! Encoded texts are read back.

The bytes of a character are one piece, that character, wherever they stand between
characters (`foldl_step_encodeChar`), so the pieces of an encoded text are its characters and
reading it loses nothing (`decodeLossy_encode`). -/
namespace UiSuite.Text.Utf8

/-! ### The first byte -/

theorem lead_one {b : Nat} (h : b < 0x80) : lead b = ([.scalar (Char.ofNat b)], none) := by
  rw [lead, if_pos h]

theorem lead_two {b : Nat} (hlow : 0xC2 ≤ b) (hhigh : b ≤ 0xDF) :
    lead b = ([], some ⟨1, 1, b - 0xC0, 0x80, 0xBF⟩) := by
  have h : ¬ b < 0x80 := by omega
  simp [lead, h, hlow, hhigh]

/-- After the first of three bytes the second one is bounded, as shorter forms and halves of
pairs are no characters. -/
theorem lead_three {b : Nat} (hlow : 0xE0 ≤ b) (hhigh : b ≤ 0xEF) :
    lead b = ([], some ⟨1, 2, b - 0xE0, if b = 0xE0 then 0xA0 else 0x80,
      if b = 0xED then 0x9F else 0xBF⟩) := by
  have h1 : ¬ b < 0x80 := by omega
  have h2 : ¬ b ≤ 0xDF := by omega
  by_cases hE0 : b = 0xE0
  · subst hE0; rfl
  · by_cases hED : b = 0xED
    · subst hED; rfl
    · have h3 : 0xE1 ≤ b := by omega
      simp [lead, h1, h2, h3, hhigh, hE0, hED]

theorem lead_four {b : Nat} (hlow : 0xF0 ≤ b) (hhigh : b ≤ 0xF4) :
    lead b = ([], some ⟨1, 3, b - 0xF0, if b = 0xF0 then 0x90 else 0x80,
      if b = 0xF4 then 0x8F else 0xBF⟩) := by
  have hb : b = 0xF0 ∨ b = 0xF1 ∨ b = 0xF2 ∨ b = 0xF3 ∨ b = 0xF4 := by omega
  rcases hb with rfl | rfl | rfl | rfl | rfl <;> rfl

/-! ### The others -/

theorem advance_last {p : Partial} {b : Nat} (hwanted : p.wanted = 1) (hlow : p.low ≤ b)
    (hhigh : b ≤ p.high) :
    advance p b = ([.scalar (Char.ofNat (p.bits * 64 + (b - 0x80)))], none) := by
  simp [advance, hlow, hhigh, hwanted]

theorem advance_more {p : Partial} {b : Nat} (hwanted : 1 < p.wanted) (hlow : p.low ≤ b)
    (hhigh : b ≤ p.high) :
    advance p b =
      ([], some ⟨p.seen + 1, p.wanted - 1, p.bits * 64 + (b - 0x80), 0x80, 0xBF⟩) := by
  have h : ¬ p.wanted ≤ 1 := by omega
  simp [advance, hlow, hhigh, h]

/-! ### Characters -/

theorem step_lead {n : Nat} (hn : n < 256) (ps : List Piece) {out : List Piece}
    {rest : Option Partial} (h : lead n = (out, rest)) :
    step (ps, none) (UInt8.ofNat n) = (out.reverse ++ ps, rest) := by
  have htoNat : (UInt8.ofNat n).toNat = n := UInt8.toNat_ofNat_of_lt' hn
  simp [step, htoNat, h]

theorem step_advance {n : Nat} (hn : n < 256) (ps : List Piece) {p : Partial} {out : List Piece}
    {rest : Option Partial} (h : advance p n = (out, rest)) :
    step (ps, some p) (UInt8.ofNat n) = (out.reverse ++ ps, rest) := by
  have htoNat : (UInt8.ofNat n).toNat = n := UInt8.toNat_ofNat_of_lt' hn
  simp [step, htoNat, h]

/-- **The bytes of a character are that character.** -/
theorem foldl_step_encodeChar (ps : List Piece) (c : Char) :
    (String.utf8EncodeChar c).foldl step (ps, none) = (.scalar c :: ps, none) := by
  have hvalid : c.val.toNat < 0xD800 ∨ 0xDFFF < c.val.toNat ∧ c.val.toNat < 0x110000 := c.valid
  have hchar {n : Nat} (h : n = c.val.toNat) : Char.ofNat n = c := by
    rw [h]
    exact Char.ofNat_toNat c
  rw [String.utf8EncodeChar]
  generalize c.val.toNat = v at hvalid hchar
  split
  · rw [List.foldl_cons, step_lead (by omega) ps (lead_one (by omega)), hchar rfl]
    rfl
  split
  · rw [List.foldl_cons, step_lead (by omega) ps (lead_two (by omega) (by omega)),
      List.foldl_cons, step_advance (by omega) _ (advance_last rfl (by simp) (by simp; omega)),
      hchar (by simp only; omega)]
    rfl
  split
  · rw [List.foldl_cons, step_lead (by omega) ps (lead_three (by omega) (by omega)),
      List.foldl_cons, step_advance (by omega) _
        (advance_more (by simp) (by simp only; split <;> omega) (by simp only; split <;> omega)),
      List.foldl_cons, step_advance (by omega) _ (advance_last rfl (by simp) (by simp; omega)),
      hchar (by simp only; omega)]
    rfl
  · rw [List.foldl_cons, step_lead (by omega) ps (lead_four (by omega) (by omega)),
      List.foldl_cons, step_advance (by omega) _
        (advance_more (by simp) (by simp only; split <;> omega) (by simp only; split <;> omega)),
      List.foldl_cons, step_advance (by omega) _
        (advance_more (by simp) (by simp) (by simp; omega)),
      List.foldl_cons, step_advance (by omega) _ (advance_last rfl (by simp) (by simp; omega)),
      hchar (by simp only; omega)]
    rfl

/-- The pieces of an encoded text are its characters. -/
theorem pieces_encode (s : String) : pieces (encode s) = s.toList.map .scalar := by
  have hfold : ∀ (cs : List Char) (ps : List Piece),
      (cs.flatMap String.utf8EncodeChar).foldl step (ps, none) =
        ((cs.map Piece.scalar).reverse ++ ps, none) := by
    intro cs
    induction cs with
    | nil => exact fun ps => rfl
    | cons c cs ih =>
      intro ps
      rw [List.flatMap_cons, List.foldl_append, foldl_step_encodeChar, ih]
      simp
  simp [pieces, encode, hfold]

/-- **An encoded text is read back.** -/
theorem decodeLossy_encode (s : String) : decodeLossy (encode s) = s := by
  rw [decodeLossy, pieces_encode, List.map_map]
  exact (congrArg String.ofList (List.map_id s.toList)).trans (String.ofList_toList)

end UiSuite.Text.Utf8
