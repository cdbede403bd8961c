import UiSuite.Proofs.Json.Layout

/-! A printed value is one line.

No character of the text of a value is a control character (`le_of_mem_chars`): numerals have
the characters that the grammar has, and in texts and keys control characters are escaped. -/
namespace UiSuite

/-! ### Numerals -/

namespace Numeral

theorem le_of_isDigit {c : Char} (h : c.isDigit = true) : 0x20 ≤ c.toNat := by
  simp only [Char.isDigit, ge_iff_le, Bool.and_eq_true, decide_eq_true_eq] at h
  have hle : '0'.toNat ≤ c.toNat := h.1
  exact Nat.le_trans (by decide) hle

/-- No control character leads on. -/
theorem le_of_next {c : Char} {p q : Place} (h : p.next c = some q) : 0x20 ≤ c.toNat := by
  apply Nat.le_of_not_lt
  intro hlow
  have hne : ∀ d : Char, 0x20 ≤ d.toNat → c ≠ d := by
    rintro d hd rfl
    exact Nat.not_lt.2 hd hlow
  have hdigit : c.isDigit = false := Bool.eq_false_iff.2 fun hd =>
    Nat.not_lt.2 (le_of_isDigit hd) hlow
  cases p <;> simp [Place.next, hdigit, hne '0' (by decide), hne '.' (by decide),
    hne 'e' (by decide), hne 'E' (by decide), hne '+' (by decide), hne '-' (by decide)] at h

theorem le_of_run {p q : Place} {cs : List Char} (h : p.run cs = some q) :
    ∀ c ∈ cs, 0x20 ≤ c.toNat := by
  induction cs generalizing p with
  | nil => exact nofun
  | cons c cs ih =>
    obtain ⟨r, hnext, hrest⟩ := Option.bind_eq_some_iff.1 h
    exact List.forall_mem_cons.2 ⟨le_of_next hnext, ih hrest⟩

theorem IsNumeral.le_of_mem {cs : List Char} (h : IsNumeral cs) : ∀ c ∈ cs, 0x20 ≤ c.toNat := by
  rcases h with ⟨place, hrun, -⟩ | ⟨body, rfl, place, hrun, -⟩
  · exact le_of_run hrun
  · exact List.forall_mem_cons.2 ⟨by decide, le_of_run hrun⟩

end Numeral

namespace Json

/-! ### Texts -/

theorem le_of_mem_controlDigits {n : Nat} (h : n < 0x20) :
    ∀ c ∈ controlDigits n, 0x20 ≤ c.toNat := by
  have hdigits : ∀ m < 16, 0x20 ≤ (Nat.digitChar m).toNat := by decide
  exact List.forall_mem_cons.2 ⟨by decide, List.forall_mem_cons.2 ⟨by decide,
    List.forall_mem_cons.2 ⟨hdigits _ (by omega), List.forall_mem_cons.2
      ⟨hdigits _ (by omega), nofun⟩⟩⟩⟩

/-- A character is escaped or none to escape. -/
theorem le_of_mem_escape (c : Char) : ∀ d ∈ escape c, 0x20 ≤ d.toNat := by
  unfold escape
  split
  · simp
  split
  · simp
  split
  · next hplain => exact List.forall_mem_cons.2 ⟨hplain, nofun⟩
  split
  · simp
  split
  · simp
  split
  · simp
  split
  · simp
  split
  · simp
  · next hcontrol _ _ _ _ _ =>
    exact List.forall_mem_cons.2 ⟨by decide, List.forall_mem_cons.2 ⟨by decide,
      le_of_mem_controlDigits (Nat.lt_of_not_le hcontrol)⟩⟩

theorem le_of_mem_stringChars (s : String) : ∀ c ∈ stringChars s, 0x20 ≤ c.toNat := by
  refine List.forall_mem_cons.2 ⟨by decide, List.forall_mem_append.2 ⟨?_, by simp⟩⟩
  intro c hc
  obtain ⟨d, -, hd⟩ := List.mem_flatMap.1 hc
  exact le_of_mem_escape d c hd

/-! ### Values -/

mutual
/-- **No character of the text of a value is a control character.** -/
theorem le_of_mem_chars : ∀ j : Json, ∀ c ∈ chars j, 0x20 ≤ c.toNat
  | null => by simp [chars]
  | bool true => by simp [chars]
  | bool false => by simp [chars]
  | number n => by rw [chars]; exact (Numeral.isNumeral_numberChars n).le_of_mem
  | string s => by rw [chars]; exact le_of_mem_stringChars s
  | array [] => by simp [chars]
  | array (x :: xs) => by
    rw [chars]
    exact List.forall_mem_cons.2 ⟨by decide,
      List.forall_mem_append.2 ⟨le_of_mem_chars x, le_of_mem_itemsChars xs⟩⟩
  | object [] => by simp [chars]
  | object ((k, x) :: xs) => by
    rw [chars]
    exact List.forall_mem_cons.2 ⟨by decide, List.forall_mem_append.2
      ⟨le_of_mem_stringChars k, List.forall_mem_cons.2 ⟨by decide,
        List.forall_mem_append.2 ⟨le_of_mem_chars x, le_of_mem_fieldsChars xs⟩⟩⟩⟩

theorem le_of_mem_itemsChars : ∀ xs : List Json, ∀ c ∈ itemsChars xs, 0x20 ≤ c.toNat
  | [] => by simp [itemsChars]
  | x :: xs => by
    rw [itemsChars]
    exact List.forall_mem_cons.2 ⟨by decide,
      List.forall_mem_append.2 ⟨le_of_mem_chars x, le_of_mem_itemsChars xs⟩⟩

theorem le_of_mem_fieldsChars : ∀ xs : List (String × Json), ∀ c ∈ fieldsChars xs,
    0x20 ≤ c.toNat
  | [] => by simp [fieldsChars]
  | (k, x) :: xs => by
    rw [fieldsChars]
    exact List.forall_mem_cons.2 ⟨by decide, List.forall_mem_append.2
      ⟨le_of_mem_stringChars k, List.forall_mem_cons.2 ⟨by decide,
        List.forall_mem_append.2 ⟨le_of_mem_chars x, le_of_mem_fieldsChars xs⟩⟩⟩⟩
end

end Json
end UiSuite
