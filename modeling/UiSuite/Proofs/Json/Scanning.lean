import UiSuite.Proofs.Json.Layout

/-! Printed values are scanned token by token.

`tokens_chars` is the statement: the tokens of the text of a value are the tokens of the
value (`spell`), whatever stands in its texts and keys and whatever its numbers are. A numeral
is open until the next character, so the scanner is followed up to a state that `Ends`
there. -/
namespace UiSuite.Json

/-! ### The tokens of a value -/

mutual
def spell : Json → List Token
  | null => [.null]
  | bool b => [.bool b]
  | number n => [.number (Numeral.value (numberChars n))]
  | string s => [.string (some s)]
  | array [] => [.openArray, .closeArray]
  | array (x :: xs) => .openArray :: (spell x ++ spellItems xs)
  | object [] => [.openObject, .closeObject]
  | object ((k, x) :: xs) =>
    .openObject :: .string (some k) :: .colon :: (spell x ++ spellFields xs)

/-- The further items of an array and its end. -/
def spellItems : List Json → List Token
  | [] => [.closeArray]
  | x :: xs => .comma :: (spell x ++ spellItems xs)

/-- The further fields of an object and its end. -/
def spellFields : List (String × Json) → List Token
  | [] => [.closeObject]
  | (k, x) :: xs => .comma :: .string (some k) :: .colon :: (spell x ++ spellFields xs)
end

namespace Scan

/-! ### Texts -/

/-- A string under way that is a text so far. -/
def inString (ts : List Token) (reversed : List Char) : Scan :=
  ⟨ts, .string ⟨reversed, true, none⟩⟩

theorem hexDigit_digitChar : ∀ n < 16, Text.hexDigit? (Nat.digitChar n) = some n := by
  decide

/-- The escape of a control character is read as four digits. -/
theorem scan_controlDigits (ts : List Token) (reversed : List Char) {c : Char}
    (hc : c.toNat < 0x20) :
    (controlDigits c.toNat).foldl step ⟨ts, .code ⟨reversed, true, none⟩ 0 0⟩ =
      inString ts (c :: reversed) := by
  have hhigh := hexDigit_digitChar (c.toNat / 16) (by omega)
  have hlow := hexDigit_digitChar (c.toNat % 16) (by omega)
  have hzero : Text.hexDigit? '0' = some 0 := by decide
  have hcode : 16 * (c.toNat / 16) + c.toNat % 16 = c.toNat := Nat.div_add_mod _ _
  have hcontrol : Partial.putCode c.toNat ⟨reversed, true, none⟩ = ⟨c :: reversed, true, none⟩ := by
    have h1 : ¬ 0xD800 ≤ c.toNat := by omega
    have h2 : ¬ 0xDC00 ≤ c.toNat := by omega
    simp [Partial.putCode, Partial.put, h1, h2]
  simp [controlDigits, step, hzero, hhigh, hlow, hcode, hcontrol, inString]

/-- Escaped or not, a character stands for itself. -/
theorem scan_escape (ts : List Token) (reversed : List Char) (c : Char) :
    (escape c).foldl step (inString ts reversed) = inString ts (c :: reversed) := by
  unfold escape
  split
  · next h => subst h; rfl
  split
  · next h => subst h; rfl
  split
  · next hquote hslash hplain =>
    have hplain' : ¬ c.toNat < 0x20 := by omega
    simp [step, inString, hquote, hslash, hplain', Partial.put]
  have hshort : ∀ d : Char, c.toNat = d.toNat → c = d := fun d h => Char.toNat_inj.1 h
  split
  · next h => rw [hshort '\x08' h]; rfl
  split
  · next h => rw [hshort '\t' h]; rfl
  split
  · next h => rw [hshort '\n' h]; rfl
  split
  · next h => rw [hshort '\x0C' h]; rfl
  split
  · next h => rw [hshort '\r' h]; rfl
  · next hcontrol _ _ _ _ _ => exact scan_controlDigits ts reversed (by omega)

theorem scan_escapes (ts : List Token) (reversed cs : List Char) :
    (cs.flatMap escape).foldl step (inString ts reversed) = inString ts (cs.reverse ++ reversed) := by
  induction cs generalizing reversed with
  | nil => rfl
  | cons c cs ih =>
    rw [List.flatMap_cons, List.foldl_append, scan_escape, ih, List.reverse_cons,
      List.append_assoc, List.singleton_append]

/-- A text in its quotation marks is one token. -/
theorem scan_stringChars (ts : List Token) (s : String) :
    (stringChars s).foldl step ⟨ts, .between⟩ = ⟨.string (some s) :: ts, .between⟩ := by
  have hopen : step ⟨ts, .between⟩ '"' = inString ts [] := rfl
  rw [stringChars, List.foldl_cons, hopen, List.foldl_append, scan_escapes]
  simp [step, inString, emit, Partial.close]

/-! ### Numerals -/

/-- A numeral that may end here, or go on with a digit. -/
def inNumeral (ts : List Token) (reversed : List Char) (place : Numeral.Place) : Scan :=
  ⟨ts, .numeral reversed place⟩

/-- Characters that lead on are taken into the numeral. -/
theorem scan_run (ts : List Token) (reversed : List Char) {cs : List Char}
    {p q : Numeral.Place} (h : p.run cs = some q) :
    cs.foldl step (inNumeral ts reversed p) = inNumeral ts (cs.reverse ++ reversed) q := by
  induction cs generalizing p reversed with
  | nil =>
    cases h
    rfl
  | cons c cs ih =>
    obtain ⟨r, hnext, hrest⟩ := Option.bind_eq_some_iff.1 h
    have hstep : step (inNumeral ts reversed p) c = inNumeral ts (c :: reversed) r := by
      simp only [step, inNumeral, hnext]
    rw [List.foldl_cons, hstep, ih _ hrest, List.reverse_cons, List.append_assoc,
      List.singleton_append]

theorem between_digit (ts : List Token) {d : Char} {p : Numeral.Place}
    (h : Numeral.Place.sign.next d = some p) :
    step ⟨ts, .between⟩ d = inNumeral ts [d] p := by
  obtain ⟨hdigit, hfirst⟩ := Numeral.Place.first_of_sign h
  have hne : ∀ c : Char, c.isDigit = false → d ≠ c := by
    rintro c hc rfl
    rw [hdigit] at hc
    exact Bool.noConfusion hc
  have hspace : isSpace d = false := by
    simp [isSpace, hne ' ' rfl, hne '\t' rfl, hne '\n' rfl, hne '\r' rfl]
  simp [step, between, hspace, hne '[' rfl, hne ']' rfl, hne '\x7b' rfl, hne '\x7d' rfl,
    hne ',' rfl, hne ':' rfl, hne '"' rfl, hne 'n' rfl, hne 't' rfl, hne 'f' rfl, hfirst,
    inNumeral]

/-- A numeral may end where its characters end. -/
theorem scan_numeral (ts : List Token) {cs : List Char} (h : Numeral.IsNumeral cs) :
    ∃ place, place.isEnd = true ∧
      cs.foldl step ⟨ts, .between⟩ = inNumeral ts cs.reverse place := by
  rcases h with ⟨place, hrun, hend⟩ | ⟨body, rfl, place, hrun, hend⟩
  · refine ⟨place, hend, ?_⟩
    cases cs with
    | nil =>
      cases hrun
      cases hend
    | cons d ds =>
      obtain ⟨p, hnext, hrest⟩ := Option.bind_eq_some_iff.1 hrun
      rw [List.foldl_cons, between_digit ts hnext, scan_run ts [d] hrest, List.reverse_cons]
  · have hsign : step ⟨ts, .between⟩ '-' = inNumeral ts ['-'] .sign := rfl
    refine ⟨place, hend, ?_⟩
    rw [List.foldl_cons, hsign, scan_run ts ['-'] hrun, List.reverse_cons]

/-! ### Values -/

/-- Characters that may follow a value inside a container. -/
def closes (c : Char) : Prop :=
  c = ',' ∨ c = ']' ∨ c = '\x7d'

/-- The tokens are read, the last one perhaps up to the next character: the text may end
here, and what may follow a value is scanned as between tokens. -/
structure Ends (s : Scan) (ts : List Token) : Prop where
  finish : s.finish = ts.reverse
  step : ∀ c, closes c → s.step c = between ⟨ts, .between⟩ c

theorem ends_between {s : Scan} {ts : List Token} (h : s = ⟨ts, .between⟩) : Ends s ts := by
  subst h
  exact ⟨rfl, fun _ _ => rfl⟩

/-- A numeral that may end is ended by what may follow a value. -/
theorem ends_numeral (ts : List Token) (reversed : List Char) {place : Numeral.Place}
    (h : place.isEnd = true) :
    Ends (inNumeral ts reversed place) (.number (Numeral.value reversed.reverse) :: ts) := by
  constructor
  · simp [inNumeral, finish, h, endNumeral, emit]
  · intro c hc
    have hnext : place.next c = none := by
      rcases hc with rfl | rfl | rfl <;> cases place <;> rfl
    have hdigit : c.isDigit = false := by
      rcases hc with rfl | rfl | rfl <;> rfl
    have hbefore : place.endsBefore c = true := by
      simp [Numeral.Place.endsBefore, h, hdigit]
    simp [step, inNumeral, hnext, hbefore, endNumeral, emit]

theorem ends_numberChars (ts : List Token) (n : Number) :
    Ends ((numberChars n).foldl step ⟨ts, .between⟩)
      (.number (Numeral.value (numberChars n)) :: ts) := by
  obtain ⟨place, hend, hscan⟩ := scan_numeral ts (Numeral.isNumeral_numberChars n)
  have hends := ends_numeral ts (numberChars n).reverse hend
  rw [List.reverse_reverse] at hends
  rw [hscan]
  exact hends

mutual
theorem ends_chars (ts : List Token) : ∀ j : Json,
    Ends ((chars j).foldl step ⟨ts, .between⟩) ((spell j).reverse ++ ts)
  | null => ends_between (by rw [chars, spell]; rfl)
  | bool true => ends_between (by rw [chars, spell]; rfl)
  | bool false => ends_between (by rw [chars, spell]; rfl)
  | number n => by
    rw [chars, spell]
    exact ends_numberChars ts n
  | string s => ends_between (by rw [chars, spell, scan_stringChars]; rfl)
  | array [] => ends_between (by rw [chars, spell]; rfl)
  | array (x :: xs) => by
    have hopen : step ⟨ts, .between⟩ '[' = ⟨.openArray :: ts, .between⟩ := rfl
    have hfirst := ends_chars (.openArray :: ts) x
    apply ends_between
    rw [chars, List.foldl_cons, hopen, List.foldl_append, scan_itemsChars xs hfirst]
    simp [spell]
  | object [] => ends_between (by rw [chars, spell]; rfl)
  | object ((k, x) :: xs) => by
    have hopen : step ⟨ts, .between⟩ '\x7b' = ⟨.openObject :: ts, .between⟩ := rfl
    have hcolon : ∀ us, step ⟨us, .between⟩ ':' = ⟨.colon :: us, .between⟩ := fun _ => rfl
    have hfirst := ends_chars (.colon :: .string (some k) :: .openObject :: ts) x
    apply ends_between
    rw [chars, List.foldl_cons, hopen, List.foldl_append, scan_stringChars, List.foldl_cons, hcolon,
      List.foldl_append, scan_fieldsChars xs hfirst]
    simp [spell]

theorem scan_itemsChars {s : Scan} {ts : List Token} : ∀ xs : List Json, Ends s ts →
    (itemsChars xs).foldl step s = ⟨(spellItems xs).reverse ++ ts, .between⟩
  | [], hs => hs.step ']' (.inr (.inl rfl))
  | x :: xs, hs => by
    have hcomma : s.step ',' = ⟨.comma :: ts, .between⟩ := hs.step ',' (.inl rfl)
    have hnext := ends_chars (.comma :: ts) x
    rw [itemsChars, List.foldl_cons, hcomma, List.foldl_append, scan_itemsChars xs hnext]
    simp [spellItems]

theorem scan_fieldsChars {s : Scan} {ts : List Token} : ∀ xs : List (String × Json), Ends s ts →
    (fieldsChars xs).foldl step s = ⟨(spellFields xs).reverse ++ ts, .between⟩
  | [], hs => hs.step '\x7d' (.inr (.inr rfl))
  | (k, x) :: xs, hs => by
    have hcomma : s.step ',' = ⟨.comma :: ts, .between⟩ := hs.step ',' (.inl rfl)
    have hcolon : ∀ us, step ⟨us, .between⟩ ':' = ⟨.colon :: us, .between⟩ := fun _ => rfl
    have hnext := ends_chars (.colon :: .string (some k) :: .comma :: ts) x
    rw [fieldsChars, List.foldl_cons, hcomma, List.foldl_append, scan_stringChars, List.foldl_cons,
      hcolon, List.foldl_append, scan_fieldsChars xs hnext]
    simp [spellFields]
end

end Scan

/-- **The tokens of a printed value are the tokens of the value.** -/
theorem tokens_chars (j : Json) : tokens (chars j) = spell j := by
  have hends := (Scan.ends_chars [] j).finish
  rw [List.append_nil, List.reverse_reverse] at hends
  exact hends

end UiSuite.Json
