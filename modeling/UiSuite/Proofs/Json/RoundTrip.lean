import UiSuite.Proofs.Json.Scanning
import UiSuite.Proofs.Json.Fields
import UiSuite.Json.Draft

/-! Printed values are read back.

`parse?_render` is the round trip of a value that is `Plain`: its objects are in order, its
numbers are integers within 64 bits, and its containers nest no deeper than the limit. The
tokens of a value are read to its draft (`draft`), wherever a value may stand, and the draft
is the value again. -/
namespace UiSuite.Json

/-! ### Reading tokens -/

mutual
/-- The draft of a value. -/
def draft : Json → Draft
  | null => .null
  | bool b => .bool b
  | number n => .number (Numeral.value (numberChars n))
  | string s => .string (some s)
  | array items => .array (draftItems items) true
  | object fields => .object (draftFields fields) true

def draftItems : List Json → List Draft
  | [] => []
  | x :: xs => draft x :: draftItems xs

def draftFields : List (String × Json) → List (Option String × Draft)
  | [] => []
  | (k, x) :: xs => (some k, draft x) :: draftFields xs
end

open Draft (Frame Reading)
open Draft.Reading (under)

/-- A value that may be the first item is read as any other: it does not begin with the end
of the array. -/
theorem read_firstItem (j : Json) (ds : List Draft) (fs : List Frame) :
    (spell j).foldl Reading.step (under (.items ds :: fs) .firstItem) =
      (spell j).foldl Reading.step (under (.items ds :: fs) .value) := by
  unfold spell
  split <;> rfl

mutual
/-- Where a value is due, the tokens of a value are its draft, put in its place. -/
theorem read_spell (frames : List Frame) : ∀ j : Json,
    (spell j).foldl Reading.step (under frames .value) = Reading.put (draft j) frames
  | null => by rw [spell, draft]; rfl
  | bool b => by rw [spell, draft]; rfl
  | number n => by rw [spell, draft]; rfl
  | string s => by rw [spell, draft]; rfl
  | array [] => by rw [spell, draft, draftItems]; rfl
  | array (x :: xs) => by
    have hopen : Reading.step (under frames .value) .openArray =
        under (.items [] :: frames) .firstItem := rfl
    have hfirst : Reading.put (draft x) (.items [] :: frames) =
        under (.items [draft x] :: frames) .afterItem := rfl
    rw [spell, List.foldl_cons, hopen, List.foldl_append, read_firstItem, read_spell, hfirst,
      read_spellItems [draft x] frames xs, draft, draftItems]
    rfl
  | object [] => by rw [spell, draft, draftFields]; rfl
  | object ((k, x) :: xs) => by
    have hopen : Reading.step (Reading.step (Reading.step (under frames .value) .openObject)
        (.string (some k))) .colon = under (.entry [] (some k) :: frames) .value := rfl
    have hfirst : Reading.put (draft x) (.entry [] (some k) :: frames) =
        under (.entries [(some k, draft x)] :: frames) .afterEntry := rfl
    rw [spell, List.foldl_cons, List.foldl_cons, List.foldl_cons, hopen, List.foldl_append,
      read_spell, hfirst, read_spellFields [(some k, draft x)] frames xs, draft, draftFields]
    rfl

theorem read_spellItems (ds : List Draft) (frames : List Frame) : ∀ xs : List Json,
    (spellItems xs).foldl Reading.step (under (.items ds :: frames) .afterItem) =
      Reading.put (.array (ds.reverse ++ draftItems xs) true) frames
  | [] => by rw [spellItems, draftItems, List.append_nil]; rfl
  | x :: xs => by
    have hcomma : Reading.step (under (.items ds :: frames) .afterItem) .comma =
        under (.items ds :: frames) .value := rfl
    have hnext : Reading.put (draft x) (.items ds :: frames) =
        under (.items (draft x :: ds) :: frames) .afterItem := rfl
    rw [spellItems, List.foldl_cons, hcomma, List.foldl_append, read_spell, hnext,
      read_spellItems (draft x :: ds) frames xs, draftItems, List.reverse_cons, List.append_assoc]
    rfl

theorem read_spellFields (es : List (Option String × Draft)) (frames : List Frame) :
    ∀ xs : List (String × Json),
      (spellFields xs).foldl Reading.step (under (.entries es :: frames) .afterEntry) =
        Reading.put (.object (es.reverse ++ draftFields xs) true) frames
  | [] => by rw [spellFields, draftFields, List.append_nil]; rfl
  | (k, x) :: xs => by
    have hkey : Reading.step (Reading.step (Reading.step (under (.entries es :: frames) .afterEntry)
        .comma) (.string (some k))) .colon = under (.entry es (some k) :: frames) .value := rfl
    have hnext : Reading.put (draft x) (.entry es (some k) :: frames) =
        under (.entries ((some k, draft x) :: es) :: frames) .afterEntry := rfl
    rw [spellFields, List.foldl_cons, List.foldl_cons, List.foldl_cons, hkey, List.foldl_append,
      read_spell, hnext, read_spellFields ((some k, draft x) :: es) frames xs, draftFields,
      List.reverse_cons, List.append_assoc]
    rfl
end

/-! ### Values of drafts -/

mutual
/-- Every number is an integer within 64 bits. -/
def Integral : Json → Prop
  | number (.integer i) => (Number.integer i).InRange
  | number (.float _) => False
  | array items => IntegralItems items
  | object fields => IntegralFields fields
  | null | bool _ | string _ => True

def IntegralItems : List Json → Prop
  | [] => True
  | x :: xs => Integral x ∧ IntegralItems xs

def IntegralFields : List (String × Json) → Prop
  | [] => True
  | (_, x) :: xs => Integral x ∧ IntegralFields xs
end

mutual
theorem toJson?_draft : ∀ (limit : Nat) (j : Json), WellFormed j → Integral j → nesting j ≤ limit →
    (draft j).toJson? limit = some j
  | _, null, _, _, _ => by rw [draft, Draft.toJson?]
  | _, bool b, _, _, _ => by rw [draft, Draft.toJson?]
  | _, number (.integer i), _, hi, _ => by
    rw [draft, Draft.toJson?, numberChars, Numeral.value_integerChars hi]
    rfl
  | _, number (.float _), _, hi, _ => hi.elim
  | _, string s, _, _, _ => by rw [draft, Draft.toJson?]; rfl
  | 0, array items, _, _, h => by simp [nesting] at h
  | limit + 1, array items, hw, hi, h => by
    rw [nesting] at h
    rw [draft, Draft.toJson?, itemsToJson?_draftItems limit items hw hi (Nat.le_of_succ_le_succ h)]
    rfl
  | 0, object fields, _, _, h => by simp [nesting] at h
  | limit + 1, object fields, hw, hi, h => by
    rw [nesting] at h
    rw [draft, Draft.toJson?,
      entriesToJson?_draftFields limit fields hw.2 hi (Nat.le_of_succ_le_succ h)]
    simp only [if_true, Option.map_some, ofFields_of_ascending hw.1]

theorem itemsToJson?_draftItems : ∀ (limit : Nat) (xs : List Json), WellFormedItems xs →
    IntegralItems xs → nestingItems xs ≤ limit → Draft.itemsToJson? limit (draftItems xs) = some xs
  | _, [], _, _, _ => by rw [draftItems, Draft.itemsToJson?]
  | limit, x :: xs, hw, hi, h => by
    rw [nestingItems] at h
    rw [draftItems, Draft.itemsToJson?, toJson?_draft limit x hw.1 hi.1 (by omega),
      itemsToJson?_draftItems limit xs hw.2 hi.2 (by omega)]
    rfl

theorem entriesToJson?_draftFields : ∀ (limit : Nat) (xs : List (String × Json)),
    WellFormedFields xs → IntegralFields xs → nestingFields xs ≤ limit →
      Draft.entriesToJson? limit (draftFields xs) = some xs
  | _, [], _, _, _ => by rw [draftFields, Draft.entriesToJson?]
  | limit, (k, x) :: xs, hw, hi, h => by
    rw [nestingFields] at h
    rw [draftFields, Draft.entriesToJson?, toJson?_draft limit x hw.1 hi.1 (by omega),
      entriesToJson?_draftFields limit xs hw.2 hi.2 (by omega)]
    rfl
end

/-- Only the draft of an object is an object. -/
theorem exists_object_of_draft {limit : Nat} {j : Json} {fields : List (String × Json)}
    (h : (draft j).toJson? limit = some (object fields)) : ∃ own, j = object own := by
  cases j with
  | object own => exact ⟨own, rfl⟩
  | null | bool b | string s => simp [draft, Draft.toJson?] at h
  | number n =>
    rw [draft, Draft.toJson?] at h
    obtain ⟨m, -, hm⟩ := Option.map_eq_some_iff.1 h
    cases hm
  | array items =>
    cases limit with
    | zero => simp [draft, Draft.toJson?] at h
    | succ limit =>
      rw [draft, Draft.toJson?] at h
      obtain ⟨js, -, hjs⟩ := Option.map_eq_some_iff.1 h
      cases hjs

/-! ### Plain values -/

/-- A value that its text keeps: in order, without binary fractions, and with at most `limit`
containers around any part. -/
structure Plain (limit : Nat) (j : Json) : Prop where
  wellFormed : WellFormed j
  integral : Integral j
  nesting : nesting j ≤ limit

theorem wellFormedFields_iff {fields : List (String × Json)} :
    WellFormedFields fields ↔ ∀ field ∈ fields, WellFormed field.2 := by
  induction fields with
  | nil => simp [WellFormedFields]
  | cons field rest ih => rw [WellFormedFields, List.forall_mem_cons, ih]

theorem integralFields_iff {fields : List (String × Json)} :
    IntegralFields fields ↔ ∀ field ∈ fields, Integral field.2 := by
  induction fields with
  | nil => simp [IntegralFields]
  | cons field rest ih => rw [IntegralFields, List.forall_mem_cons, ih]

theorem nestingFields_le_iff {limit : Nat} {fields : List (String × Json)} :
    nestingFields fields ≤ limit ↔ ∀ field ∈ fields, nesting field.2 ≤ limit := by
  induction fields with
  | nil => simp [nestingFields]
  | cons field rest ih => rw [nestingFields, List.forall_mem_cons, ← ih, Nat.max_le]

/-- An object of plain values is plain with one container more. -/
theorem plain_ofFields {limit : Nat} {fields : List (String × Json)}
    (h : ∀ field ∈ fields, Plain limit field.2) : Plain (limit + 1) (ofFields fields) where
  wellFormed := ⟨ascending_inOrder fields,
    wellFormedFields_iff.2 fun field hf => (h field (mem_inOrder fields field hf)).wellFormed⟩
  integral := integralFields_iff.2 fun field hf => (h field (mem_inOrder fields field hf)).integral
  nesting := Nat.succ_le_succ
    (nestingFields_le_iff.2 fun field hf => (h field (mem_inOrder fields field hf)).nesting)

theorem plain_string (limit : Nat) (s : String) : Plain limit (.string s) :=
  ⟨trivial, trivial, Nat.zero_le _⟩

/-- A natural number below 2^64 is plain. -/
theorem plain_ofNat (limit : Nat) {n : Nat} (h : n < UInt64.size) : Plain limit (ofNat n) := by
  have hn : (Number.integer n).InRange := by
    simp only [Number.InRange, Number.least, Number.greatest, UInt64.size] at h ⊢
    omega
  exact ⟨hn, hn, Nat.zero_le _⟩

theorem plain_strings (limit : Nat) (texts : List String) :
    Plain (limit + 1) (.array (texts.map .string)) := by
  have hw : ∀ ts : List String, WellFormedItems (ts.map .string) := by
    intro ts
    induction ts with
    | nil => trivial
    | cons t ts ih => exact ⟨trivial, ih⟩
  have hi : ∀ ts : List String, IntegralItems (ts.map .string) := by
    intro ts
    induction ts with
    | nil => trivial
    | cons t ts ih => exact ⟨trivial, ih⟩
  have hn : ∀ ts : List String, nestingItems (ts.map .string) = 0 := by
    intro ts
    induction ts with
    | nil => rfl
    | cons t ts ih => rw [List.map_cons, nestingItems, ih]; rfl
  refine ⟨hw texts, hi texts, ?_⟩
  rw [Json.nesting, hn texts]
  exact Nat.succ_le_succ (Nat.zero_le _)

/-! ### Texts -/

theorem ofText_render (j : Json) : Draft.ofText (render j) = (draft j, true) := by
  rw [Draft.ofText, render, String.toList_ofList, tokens_chars, Draft.ofTokens, Reading.start,
    read_spell]
  rfl

/-- Any value's text is read to its draft: the rest is what drafts denote. -/
theorem parse?_render_eq (j : Json) : parse? (render j) = (draft j).toJson? deepest := by
  rw [parse?, parseWithin?, ofText_render]
  rfl

/-- **A printed value is read back.** -/
theorem parse?_render {j : Json} (h : Plain deepest j) : parse? (render j) = some j := by
  rw [parse?_render_eq, toJson?_draft deepest j h.wellFormed h.integral h.nesting]

end UiSuite.Json
