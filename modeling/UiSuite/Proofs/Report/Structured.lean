import UiSuite.Proofs.Json.Printing
import UiSuite.Proofs.Json.RoundTrip
import UiSuite.Report.Structured

/-! Structured lines are read back.

The line of a kind and a payload is one line that begins with the mark, whatever the two hold.
What is read from it is the kind and whatever the payload's own text denotes, with one
container around it (`decode_encode_eq`), so a payload that is an object and not too deep comes
back and nothing comes back of one that is no object (`encode_round_trip`). -/
namespace UiSuite

/-! ### Trimming what has no blanks at its ends -/

namespace Text

theorem trimStart_cons {c : Char} (h : isBlank c = false) (cs : List Char) :
    trimStart (c :: cs) = c :: cs := by
  simp [trimStart, h]

theorem trimEnd_append_singleton {c : Char} (h : isBlank c = false) (cs : List Char) :
    trimEnd (cs ++ [c]) = cs ++ [c] := by
  simp [trimEnd, h]

/-- A text between two characters that are not blank is not trimmed. -/
theorem trim_between {first last : Char} (hfirst : isBlank first = false)
    (hlast : isBlank last = false) (cs : List Char) :
    trim (first :: (cs ++ [last])) = first :: (cs ++ [last]) := by
  rw [trim, trimStart_cons hfirst, ← List.cons_append, trimEnd_append_singleton hlast]

theorem dropBeginning_append (beginning rest : List Char) :
    dropBeginning beginning (beginning ++ rest) = some rest := by
  simp [dropBeginning]

theorem dropBeginning_of_head {c : Char} {beginning cs : List Char} (h : cs.head? ≠ some c) :
    dropBeginning (c :: beginning) cs = none := by
  cases cs with
  | nil => rfl
  | cons d cs =>
    have hne : c ≠ d := fun he => h (by rw [he]; rfl)
    simp [dropBeginning, List.isPrefixOf, hne]

end Text

namespace Json

theorem fieldsChars_eq_append (fields : List (String × Json)) :
    ∃ cs, fieldsChars fields = cs ++ ['\x7d'] := by
  induction fields with
  | nil => exact ⟨[], by rw [fieldsChars]; rfl⟩
  | cons field rest ih =>
    obtain ⟨k, x⟩ := field
    obtain ⟨cs, hcs⟩ := ih
    exact ⟨',' :: (stringChars k ++ ':' :: (chars x ++ cs)), by rw [fieldsChars, hcs]; simp⟩

/-- The text of an object stands between its braces. -/
theorem chars_object (fields : List (String × Json)) :
    ∃ cs, chars (object fields) = '\x7b' :: (cs ++ ['\x7d']) := by
  cases fields with
  | nil => exact ⟨[], by rw [chars]; rfl⟩
  | cons field rest =>
    obtain ⟨k, x⟩ := field
    obtain ⟨cs, hcs⟩ := fieldsChars_eq_append rest
    exact ⟨stringChars k ++ ':' :: (chars x ++ cs), by rw [chars, hcs]; simp⟩

end Json

namespace Report
open Json (Plain draft)

/-! ### Structured lines -/

namespace Structured

theorem toList_encode (kind : String) (payload : Json) :
    (encode kind payload).toList = mark.toList ++
      (Json.ofFields [("type", .string kind), ("payload", payload)]).chars := by
  rw [encode, Json.render, String.toList_append, String.toList_ofList]

/-- The line of a kind and a payload is one line, whatever they hold. -/
theorem le_of_mem_encode (kind : String) (payload : Json) :
    ∀ c ∈ (encode kind payload).toList, 0x20 ≤ c.toNat := by
  rw [toList_encode]
  exact List.forall_mem_append.2 ⟨by simp [mark], Json.le_of_mem_chars _⟩

/-- The payload stands before the kind. -/
theorem ofFields_envelope (kind : String) (payload : Json) :
    Json.ofFields [("type", .string kind), ("payload", payload)] =
      .object [("payload", payload), ("type", .string kind)] := rfl

/-- The kind always comes back; whether the payload does is up to the payload. -/
theorem toJson?_envelope (kind : String) (payload : Json) :
    (draft (.object [("payload", payload), ("type", .string kind)])).toJson? Json.deepest =
      ((draft payload).toJson? 126).map fun j =>
        .object [("payload", j), ("type", .string kind)] := by
  rw [draft, Json.draftFields, Json.draftFields, Json.draftFields, draft, Json.deepest,
    Json.Draft.toJson?, Json.Draft.entriesToJson?]
  cases (draft payload).toJson? 126 <;> rfl

/-- What a line gives back is the kind and what the payload's text denotes within a container. -/
theorem decode_encode_eq (kind : String) (payload : Json) :
    decode (encode kind payload) = ((draft payload).toJson? 126).bind fun j =>
      ofJson? (.object [("payload", j), ("type", .string kind)]) := by
  have hparse := Json.parse?_render_eq (.object [("payload", payload), ("type", .string kind)])
  obtain ⟨cs, hcs⟩ := Json.chars_object [("payload", payload), ("type", .string kind)]
  have htrim : Text.trim ('\x7b' :: (cs ++ ['\x7d'])) = '\x7b' :: (cs ++ ['\x7d']) :=
    Text.trim_between rfl rfl cs
  rw [Json.render, hcs, toJson?_envelope] at hparse
  rw [decode, toList_encode, Text.dropBeginning_append, ofFields_envelope]
  simp only [Option.bind_eq_bind, Option.bind_some, hcs, htrim, hparse, Option.bind_map]
  rfl

/-- A payload that is plain comes back. -/
theorem decode_encode (kind : String) {payload : List (String × Json)} {limit : Nat}
    (hlimit : limit < Json.deepest) (h : Plain limit (.object payload)) :
    decode (encode kind (.object payload)) = some ⟨kind, payload⟩ := by
  have hnesting : Json.nesting (.object payload) ≤ 126 :=
    Nat.le_trans h.nesting (Nat.le_of_lt_succ hlimit)
  rw [decode_encode_eq, Json.toJson?_draft 126 _ h.wellFormed h.integral hnesting]
  rfl

/-- Of a payload that is no object nothing comes back. -/
theorem decode_encode_of_not_object (kind : String) {payload : Json}
    (h : ∀ fields, payload ≠ .object fields) : decode (encode kind payload) = none := by
  rw [decode_encode_eq, Option.bind_eq_none_iff]
  intro j hj
  cases j with
  | object fields =>
    obtain ⟨own, rfl⟩ := Json.exists_object_of_draft hj
    exact absurd rfl (h own)
  | null | bool b | number n | string s | array items => rfl

/-- **The line of a kind and a payload begins with the mark and is one line; a payload that is
a plain object comes back with its kind, and of a payload that is no object nothing does.** -/
theorem encode_round_trip (kind : String) (payload : Json) :
    mark.toList <+: (encode kind payload).toList ∧
      (∀ c ∈ (encode kind payload).toList, 0x20 ≤ c.toNat) ∧
      (∀ fields, payload = .object fields → Plain 126 payload →
        decode (encode kind payload) = some ⟨kind, fields⟩) ∧
      ((∀ fields, payload ≠ .object fields) → decode (encode kind payload) = none) := by
  refine ⟨?_, le_of_mem_encode kind payload, ?_, decode_encode_of_not_object kind⟩
  · rw [toList_encode]
    exact List.prefix_append _ _
  · rintro fields rfl hplain
    have hdeep : 126 < Json.deepest := by decide
    exact decode_encode kind hdeep hplain

/-- Fields named like the line's own, texts that need escaping, and integers at both limits. -/
def trickyFields : List (String × Json) :=
  [("", .array [.number (.integer Number.least), .number (.integer Number.greatest), .object []]),
    ("payload", .string "\x7d\n\r\x00\"\\"), ("type", .object [("é\t", .null)])]

theorem encode_round_trip_trickyFields :
    decode (encode "two\nlines" (.object trickyFields)) = some ⟨"two\nlines", trickyFields⟩ ∧
      decode (encode "two\nlines" (.array [.object trickyFields])) = none := by
  have hleast : (Number.integer Number.least).InRange := by decide
  have hgreatest : (Number.integer Number.greatest).InRange := by decide
  have hplain : Plain 126 (.object trickyFields) :=
    { wellFormed := ⟨by decide, ⟨hleast, hgreatest, ⟨.nil, trivial⟩, trivial⟩, trivial,
        ⟨by decide, trivial, trivial⟩, trivial⟩
      integral := ⟨⟨hleast, hgreatest, trivial, trivial⟩, trivial, ⟨trivial, trivial⟩, trivial⟩
      nesting := by decide }
  exact ⟨(encode_round_trip "two\nlines" _).2.2.1 _ rfl hplain,
    (encode_round_trip "two\nlines" _).2.2.2 nofun⟩

end Structured
end Report
end UiSuite
