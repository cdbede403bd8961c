import UiSuite.Proofs.Selector.Suffix

/-! The grammar of selectors.

A selector has a body, and an index where it ends in one (`Query.Reads`). A body without a colon
is a text as it stands; what stands before the first colon is a word that says what the rest
means, and where it is none of the words, the whole body is a text again (`Strategy.Reads`). Every
text has exactly one reading, and that is how a selector is parsed (`Query.parse_eq_iff`). So an
index that is put at the end of a text is the index of the query, and nothing else about the text
matters (`Query.parse_append_index`, `Query.parse_grammar`); and the index of a name is the index
of a selector that refers to that name (`Query.parse_reference`). -/
namespace UiSuite

open Text (trimmed splitFirst)

/-! ### Type names -/

namespace Element.Kind

/-- Whether a text is a type name of a kind. Blanks around it and the case of ASCII letters do not
count. -/
def IsCalled (kind : Kind) (name : String) : Prop :=
  ∃ typeName ∈ kind.typeNames, Text.equalFold (trimmed name) typeName = true

/-- Type names are in small letters. -/
theorem foldCase_typeName (kind : Kind) :
    ∀ typeName ∈ kind.typeNames, Text.foldCase typeName = typeName.toList := by
  cases kind <;> decide

/-- No two kinds have a type name in common. -/
theorem find?_typeName (kind : Kind) :
    ∀ typeName ∈ kind.typeNames,
      named.find? (fun kind => kind.typeNames.contains typeName) = some kind := by
  cases kind <;> decide

theorem ofTypeName?_eq_some {kind : Kind} {name : String} :
    ofTypeName? name = some kind ↔ kind.IsCalled name := by
  simp only [ofTypeName?, IsCalled, Text.equalFold, beq_iff_eq]
  generalize Text.foldCase (trimmed name) = word
  constructor
  · intro h
    have hmem : String.ofList word ∈ kind.typeNames := by
      have hfound := List.find?_some h
      simpa only [List.contains_iff_mem] using hfound
    refine ⟨_, hmem, ?_⟩
    rw [foldCase_typeName kind _ hmem, String.toList_ofList]
  · rintro ⟨typeName, hmem, rfl⟩
    rw [foldCase_typeName kind typeName hmem, String.ofList_toList]
    exact find?_typeName kind typeName hmem

theorem ofTypeName?_eq_none {name : String} :
    ofTypeName? name = none ↔ ∀ kind : Kind, ¬ kind.IsCalled name := by
  simp only [Option.eq_none_iff_forall_ne_some, ne_eq, ofTypeName?_eq_some]

end Element.Kind

/-! ### Bodies -/

namespace Strategy

/-- The words that may stand before the colon of a body. -/
def words : List String :=
  ["text", "contains", "key", "id", "label", "type", "alias"]

/-- What a word before the colon makes of the text after it. -/
inductive Means : String → String → Strategy → Prop
  | text (value : String) : Means "text" value (.exact value)
  | contains (value : String) : Means "contains" value (.part value)
  | key (value : String) : Means "key" value (.key (trimmed value))
  | id (value : String) : Means "id" value (.key (trimmed value))
  | label (value : String) : Means "label" value (.label value)
  | kind {value : String} {kind : Element.Kind} (h : kind.IsCalled value) :
      Means "type" value (.kind kind)
  | unknownKind {value : String} (h : ∀ kind : Element.Kind, ¬ kind.IsCalled value) :
      Means "type" value (.unknownKind (trimmed value))
  | reference (value : String) : Means "alias" value (.reference (trimmed value))

/-- The strategies a body can be read as. -/
inductive Reads : String → Strategy → Prop
  | plain {body : String} (hcolon : ':' ∉ body.toList) : Reads body (.exact body)
  | word {before after : String} {s : Strategy} (hcolon : ':' ∉ before.toList)
      (hmeans : Means (trimmed before) after s) : Reads (before ++ ":" ++ after) s
  | noWord {before after : String} (hcolon : ':' ∉ before.toList)
      (hword : trimmed before ∉ words) :
      Reads (before ++ ":" ++ after) (.exact (before ++ ":" ++ after))

theorem Means.mem_words {word value : String} {s : Strategy} (h : Means word value s) :
    word ∈ words := by
  cases h <;> simp [words]

/-- A word makes something of every text. -/
theorem exists_means {word : String} (h : word ∈ words) (value : String) :
    ∃ s, Means word value s := by
  simp only [words, List.mem_cons, List.not_mem_nil, or_false] at h
  rcases h with rfl | rfl | rfl | rfl | rfl | rfl | rfl
  · exact ⟨_, .text value⟩
  · exact ⟨_, .contains value⟩
  · exact ⟨_, .key value⟩
  · exact ⟨_, .id value⟩
  · exact ⟨_, .label value⟩
  · cases hkind : Element.Kind.ofTypeName? value with
    | some kind => exact ⟨_, .kind (Element.Kind.ofTypeName?_eq_some.1 hkind)⟩
    | none => exact ⟨_, .unknownKind (Element.Kind.ofTypeName?_eq_none.1 hkind)⟩
  · exact ⟨_, .reference value⟩

/-- The words have no colon and no bracket in them, and no blanks around them. -/
theorem plain_word :
    ∀ word ∈ words, ':' ∉ word.toList ∧ '[' ∉ word.toList ∧ trimmed word = word := by
  decide

/-- A word with a colon after it, and a text. -/
theorem Means.reads {word before value : String} {s : Strategy} (h : Means word value s)
    (hbefore : before = word ++ ":") : Reads (before ++ value) s := by
  obtain ⟨hcolon, -, htrimmed⟩ := plain_word word h.mem_words
  rw [hbefore]
  exact .word hcolon (htrimmed.symm ▸ h)

/-- A text with a colon, taken apart at the first one. -/
theorem exists_first_colon {body : String} (h : ':' ∈ body.toList) :
    ∃ before after : String, ':' ∉ before.toList ∧ body = before ++ ":" ++ after := by
  obtain ⟨before, after, hbody, hcolon⟩ := List.eq_append_cons_of_mem h
  refine ⟨.ofList before, .ofList after, by rwa [String.toList_ofList], ?_⟩
  rw [← String.toList_inj, hbody]
  simp

/-- Every body has a reading. -/
theorem exists_reads (body : String) : ∃ s, Reads body s := by
  by_cases hcolon : ':' ∈ body.toList
  · obtain ⟨before, after, hbefore, rfl⟩ := exists_first_colon hcolon
    by_cases hword : trimmed before ∈ words
    · obtain ⟨s, hmeans⟩ := exists_means hword after
      exact ⟨s, .word hbefore hmeans⟩
    · exact ⟨_, .noWord hbefore hword⟩
  · exact ⟨_, .plain hcolon⟩

end Strategy

namespace Query

open Strategy (Means words)

theorem ofList_trim (s : String) : String.ofList (Text.trim s.toList) = trimmed s := rfl

theorem splitFirst_colon {before : String} (h : ':' ∉ before.toList) (after : String) :
    splitFirst ':' (before ++ ":" ++ after).toList = some (before.toList, after.toList) := by
  have htoList : (before ++ ":" ++ after).toList = before.toList ++ ':' :: after.toList := by simp
  rw [htoList, Text.splitFirst_append h]

/-- A reading of a body is its strategy. -/
theorem strategyOf_of_reads {body : String} {s : Strategy} (h : s.Reads body) :
    strategyOf body.toList = s := by
  cases h with
  | plain hcolon =>
    have hnone : splitFirst ':' body.toList = none := Text.splitFirst_eq_none hcolon
    rw [strategyOf, hnone]
    simp only [String.ofList_toList]
  | @word before after s hcolon hmeans =>
    rw [strategyOf, splitFirst_colon hcolon]
    simp only [ofList_trim, String.ofList_toList]
    generalize trimmed before = word at hmeans
    cases hmeans with
    | kind h => simp only [Element.Kind.ofTypeName?_eq_some.2 h]
    | unknownKind h => simp only [Element.Kind.ofTypeName?_eq_none.2 h]
    | text _ | contains _ | key _ | id _ | label _ | reference _ => rfl
  | noWord hcolon hword =>
    rw [strategyOf, splitFirst_colon hcolon]
    simp only [ofList_trim, String.ofList_toList]
    split
    case h_8 => rfl
    -- The word would be one that means something.
    all_goals
      rename_i hknown
      rw [hknown] at hword
      exact absurd (by decide) hword

/-- **The strategy of a body** is the one reading it has. -/
theorem strategyOf_eq_iff {body : String} {s : Strategy} :
    strategyOf body.toList = s ↔ s.Reads body := by
  constructor
  · rintro rfl
    obtain ⟨s, h⟩ := Strategy.exists_reads body
    rwa [strategyOf_of_reads h]
  · exact strategyOf_of_reads

/-! ### Selectors -/

/-- The queries a selector can be read as. -/
inductive Reads : String → Query → Prop
  | indexed {raw body : String} {n : Nat} {s : Strategy}
      (hindexed : Indexed raw.toList body.toList n) (hbody : s.Reads body) :
      Reads raw ⟨s, some n⟩
  | unindexed {raw : String} {s : Strategy}
      (hunindexed : ∀ body n, ¬ Indexed raw.toList body n) (hbody : s.Reads raw) :
      Reads raw ⟨s, none⟩

theorem parse_of_indexed {raw : String} {body : List Char} {n : Nat}
    (h : Indexed raw.toList body n) : parse raw = ⟨strategyOf body, some n⟩ := by
  rw [parse, splitIndex_of_indexed h]

theorem parse_of_not_indexed {raw : String} (h : ∀ body n, ¬ Indexed raw.toList body n) :
    parse raw = ⟨strategyOf raw.toList, none⟩ := by
  rw [parse, splitIndex_of_not_indexed h]

/-- Every selector has a reading. -/
theorem exists_reads (raw : String) : ∃ q, Reads raw q := by
  by_cases hindexed : ∃ body n, Indexed raw.toList body n
  · obtain ⟨body, n, h⟩ := hindexed
    obtain ⟨s, hbody⟩ := Strategy.exists_reads (String.ofList body)
    rw [← String.toList_ofList (l := body)] at h
    exact ⟨_, .indexed h hbody⟩
  · obtain ⟨s, hbody⟩ := Strategy.exists_reads raw
    exact ⟨_, .unindexed (fun body n h => hindexed ⟨body, n, h⟩) hbody⟩

/-- A reading of a selector is its query. -/
theorem parse_of_reads {raw : String} {q : Query} (h : q.Reads raw) : parse raw = q := by
  cases h with
  | indexed hindexed hbody => rw [parse_of_indexed hindexed, strategyOf_of_reads hbody]
  | unindexed hunindexed hbody =>
    rw [parse_of_not_indexed hunindexed, strategyOf_of_reads hbody]

/-- **The query of a selector** is the one reading it has. -/
theorem parse_eq_iff {raw : String} {q : Query} : parse raw = q ↔ q.Reads raw := by
  constructor
  · rintro rfl
    obtain ⟨q, h⟩ := exists_reads raw
    rwa [parse_of_reads h]
  · exact parse_of_reads

/-- An index at the end of a text is the index of the query, whatever the text ends in. -/
theorem parse_append_index {suffix : String} {n : Nat} (h : Indexed suffix.toList [] n)
    (body : String) : parse (body ++ suffix) = ⟨strategyOf body.toList, some n⟩ := by
  have hindexed : Indexed (body ++ suffix).toList body.toList n := by
    rw [String.toList_append]
    have happend := h.append body.toList
    rwa [List.append_nil] at happend
  exact parse_of_indexed hindexed

/-- A word, a text and an index. -/
theorem parse_means {word before value suffix : String} {s : Strategy} {n : Nat}
    (h : Means word value s) (hbefore : before = word ++ ":")
    (hindex : Indexed suffix.toList [] n) : parse (before ++ value ++ suffix) = ⟨s, some n⟩ := by
  rw [parse_append_index hindex, strategyOf_of_reads (h.reads hbefore)]

/-- An index at the end of a text is the index of a selector in which a word stands before the
text. -/
theorem parse_word {word before raw body : String} {s : Strategy} (h : Means word body s)
    (hbefore : before = word ++ ":") (hbody : (splitIndex raw.toList).1 = body.toList) :
    parse (before ++ raw) = ⟨s, (splitIndex raw.toList).2⟩ := by
  have hopen : '[' ∉ before.toList := by
    rw [hbefore, String.toList_append]
    simpa using (Strategy.plain_word word h.mem_words).2.1
  have hsplit : splitIndex (before ++ raw).toList =
      ((before ++ body).toList, (splitIndex raw.toList).2) := by
    rw [String.toList_append, splitIndex_append hopen, hbody, ← String.toList_append]
  rw [parse, hsplit]
  simp only [strategyOf_of_reads (h.reads hbefore)]

/-- **A selector that refers to a name.** An index at the end of the name is the index of the
reference. -/
theorem parse_reference (name : String) :
    parse ("alias:" ++ name) =
      ⟨.reference (trimmed (String.ofList (splitIndex name.toList).1)),
        (splitIndex name.toList).2⟩ :=
  parse_word (.reference _) (by decide) String.toList_ofList.symm

/-- **The grammar of selectors.** A selector is parsed as the one reading it has. So a text, a part
of a text and a label are addressed as they stand, at whatever index is put after them, even where
they hold colons or end in an index themselves; and an index after a selector that has none makes
no other difference to its query. -/
theorem parse_grammar (raw : String) :
    (∀ q, parse raw = q ↔ q.Reads raw) ∧
      ∀ (suffix : String) (n : Nat), Indexed suffix.toList [] n →
        (∀ value, parse ("text:" ++ value ++ suffix) = ⟨.exact value, some n⟩ ∧
          parse ("contains:" ++ value ++ suffix) = ⟨.part value, some n⟩ ∧
          parse ("label:" ++ value ++ suffix) = ⟨.label value, some n⟩) ∧
        ((∀ body m, ¬ Indexed raw.toList body m) →
          parse (raw ++ suffix) = { parse raw with index := some n }) := by
  refine ⟨fun q => parse_eq_iff, fun suffix n hindex => ⟨fun value => ⟨?_, ?_, ?_⟩, ?_⟩⟩
  · exact parse_means (.text value) (by decide) hindex
  · exact parse_means (.contains value) (by decide) hindex
  · exact parse_means (.label value) (by decide) hindex
  · intro hunindexed
    rw [parse_append_index hindex, parse_of_not_indexed hunindexed]

/-- A text with a colon and a number between brackets that is too large for an index. -/
def largeNumber : String := "No. 1: [18446744073709551616]"

/-- An index of three digits, after a text that ends in an index, and after one that does not. -/
theorem parse_grammar_largeNumber :
    Indexed "[007]".toList [] 7 ∧ (∀ body n, ¬ Indexed largeNumber.toList body n) ∧
      parse ("contains:" ++ "10:30[2]" ++ "[007]") = ⟨.part "10:30[2]", some 7⟩ ∧
      parse (largeNumber ++ "[007]") = ⟨.exact largeNumber, some 7⟩ := by
  have hindex : Indexed "[007]".toList [] 7 :=
    @Indexed.intro [] "007".toList (by decide) (List.all_eq_true.1 (by decide)) (by decide)
  have hlarge : ∀ body n, ¬ Indexed largeNumber.toList body n :=
    not_indexed_of_splitIndex (by decide)
  obtain ⟨hreads, hends⟩ := parse_grammar largeNumber
  obtain ⟨hwords, happend⟩ := hends "[007]" 7 hindex
  have htext : parse largeNumber = ⟨.exact largeNumber, none⟩ := by decide
  refine ⟨hindex, hlarge, (hwords "10:30[2]").2.1, ?_⟩
  rw [happend hlarge, htext]

end Query
end UiSuite
