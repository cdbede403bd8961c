import UiSuite.Proofs.Json.Numeral
import UiSuite.Proofs.Selector.Grammar
import UiSuite.Proofs.Text.Trimming

/-! Selectors that are written and read again.

What a selector was parsed as is written with the word of its strategy, a name without the blanks
around it, and an index as a number. Two things can be lost. A text is written without a word, so
one that begins like a word and its value is read as that (`Strategy.IsMisread`). And a name that
ends in an index is written so that this is the index of the query, where the query has none: the
blank that kept it apart is gone (`Query.HidesIndex`). Nothing else is lost
(`Query.parse_render`). -/
namespace UiSuite

open Text (trimmed trimmed_trimmed)

namespace Strategy

/-! ### Words and names -/

/-- Whether a strategy asks for a text that alone is read as a word and its value. -/
def IsMisread (s : Strategy) : Prop :=
  ∃ before after : String, s = .exact (before ++ ":" ++ after) ∧ ':' ∉ before.toList ∧
    trimmed before ∈ words

theorem Reads.unique {body : String} {s t : Strategy} (h : s.Reads body) (h' : t.Reads body) :
    s = t := by
  rw [← Query.strategyOf_of_reads h, Query.strategyOf_of_reads h']

/-- A word that makes a text of its value leaves it as it stands. -/
theorem Means.eq_of_exact {word value text : String} (h : Means word value (.exact text)) :
    text = value := by
  cases h
  rfl

/-- A text is read as it stands unless it is read as a word and its value. -/
theorem reads_exact_iff {text : String} :
    (Strategy.exact text).Reads text ↔ ¬ (Strategy.exact text).IsMisread := by
  constructor
  · rintro hreads ⟨before, after, htext, hcolon, hword⟩
    cases htext
    obtain ⟨s, hmeans⟩ := exists_means hword after
    cases (Reads.word hcolon hmeans).unique hreads
    -- The value would be as long as the whole text.
    have hlength := congrArg String.length hmeans.eq_of_exact
    simp only [String.length_append] at hlength
    have hone : (":" : String).length = 1 := rfl
    omega
  · intro hmisread
    by_cases hcolon : ':' ∈ text.toList
    · obtain ⟨before, after, hbefore, rfl⟩ := exists_first_colon hcolon
      exact .noWord hbefore fun hword => hmisread ⟨before, after, rfl, hbefore, hword⟩
    · exact .plain hcolon

theorem isCalled_trimmed {kind : Element.Kind} {name : String} :
    kind.IsCalled (trimmed name) ↔ kind.IsCalled name := by
  rw [Element.Kind.IsCalled, trimmed_trimmed, ← Element.Kind.IsCalled]

/-- A kind that a selector can ask for is called by its name. -/
theorem isCalled_name {kind : Element.Kind} {name : String} (h : kind.IsCalled name) :
    kind.IsCalled kind.name := by
  have hother : kind ≠ .other := by
    rintro rfl
    obtain ⟨typeName, hmem, -⟩ := h
    cases hmem
  exact Element.Kind.ofTypeName?_eq_some.1 (Element.Kind.ofTypeName?_name kind hother)

/-- What a word makes of a text, other than the text itself, is written so that it is read
again. -/
theorem Means.reads_render {word value : String} {s : Strategy} (h : Means word value s)
    (htext : ∀ text, s ≠ .exact text) : s.Reads s.render := by
  cases h with
  | text _ => exact absurd rfl (htext value)
  | contains _ => exact (Means.contains value).reads (by decide)
  | label _ => exact (Means.label value).reads (by decide)
  | key _ | id _ =>
    have hmeans := Means.key (trimmed value)
    rw [trimmed_trimmed] at hmeans
    exact hmeans.reads (by decide)
  | reference _ =>
    have hmeans := Means.reference (trimmed value)
    rw [trimmed_trimmed] at hmeans
    exact hmeans.reads (by decide)
  | kind h => exact (Means.kind (isCalled_name h)).reads (by decide)
  | unknownKind h =>
    have hmeans := Means.unknownKind fun kind hcalled => h kind (isCalled_trimmed.1 hcalled)
    rw [trimmed_trimmed] at hmeans
    exact hmeans.reads (by decide)

/-- A kind that a body asks for is called by its name. -/
theorem Reads.isCalled_name {body : String} {kind : Element.Kind}
    (h : (Strategy.kind kind).Reads body) : kind.IsCalled kind.name := by
  cases h with
  | @word before after _ hcolon hmeans =>
    generalize trimmed before = word at hmeans
    cases hmeans with
    | kind h => exact Strategy.isCalled_name h

/-- **What a body was read as** is read again from how it is written, unless that is a text that is
misread. -/
theorem Reads.render_iff {body : String} {s : Strategy} (h : s.Reads body) :
    s.Reads s.render ↔ ¬ s.IsMisread := by
  by_cases htext : ∃ text, s = .exact text
  · obtain ⟨text, rfl⟩ := htext
    exact reads_exact_iff
  · have hother : ∀ text, s ≠ .exact text := fun text hs => htext ⟨text, hs⟩
    have hmisread : ¬ s.IsMisread := fun ⟨_, _, hs, _⟩ => hother _ hs
    refine iff_of_true ?_ hmisread
    cases h with
    | plain | noWord => exact absurd rfl (hother _)
    | word hcolon hmeans => exact hmeans.reads_render hother

/-! ### Indices -/

/-- What stands after the word of a strategy. -/
def subject : Strategy → String
  | .exact text | .part text => text
  | .key k => k
  | .label l => l
  | .kind k => k.name
  | .unknownKind name | .reference name => name

/-- A strategy is written with a word that opens no bracket. -/
theorem exists_render_eq (s : Strategy) :
    ∃ before : String, '[' ∉ before.toList ∧ s.render = before ++ s.subject := by
  cases s with
  | exact text => exact ⟨"", by decide, String.empty_append.symm⟩
  | part text => exact ⟨"contains:", by decide, rfl⟩
  | key k => exact ⟨"key:", by decide, rfl⟩
  | label l => exact ⟨"label:", by decide, rfl⟩
  | kind k => exact ⟨"type:", by decide, rfl⟩
  | unknownKind name => exact ⟨"type:", by decide, rfl⟩
  | reference name => exact ⟨"alias:", by decide, rfl⟩

end Strategy

namespace Query

/-- Whether a text ends in an index. -/
def EndsIndexed (text : String) : Prop :=
  ∃ body n, Indexed text.toList body n

/-- A text that ends in one with an index has one. -/
theorem EndsIndexed.append {text : String} (h : EndsIndexed text) (before : String) :
    EndsIndexed (before ++ text) := by
  obtain ⟨body, n, hindexed⟩ := h
  refine ⟨before.toList ++ body, n, ?_⟩
  rw [String.toList_append]
  exact hindexed.append before.toList

/-- A strategy as it is written ends in an index exactly if what it is about does. -/
theorem endsIndexed_render {s : Strategy} : EndsIndexed s.render ↔ EndsIndexed s.subject := by
  obtain ⟨before, hbefore, hrender⟩ := s.exists_render_eq
  rw [hrender]
  constructor
  · rintro ⟨body, n, hindexed⟩
    rw [String.toList_append] at hindexed
    obtain ⟨rest, -, hrest⟩ := (indexed_append_iff hbefore).1 hindexed
    exact ⟨rest, n, hrest⟩
  · exact fun h => h.append before

/-- The name of a kind ends in no index. -/
theorem not_endsIndexed_name (kind : Element.Kind) : ¬ EndsIndexed kind.name := by
  rintro ⟨body, n, h⟩
  have hnone : (splitIndex kind.name.toList).2 = none := by cases kind <;> decide
  exact not_indexed_of_splitIndex hnone body n h

/-- Whether a query without an index asks for a name that ends in one. -/
def HidesIndex (q : Query) : Prop :=
  q.index = none ∧
    match q.strategy with
    | .key name | .reference name | .unknownKind name => EndsIndexed name
    | .exact _ | .part _ | .label _ | .kind _ => False

/-- Only a name can end in an index where the selector does not. A text, and a part of one, ends
where the selector ends. -/
theorem endsIndexed_subject {raw : String} {s : Strategy} (hraw : ¬ EndsIndexed raw)
    (h : s.Reads raw) : EndsIndexed s.subject ↔ HidesIndex ⟨s, none⟩ := by
  cases h with
  | plain | noWord => exact iff_of_false hraw And.right
  | @word before after _ hcolon hmeans =>
    have hafter : ¬ EndsIndexed after := fun h => hraw (h.append (before ++ ":"))
    generalize trimmed before = word at hmeans
    cases hmeans with
    | text _ | contains _ | label _ => exact iff_of_false hafter And.right
    | kind _ => exact iff_of_false (not_endsIndexed_name _) And.right
    | key _ | id _ | reference _ | unknownKind _ => exact ⟨fun h => ⟨rfl, h⟩, And.right⟩

/-- The digits of a number between brackets are an index, if it is within bounds. -/
theorem indexed_toString {n : Nat} (h : n ≤ greatestIndex) :
    Indexed ("[" ++ toString n ++ "]").toList [] n := by
  have htoList : ("[" ++ toString n ++ "]").toList = [] ++ '[' :: (Nat.toDigits 10 n ++ [']']) := by
    simp [Nat.toString_eq_repr, Nat.repr]
  obtain ⟨d, ds, hdigits, -⟩ := Decimal.toDigits_eq_cons n
  have hne : Nat.toDigits 10 n ≠ [] := by
    rw [hdigits]
    exact List.cons_ne_nil d ds
  have hdigit : ∀ c ∈ Nat.toDigits 10 n, c.isDigit = true :=
    fun c hc => Nat.isDigit_of_mem_toDigits (by decide) (by decide) hc
  have hle : Decimal.valueOf (Nat.toDigits 10 n) ≤ greatestIndex := by
    rwa [Decimal.valueOf_toDigits]
  have hindexed := @Indexed.intro [] _ hne hdigit hle
  rwa [Decimal.valueOf_toDigits, ← htoList] at hindexed

/-- A query with an index is written and read again as its strategy is. -/
theorem parse_render_some {s : Strategy} {n : Nat} (h : n ≤ greatestIndex) :
    parse (render ⟨s, some n⟩) = ⟨s, some n⟩ ↔ s.Reads s.render := by
  have hrender : render ⟨s, some n⟩ = s.render ++ ("[" ++ toString n ++ "]") := by
    simp only [render, String.append_assoc]
  rw [hrender, parse_append_index (indexed_toString h), ← strategyOf_eq_iff]
  simp

/-- A query without an index is written as its strategy, which must not end in an index. -/
theorem parse_render_none {s : Strategy} :
    parse (render ⟨s, none⟩) = ⟨s, none⟩ ↔ s.Reads s.render ∧ ¬ EndsIndexed s.render := by
  rw [parse_eq_iff]
  constructor
  · intro h
    cases h with
    | unindexed hunindexed hbody => exact ⟨hbody, fun ⟨body, n, h⟩ => hunindexed body n h⟩
  · exact fun ⟨hbody, h⟩ => .unindexed (fun body n hindexed => h ⟨body, n, hindexed⟩) hbody

/-- **What a selector was parsed as** is parsed again from how it is written, exactly unless that is
a text that is misread or a name that hides an index. The name of a kind is a type name of that
kind. -/
theorem parse_render (raw : String) :
    (parse (parse raw).render = parse raw ↔
      ¬ (parse raw).strategy.IsMisread ∧ ¬ (parse raw).HidesIndex) ∧
    ∀ kind, (parse raw).strategy = .kind kind →
      (parse raw).strategy.render = "type:" ++ kind.name ∧
        Element.Kind.ofTypeName? kind.name = some kind := by
  have hreads : (parse raw).Reads raw := parse_eq_iff.1 rfl
  generalize parse raw = q at hreads ⊢
  constructor
  · cases hreads with
    | @indexed body n s hindexed hbody =>
      have hhides : ¬ HidesIndex ⟨s, some n⟩ := fun h => nomatch h.1
      rw [parse_render_some hindexed.le, hbody.render_iff, and_iff_left hhides]
    | unindexed hunindexed hbody =>
      have hraw : ¬ EndsIndexed raw := fun ⟨body, n, h⟩ => hunindexed body n h
      rw [parse_render_none, hbody.render_iff, endsIndexed_render, endsIndexed_subject hraw hbody]
  · rintro kind hkind
    have hcalled : kind.IsCalled kind.name := by
      cases hreads with
      | indexed hindexed hbody | unindexed hunindexed hbody =>
        cases hkind
        exact hbody.isCalled_name
    rw [hkind]
    exact ⟨rfl, Element.Kind.ofTypeName?_eq_some.2 hcalled⟩

/-- A kind is written by its own name, and a number without zeros before it. A text that begins
like a key is read as one, and a blank after a key is not there to keep an index apart. -/
theorem parse_render_button :
    (parse "type: ElevatedButton[007]").strategy = .kind .button ∧
      (parse "type: ElevatedButton[007]").render = "type:Button[7]" ∧
      parse "type:Button[7]" = parse "type: ElevatedButton[007]" ∧
      Element.Kind.ofTypeName? "Button" = some .button ∧
      parse (parse "text:id: 5").render ≠ parse "text:id: 5" ∧
      parse (parse "key:row[1] ").render ≠ parse "key:row[1] " := by
  have hbutton : parse "type: ElevatedButton[007]" = ⟨.kind .button, some 7⟩ := by decide
  have hmisread : ¬ (parse "type: ElevatedButton[007]").strategy.IsMisread := by
    rw [hbutton]
    exact fun ⟨_, _, hs, _⟩ => nomatch hs
  have hhides : ¬ (parse "type: ElevatedButton[007]").HidesIndex := by
    rw [hbutton]
    exact fun h => nomatch h.1
  have hrender : (parse "type: ElevatedButton[007]").render = "type:Button[7]" := by
    rw [hbutton]
    decide
  have hkind : (parse "type: ElevatedButton[007]").strategy = .kind .button := by rw [hbutton]
  obtain ⟨hagain, hname⟩ := parse_render "type: ElevatedButton[007]"
  have hread := hagain.2 ⟨hmisread, hhides⟩
  rw [hrender] at hread
  refine ⟨hkind, hrender, hread, (hname .button hkind).2, fun htext => ?_, fun hkey => ?_⟩
  · have htextMisread : (parse "text:id: 5").strategy.IsMisread :=
      ⟨"id", " 5", by decide, by decide, by decide⟩
    exact ((parse_render "text:id: 5").1.1 htext).1 htextMisread
  · have hindexed : Indexed "row[1]".toList "row".toList 1 :=
      @Indexed.intro "row".toList "1".toList (by decide) (List.all_eq_true.1 (by decide))
        (by decide)
    have hkeyHides : (parse "key:row[1] ").HidesIndex := by
      have hquery : parse "key:row[1] " = ⟨.key "row[1]", none⟩ := by decide
      rw [hquery]
      exact ⟨rfl, _, _, hindexed⟩
    exact ((parse_render "key:row[1] ").1.1 hkey).2 hkeyHides

end Query
end UiSuite
