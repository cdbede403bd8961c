import UiSuite.Proofs.Json.Records
import UiSuite.Suite.Decoding

/-! The three shapes of a suite.

A list of steps is the case with these steps, and a case on its own is the suite of that case
under the name it has or is given. Written out that way all three are read alike, and what is
wrong with one is what is wrong with the other (`Suite.ofJson_shapes`). Which values are no suite
whatever their parts hold is said by `Misshapen`. -/
namespace UiSuite

open Json (Record Field Ascending get? insert presentField)

/-! ### Cases under a name -/

namespace TestCase

/-- The case with another description. -/
def describe (text : String) (c : TestCase) : TestCase :=
  { c with description := text }

/-- The case with a name for its description, if that is blank. -/
def named (name : String) (c : TestCase) : TestCase :=
  if Text.isBlankText c.description then { c with description := name } else c

/-- The fields of a case with a name for its description, if there is none or a blank one. -/
def described (name : String) (fields : List (String × Json)) : List (String × Json) :=
  match get? "description" fields with
  | none => insert "description" (.string name) fields
  | some (.string s) =>
    if Text.isBlankText s then insert "description" (.string name) fields else fields
  | some _ => fields

theorem named_describe (name text : String) (c : TestCase) :
    (c.describe text).named name =
      c.describe (if Text.isBlankText text then name else text) := by
  by_cases h : Text.isBlankText text <;> simp [named, describe, h]

/-- No field of a case but its description sees the description. -/
theorem ignores_describe (text : String) :
    ∀ f ∈ record.fields, f.name ≠ "description" → f.Ignores (describe text) := by
  refine List.forall_mem_cons.2 ⟨fun h => absurd rfl h, List.forall_mem_cons.2 ⟨fun _ => ?_,
    List.forall_mem_cons.2 ⟨fun _ => ?_, nofun⟩⟩⟩
  · exact Field.ignores_plain _ _ fun _ _ => rfl
  · exact Field.ignores_deep _ _ fun _ _ => rfl

/-- Fields other than the description, read on their own. -/
theorem foldlM_takeEntry_describe {fields : List (String × Json)}
    (h : ∀ field ∈ fields, field.1 ≠ "description") (text : String) (c : TestCase) :
    fields.foldlM record.takeEntry (c.describe text) =
      (fields.foldlM record.takeEntry c).map (describe text) :=
  Record.foldlM_takeEntry_map (ignores_describe text) h c

/-- The description of a case is the one among its fields, and empty if there is none. -/
theorem read_split {before after : List (String × Json)}
    (hbefore : ∀ field ∈ before, field.1 ≠ "description")
    (hafter : ∀ field ∈ after, field.1 ≠ "description") (text : Option String) :
    record.read (.object (before ++ presentField "description" (text.map .string) ++ after)) =
      ((before ++ after).foldlM record.takeEntry blank).map (describe (text.getD "")) := by
  show (before ++ presentField "description" (text.map .string) ++ after).foldlM record.takeEntry
    blank = _
  cases text with
  | none =>
    have hothers : ∀ field ∈ before ++ after, field.1 ≠ "description" :=
      List.forall_mem_append.2 ⟨hbefore, hafter⟩
    rw [Option.map_none, presentField, List.append_nil]
    -- The blank case has the empty description already.
    exact foldlM_takeEntry_describe hothers "" blank
  | some text =>
    rw [Option.map_some, presentField, List.append_assoc, List.foldlM_append, List.foldlM_append]
    cases before.foldlM record.takeEntry blank with
    | error e => rfl
    | ok c => exact foldlM_takeEntry_describe hafter text c

/-- **A case whose fields give it a name for its description is the case under that name.** -/
theorem read_described (name : String) {fields : List (String × Json)} (h : Ascending fields) :
    record.read (.object (described name fields)) =
      (record.read (.object fields)).map (named name) := by
  obtain ⟨before, after, hbefore, hafter, hsplit, hinsert⟩ :=
    Json.exists_split_key "description" h
  have hnamed (text : Option String) :
      (record.read (.object (before ++ presentField "description" (text.map .string) ++ after))).map
          (named name) =
        ((before ++ after).foldlM record.takeEntry blank).map
          (describe (if Text.isBlankText (text.getD "") then name else text.getD "")) := by
    rw [read_split hbefore hafter]
    cases (before ++ after).foldlM record.takeEntry blank with
    | error e => rfl
    | ok c => exact congrArg Except.ok (named_describe name _ c)
  have hgiven : record.read (.object (insert "description" (.string name) fields)) =
      ((before ++ after).foldlM record.takeEntry blank).map (describe name) := by
    have hread := read_split hbefore hafter (some name)
    rw [Option.map_some, presentField, List.append_assoc] at hread
    rw [hinsert]
    exact hread
  rw [described]
  match hdescription : get? "description" fields with
  | none =>
    rw [hdescription] at hsplit
    rw [hgiven, hsplit]
    exact (hnamed none).symm
  | some (.string s) =>
    rw [hdescription] at hsplit
    have hs := hnamed (some s)
    rw [Option.getD_some, Option.map_some, ← hsplit] at hs
    by_cases hblank : Text.isBlankText s
    · rw [if_pos hblank] at hs
      simp only [if_pos hblank]
      rw [hgiven, hs]
    · rw [if_neg hblank] at hs
      simp only [if_neg hblank]
      rw [hs, hsplit]
      exact read_split hbefore hafter (some s)
  | some .null | some (.bool _) | some (.number _) | some (.array _) | some (.object _) =>
    -- A description that is no text is an error, under whatever name.
    rw [hdescription] at hsplit
    rw [hsplit]
    simp only [Record.read, presentField, List.append_assoc, List.foldlM_append]
    cases before.foldlM record.takeEntry record.blank <;> rfl

end TestCase

/-! ### Values of the wrong shape -/

/-- A value is no suite, whatever its parts hold. -/
inductive Misshapen : Json → Misshape → Prop
  | casesNotList {fields : List (String × Json)} {j : Json} (hcases : get? "testCases" fields = some j)
      (hlist : ∀ items, j ≠ .array items) : Misshapen (.object fields) .casesNotList
  | noCases {fields : List (String × Json)} (hcases : get? "testCases" fields = none)
      (hsteps : get? "steps" fields = none) : Misshapen (.object fields) .noCases
  | neither {j : Json} (harray : ∀ items, j ≠ .array items)
      (hobject : ∀ fields, j ≠ .object fields) : Misshapen j (.neither j)

namespace Suite

/-- What is wrong with a part is not the shape of the whole. -/
theorem part_eq_error {α : Type} {r : Except Json.ShapeError α} {e : DecodeError}
    (h : part r = .error e) : ∃ f, e = .field f := by
  cases r with
  | error f =>
    cases h
    exact ⟨f, rfl⟩
  | ok a => cases h

theorem part_bind_eq_error {α β : Type} {r : Except Json.ShapeError α} {f : α → β}
    {e : DecodeError} (h : (part r >>= fun a => pure (f a)) = .error e) : ∃ f, e = .field f := by
  cases r with
  | error f =>
    cases h
    exact ⟨f, rfl⟩
  | ok a => cases h

/-- A value that is no suite has the wrong shape, or else a part of it has. -/
theorem misshapen_or_field {name : String} {j : Json} {e : DecodeError}
    (h : ofJson name j = .error e) :
    (∃ m, e = .misshape m ∧ Misshapen j m) ∨ ∃ f, e = .field f := by
  match j with
  | .array items => exact .inr (part_bind_eq_error h)
  | .object fields =>
    rw [ofJson] at h
    split at h
    · exact .inr (part_eq_error h)
    · next hlist hcases =>
      cases h
      exact .inl ⟨_, rfl, .casesNotList hcases hlist⟩
    · exact .inr (part_bind_eq_error h)
    · next hcases hsteps =>
      cases h
      exact .inl ⟨_, rfl, .noCases hcases hsteps⟩
  | .null | .bool _ | .number _ | .string _ =>
    cases h
    exact .inl ⟨_, rfl, .neither nofun nofun⟩

theorem ofJson_of_misshapen (name : String) {j : Json} {m : Misshape} (h : Misshapen j m) :
    ofJson name j = .error (.misshape m) := by
  cases h with
  | @casesNotList fields j hcases hlist =>
    rw [ofJson, hcases]
    cases j with
    | array items => exact absurd rfl (hlist items)
    | null | bool b | number n | string s | object fields => rfl
  | noCases hcases hsteps => rw [ofJson, hcases, hsteps]
  | neither harray hobject =>
    cases j with
    | array items => exact absurd rfl (harray items)
    | object fields => exact absurd rfl (hobject fields)
    | null | bool b | number n | string s => rfl

theorem ofJson_eq_misshape {name : String} {j : Json} {m : Misshape} :
    ofJson name j = .error (.misshape m) ↔ Misshapen j m := by
  refine ⟨fun h => ?_, ofJson_of_misshapen name⟩
  rcases misshapen_or_field h with ⟨_, ⟨rfl⟩, hm⟩ | ⟨_, hf⟩
  · exact hm
  · cases hf

/-! ### The shapes agree -/

/-- A list of steps is a case with these steps. -/
theorem ofJson_array (name : String) (items : List Json) :
    ofJson name (.array items) = ofJson name (.object [("steps", .array items)]) := by
  have hread : TestCase.record.read (.object [("steps", .array items)]) =
      (Json.Reader.list Step.record.read (.array items)).map fun steps => ⟨"", none, steps⟩ := by
    show (Except.map _ _ >>= pure) = _
    rw [bind_pure]
    rfl
  show _ = (part (TestCase.record.read (.object [("steps", .array items)])) >>= _)
  rw [hread, ofJson]
  cases Json.Reader.list Step.record.read (.array items) with
  | error e => rfl
  | ok steps => rfl

/-- A case is read as the one case of a suite. -/
theorem read_oneCase (name : String) (fields : List (String × Json)) :
    Suite.record.read (.object [("name", .string name), ("testCases", .array [.object fields])]) =
      (TestCase.record.read (.object fields)).map (ofCase name) := by
  show (Except.map _ (TestCase.record.read (.object fields) >>= _) >>= pure) = _
  cases TestCase.record.read (.object fields) <;> rfl

/-- A case of its own is the suite of that case, under the name it has or is given. -/
theorem ofJson_case (name : String) {fields : List (String × Json)} (h : Ascending fields)
    (hcases : get? "testCases" fields = none) (hsteps : get? "steps" fields ≠ none) :
    let own := (ownName fields).getD name
    ofJson name (.object fields) =
      ofJson name (.object [("name", .string own),
        ("testCases", .array [.object (TestCase.described own fields)])]) := by
  intro own
  obtain ⟨steps, hsteps⟩ := Option.ne_none_iff_exists'.1 hsteps
  show _ = part (Suite.record.read _)
  rw [read_oneCase, TestCase.read_described own h, ofJson, hcases, hsteps]
  cases TestCase.record.read (.object fields) <;> rfl

/-- **The three shapes of a suite agree**, as suites and in what is wrong with them. A value is
refused for its shape exactly when it is misshapen; all else that is refused is refused for one
of its parts. -/
theorem ofJson_shapes (name : String) :
    (∀ items, ofJson name (.array items) = ofJson name (.object [("steps", .array items)])) ∧
      (∀ fields, Ascending fields → get? "testCases" fields = none →
        get? "steps" fields ≠ none →
        let own := (ownName fields).getD name
        ofJson name (.object fields) =
          ofJson name (.object [("name", .string own),
            ("testCases", .array [.object (TestCase.described own fields)])])) ∧
      (∀ j m, ofJson name j = .error (.misshape m) ↔ Misshapen j m) ∧
      ∀ j e, ofJson name j = .error e → (∃ m, e = .misshape m) ∨ ∃ f, e = .field f := by
  refine ⟨ofJson_array name, fun fields => ofJson_case name, fun j m => ofJson_eq_misshape,
    fun j e h => ?_⟩
  exact (misshapen_or_field h).imp_left fun ⟨m, hm, _⟩ => ⟨m, hm⟩

/-- A case with a blank description and a step that is no record. -/
def stepless : List (String × Json) :=
  [("description", .string "\t"), ("name", .string "Log in"), ("steps", .array [.string "click"])]

/-- What is wrong with the case is wrong with its suite, and is no matter of its shape. -/
theorem ofJson_shapes_stepless :
    (Ascending stepless ∧ get? "testCases" stepless = none ∧ get? "steps" stepless ≠ none) ∧
      ofJson "S" (.object [("name", .string "Log in"), ("testCases", .array [.object
          (insert "description" (.string "Log in") stepless)])]) =
        .error (.field (.wrongType (.string "click") (.record "Step"))) ∧
      ¬ Misshapen (.object stepless) .noCases := by
  have hordered : Ascending stepless := by decide
  have hsteps : get? "steps" stepless ≠ none := nofun
  obtain ⟨-, hcase, hshape, hother⟩ := ofJson_shapes "S"
  have hwrong : ofJson "S" (.object stepless) =
      .error (.field (.wrongType (.string "click") (.record "Step"))) := by rfl
  refine ⟨⟨hordered, rfl, hsteps⟩, (hcase stepless hordered rfl hsteps).symm.trans hwrong, ?_⟩
  rcases hother _ _ hwrong with ⟨_, hm⟩ | _
  · cases hm
  · rw [← hshape, hwrong]
    exact nofun

end Suite
end UiSuite
