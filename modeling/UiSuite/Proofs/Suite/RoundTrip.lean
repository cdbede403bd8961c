import UiSuite.Proofs.Json.Records
import UiSuite.Suite.Decoding

/-! Suites are read back from their values.

Reading is lenient: scalars count by their texts, absent parts have defaults, a record may be
written as a list. What was read is written in one way and read from that as it is
(`Suite.ofJson_toJson`). The one part with a value of its own is the wait time, so what is read
has to be shown of wait times alone: each is `Legible`. -/
namespace UiSuite

open Json (Record Field Reader presentField)

/-! ### Wait times -/

namespace WaitTime

/-- A wait time that is read back from its value. -/
def Legible (w : WaitTime) : Prop :=
  Reader.optional (fun j => .ok (ofJson j)) w.toJson = .ok (some w)

theorem legible_millis (n : Nat) : (millis n).Legible := by
  have hn : ofJson (Json.ofNat n) = millis n := by simp [ofJson, Json.ofNat]
  exact congrArg (fun w => Except.ok (some w)) hn

/-- Every wait time that is given is legible. -/
theorem legible_of_read {j : Json} {w : WaitTime}
    (h : Reader.optional (fun j => .ok (ofJson j)) j = .ok (some w)) : w.Legible := by
  cases j with
  | null => cases h
  | number n =>
    cases n with
    | integer i =>
      have hw : ofJson (.number (.integer i)) = w := by simpa [Reader.optional, Except.map] using h
      rw [ofJson] at hw
      by_cases hsign : 0 ≤ i
      · rw [if_pos hsign] at hw
        exact hw ▸ legible_millis i.toNat
      · rw [if_neg hsign] at hw
        subst hw
        exact congrArg (fun w => Except.ok (some w)) (if_neg hsign)
    | float x =>
      cases h
      rfl
  | bool b | string s | array items | object fields =>
    cases h
    rfl

end WaitTime

/-! ### Steps -/

namespace Step

/-- A step whose wait time, if it has one, is read back. -/
def Legible (s : Step) : Prop :=
  ∀ w, s.waitTime = some w → w.Legible

theorem keeps_legible : record.Keeps Legible where
  blank := nofun
  field := by
    have hother {β : Type} {set : β → Step → Step} (hset : ∀ v s, (set v s).waitTime = s.waitTime)
        {read : Reader β} (j : Json) (v : β) (s : Step) (hs : s.Legible) (_ : read j = .ok v) :
        (set v s).Legible := fun w hw => hs w (hset v s ▸ hw)
    refine List.forall_mem_cons.2 ⟨Field.keeps_plain _ (hother fun _ _ => rfl), ?_⟩
    refine List.forall_mem_cons.2 ⟨Field.keeps_plain _ (hother fun _ _ => rfl), ?_⟩
    refine List.forall_mem_cons.2 ⟨Field.keeps_plain _ (hother fun _ _ => rfl), ?_⟩
    refine List.forall_mem_cons.2 ⟨Field.keeps_deep _ (hother fun _ _ => rfl), ?_⟩
    refine List.forall_mem_cons.2 ⟨Field.keeps_deep _ (hother fun _ _ => rfl), ?_⟩
    refine List.forall_mem_cons.2 ⟨Field.keeps_deep _ fun j v s _ hread w hw => ?_, nofun⟩
    cases hw
    exact WaitTime.legible_of_read hread

/-- The fields of a step in the order of their keys. -/
theorem toJson_eq (s : Step) :
    s.toJson = .object ([("action", .string s.action)] ++
      presentField "alias" (s.aliasName.map .string) ++
      presentField "expected" (s.expected.map .string) ++
      presentField "selector" (s.selector.map .string) ++
      presentField "value" (s.value.map .string) ++
      presentField "waitTime" (s.waitTime.map WaitTime.toJson)) := by
  obtain ⟨action, selector, aliasName, value, expected, waitTime⟩ := s
  cases selector <;> cases aliasName <;> cases value <;> cases expected <;> cases waitTime <;> rfl

theorem read_toJson {s : Step} (h : s.Legible) : record.read s.toJson = .ok s := by
  obtain ⟨action, selector, aliasName, value, expected, waitTime⟩ := s
  have htexts : ([("action", Json.string action)] ++
      presentField "alias" (aliasName.map .string) ++
      presentField "expected" (expected.map .string) ++
      presentField "selector" (selector.map .string) ++
      presentField "value" (value.map .string)).foldlM record.takeEntry blank =
        .ok ⟨action, selector, aliasName, value, expected, none⟩ := by
    cases selector <;> cases aliasName <;> cases value <;> cases expected <;> rfl
  rw [toJson_eq, Record.read, List.foldlM_append]
  show (List.foldlM record.takeEntry blank _ >>= _) = _
  rw [htexts]
  cases waitTime with
  | none => rfl
  | some w =>
    show ((Reader.optional _ w.toJson).map _ >>= pure) = _
    rw [h w rfl]
    rfl

end Step

/-! ### Cases -/

namespace TestCase

def Legible (c : TestCase) : Prop :=
  ∀ s ∈ c.steps, s.Legible

theorem keeps_legible : record.Keeps Legible where
  blank := nofun
  field := by
    refine List.forall_mem_cons.2 ⟨Field.keeps_plain _ fun _ _ _ hc _ => hc, ?_⟩
    refine List.forall_mem_cons.2 ⟨Field.keeps_plain _ fun _ _ _ hc _ => hc, ?_⟩
    refine List.forall_mem_cons.2 ⟨Field.keeps_deep _ fun j v c _ hread => ?_, nofun⟩
    exact Reader.forall_of_list (fun _ _ => Step.keeps_legible.read) hread

theorem read_toJson {c : TestCase} (h : c.Legible) : record.read c.toJson = .ok c := by
  obtain ⟨description, sourceFile, steps⟩ := c
  have hsteps : Reader.list Step.record.read (.array (steps.map Step.toJson)) = .ok steps :=
    Reader.list_map fun s hs => Step.read_toJson (h s hs)
  cases sourceFile with
  | none =>
    show ((Reader.list Step.record.read _).map _ >>= pure) = _
    rw [hsteps]
    rfl
  | some label =>
    show ((Reader.list Step.record.read _).map _ >>= pure) = _
    rw [hsteps]
    rfl

end TestCase

/-! ### Suites -/

namespace Suite

def Legible (s : Suite) : Prop :=
  ∀ c ∈ s.cases, c.Legible

theorem keeps_legible : record.Keeps Legible where
  blank := nofun
  field := by
    refine List.forall_mem_cons.2 ⟨Field.keeps_plain _ fun _ _ _ hs _ => hs, ?_⟩
    refine List.forall_mem_cons.2 ⟨Field.keeps_plain _ fun _ _ _ hs _ => hs, ?_⟩
    refine List.forall_mem_cons.2 ⟨Field.keeps_deep _ fun j v s _ hread => ?_, nofun⟩
    exact Reader.forall_of_list (fun _ _ => TestCase.keeps_legible.read) hread

theorem read_part {α : Type} {r : Except Json.ShapeError α} {a : α} (h : part r = .ok a) :
    r = .ok a := by
  cases r with
  | error e => cases h
  | ok b =>
    cases h
    rfl

/-- Whatever is read as a suite, in any of the three shapes, is legible. -/
theorem legible_ofJson {name : String} {j : Json} {s : Suite} (h : ofJson name j = .ok s) :
    s.Legible := by
  match j with
  | .array items =>
    obtain ⟨steps, hsteps, hs⟩ := Json.bind_eq_ok.1 h
    cases hs
    have hall := Reader.forall_of_list (fun _ _ => Step.keeps_legible.read) (read_part hsteps)
    exact List.forall_mem_cons.2 ⟨hall, nofun⟩
  | .object fields =>
    rw [ofJson] at h
    split at h
    · exact keeps_legible.read (read_part h)
    · cases h
    · obtain ⟨c, hc, hs⟩ := Json.bind_eq_ok.1 h
      cases hs
      have hlegible : c.Legible := TestCase.keeps_legible.read (read_part hc)
      refine List.forall_mem_cons.2 ⟨?_, nofun⟩
      split
      · exact hlegible
      · exact hlegible
    · cases h
  | .null | .bool _ | .number _ | .string _ => cases h

/-- Labels are no matter of the steps. -/
theorem legible_withDefaults {s : Suite} (h : s.Legible) (name source : String) :
    (s.withDefaults name source).Legible := by
  intro c hc
  obtain ⟨own, hown, rfl⟩ := List.mem_map.1 hc
  exact h own hown

theorem read_toJson {s : Suite} (h : s.Legible) (name : String) : ofJson name s.toJson = .ok s := by
  obtain ⟨own, source, cases⟩ := s
  have hcases : Reader.list TestCase.record.read (.array (cases.map TestCase.toJson)) = .ok cases :=
    Reader.list_map fun c hc => TestCase.read_toJson (h c hc)
  cases source with
  | none =>
    show part ((Reader.list TestCase.record.read _).map _ >>= pure) = _
    rw [hcases]
    rfl
  | some label =>
    show part ((Reader.list TestCase.record.read _).map _ >>= pure) = _
    rw [hcases]
    rfl

/-- **A suite that was read is read back from its value**, with the labels it came with and with
any that are filled in, whatever the name in reserve. -/
theorem ofJson_toJson {name : String} {j : Json} {s : Suite} (h : ofJson name j = .ok s) :
    (∀ other, ofJson other s.toJson = .ok s) ∧
      ∀ label source other,
        ofJson other (s.withDefaults label source).toJson = .ok (s.withDefaults label source) := by
  have hlegible := legible_ofJson h
  exact ⟨read_toJson hlegible, fun label source =>
    read_toJson (legible_withDefaults hlegible label source)⟩

/-- A step written as a list, with scalars of all kinds, and one whose wait time is no number. -/
def looseSteps : Json :=
  .array [.array [.string "type", .null, .string "field", .number (.integer 42), .bool true,
      .string "1.5"],
    .object [("action", .string "wait"), ("waitTime", .array [.null])]]

/-- What is read of it is read back. -/
theorem ofJson_toJson_looseSteps :
    ∃ s, ofJson "S" looseSteps = .ok s ∧ ofJson "" s.toJson = .ok s ∧
      ofJson "" (s.withDefaults "S" "loose.yaml").toJson = .ok (s.withDefaults "S" "loose.yaml") := by
  have hread : ∃ s, ofJson "S" looseSteps = .ok s := ⟨_, rfl⟩
  obtain ⟨s, hs⟩ := hread
  obtain ⟨hown, hlabelled⟩ := ofJson_toJson hs
  exact ⟨s, hs, hown "", hlabelled "S" "loose.yaml" ""⟩

end Suite
end UiSuite
