import UiSuite.Proofs.Decimal.Spelling
import UiSuite.Proofs.Json.Records
import UiSuite.Suite.Format

/-! Wait times as numbers and as texts.

A wait time counts for a step exactly as it is given: the rest of the step is read as if it were
not there (`Step.read_waitTime`). An integer means the same as a number and as a text, whatever
zeros, sign and blanks the text has: from 0 on it is that many milliseconds, without rounding,
and below 0 the default stays in force (`Step.waitMillis_spelled`). -/
namespace UiSuite

open Decimal (Spells)
open Json (Record Field)

/-! ### What an integer means -/

namespace WaitTime

/-- The milliseconds of an integer, if it is not below zero. -/
def millisOf (i : Int) : Option Nat :=
  if 0 ≤ i then some i.toNat else none

theorem millisOf_natCast (n : Nat) : millisOf n = some n :=
  if_pos (Int.natCast_nonneg n)

theorem millisOf_neg {n : Nat} (hn : n ≠ 0) : millisOf (-n) = none :=
  if_neg (by omega)

theorem toMillis_ofJson_integer (i : Int) :
    (ofJson (.number (.integer i))).toMillis = millisOf i := by
  by_cases h : 0 ≤ i <;> simp [ofJson, millisOf, h, toMillis]

/-- What a negative whole number is nearest to means no milliseconds. -/
theorem ofBinary64_nearestDecimal {n : Nat} (hn : n ≠ 0) :
    (Decimal.nearestDecimal true n 0).bind ofBinary64 = none := by
  cases h : Decimal.nearestDecimal true n 0 with
  | none => rfl
  | some x => exact if_pos (Decimal.isBelowZero_of_nearestDecimal hn h)

/-- **A text of an integer means that integer**, with any blanks around it. -/
theorem toMillis_of_spells {i : Int} (hi : i ≤ Number.greatest) {cs : List Char} (h : Spells i cs)
    {before after : List Char} (hbefore : before.all Text.isBlank = true)
    (hafter : after.all Text.isBlank = true) :
    (text (String.ofList (before ++ cs ++ after))).toMillis = millisOf i := by
  have htrim : Text.trim (String.ofList (before ++ cs ++ after)).toList = cs := by
    rw [String.toList_ofList, Text.trim_padded hbefore hafter h.isBlank_of_mem]
  rw [toMillis, htrim]
  cases h with
  | plain zeros n =>
    have hn : n ≤ greatest := by
      simp only [Number.greatest, greatest, UInt64.size] at hi ⊢
      omega
    simp only [Decimal.natural?_padded hn, millisOf_natCast]
  | plus zeros n =>
    have hn : n ≤ greatest := by
      simp only [Number.greatest, greatest, UInt64.size] at hi ⊢
      omega
    simp only [Decimal.natural?_plus_padded hn, millisOf_natCast]
  | minus zeros hn =>
    simp only [Decimal.natural?_minus, Decimal.parse?_minus_padded,
      ofBinary64_nearestDecimal hn, millisOf_neg hn]

end WaitTime

/-! ### Steps with a wait time -/

namespace Step

/-- The step with a wait time. -/
def waiting (w : WaitTime) (s : Step) : Step :=
  { s with waitTime := some w }

/-- No field of a step but its wait time sees the wait time. -/
theorem ignores_waiting (w : WaitTime) :
    ∀ f ∈ record.fields, f.name ≠ "waitTime" → f.Ignores (waiting w) := by
  refine List.forall_mem_cons.2 ⟨fun _ => Field.ignores_plain _ _ fun _ _ => rfl, ?_⟩
  refine List.forall_mem_cons.2 ⟨fun _ => Field.ignores_plain _ _ fun _ _ => rfl, ?_⟩
  refine List.forall_mem_cons.2 ⟨fun _ => Field.ignores_plain _ _ fun _ _ => rfl, ?_⟩
  refine List.forall_mem_cons.2 ⟨fun _ => Field.ignores_deep _ _ fun _ _ => rfl, ?_⟩
  refine List.forall_mem_cons.2 ⟨fun _ => Field.ignores_deep _ _ fun _ _ => rfl, ?_⟩
  exact List.forall_mem_cons.2 ⟨fun h => absurd rfl h, nofun⟩

theorem takeEntry_waitTime {j : Json} (hj : j ≠ .null) (s : Step) :
    record.takeEntry s ("waitTime", j) = .ok (s.waiting (.ofJson j)) := by
  cases j with
  | null => exact absurd rfl hj
  | bool b | number n | string s | array items | object fields => rfl

/-- **A step with a wait time is the step without it, waiting.** -/
theorem read_waitTime {before after : List (String × Json)}
    (hothers : ∀ field ∈ before ++ after, field.1 ≠ "waitTime") {j : Json} (hj : j ≠ .null) :
    record.read (.object (before ++ ("waitTime", j) :: after)) =
      (record.read (.object (before ++ after))).map (waiting (.ofJson j)) := by
  have hafter : ∀ field ∈ after, field.1 ≠ "waitTime" := fun field hf =>
    hothers field (List.mem_append_right before hf)
  rw [Record.read, Record.read, List.foldlM_append, List.foldlM_append]
  cases before.foldlM record.takeEntry record.blank with
  | error e => rfl
  | ok s =>
    show List.foldlM record.takeEntry s (("waitTime", j) :: after) =
      (after.foldlM record.takeEntry s).map (waiting (.ofJson j))
    rw [List.foldlM_cons, takeEntry_waitTime hj]
    exact Record.foldlM_takeEntry_map (ignores_waiting _) hafter s

/-- How long a step waits whose fields are others and a wait time. -/
theorem waitMillis_read {before after : List (String × Json)}
    (hothers : ∀ field ∈ before ++ after, field.1 ≠ "waitTime") {j : Json} (hj : j ≠ .null)
    (default : Nat) :
    (record.read (.object (before ++ ("waitTime", j) :: after))).map (·.waitMillis default) =
      (record.read (.object (before ++ after))).map
        fun _ => (WaitTime.ofJson j).toMillis.getD default := by
  rw [read_waitTime hothers hj]
  cases record.read (.object (before ++ after)) <;> rfl

/-- **An integer means the same as a number and as a text.** Whatever the other fields of a step
are, it is read if they are, and then it waits as many milliseconds as the integer says if that
is not below zero, and as long as the default if it is. -/
theorem waitMillis_spelled {i : Int} (hi : (Number.integer i).InRange) {cs : List Char}
    (hcs : Spells i cs) {left right : List Char} (hleft : left.all Text.isBlank = true)
    (hright : right.all Text.isBlank = true) {before after : List (String × Json)}
    (hothers : ∀ field ∈ before ++ after, field.1 ≠ "waitTime") (default : Nat) :
    let text := String.ofList (left ++ cs ++ right)
    let others := record.read (.object (before ++ after))
    let wait := if 0 ≤ i then i.toNat else default
    (record.read (.object (before ++ ("waitTime", .number (.integer i)) :: after))).map
        (·.waitMillis default) = others.map (fun _ => wait) ∧
      (record.read (.object (before ++ ("waitTime", .string text) :: after))).map
        (·.waitMillis default) = others.map fun _ => wait := by
  intro text others wait
  have hwait : (WaitTime.millisOf i).getD default = wait := by
    by_cases h : 0 ≤ i <;> simp [WaitTime.millisOf, wait, h]
  constructor
  · rw [waitMillis_read hothers (by simp), WaitTime.toMillis_ofJson_integer, hwait]
  · have htext : (WaitTime.ofJson (.string text)).toMillis = WaitTime.millisOf i :=
      WaitTime.toMillis_of_spells hi.2 hcs hleft hright
    rw [waitMillis_read hothers (by simp), htext, hwait]

/-- An integer past 53 bits after a plus and two zeros, between a no-break space and a line break,
and the least integer, as a text without blanks. -/
theorem waitMillis_spelled_extremes :
    let waiting (j : Json) := Json.object [("action", .string "wait"), ("waitTime", j)]
    ((Number.integer 9007199254740993).InRange ∧
      Spells 9007199254740993 "+009007199254740993".toList ∧
      ['\u00a0'].all Text.isBlank = true ∧ ['\n'].all Text.isBlank = true ∧
      (∀ field ∈ [("action", Json.string "wait")] ++ [], field.1 ≠ "waitTime") ∧
      (record.read (waiting (.number (.integer 9007199254740993)))).map (·.waitMillis 7) =
        .ok 9007199254740993 ∧
      (record.read (waiting (.string "\u00a0+009007199254740993\n"))).map (·.waitMillis 7) =
        .ok 9007199254740993) ∧
    (Number.integer (-9223372036854775808)).InRange ∧
      Spells (-9223372036854775808) "-9223372036854775808".toList ∧
      (record.read (waiting (.number (.integer (-9223372036854775808))))).map (·.waitMillis 7) =
        .ok 7 ∧
      (record.read (waiting (.string "-9223372036854775808"))).map (·.waitMillis 7) = .ok 7 := by
  intro waiting
  have hlong : (Number.integer 9007199254740993).InRange := by decide
  have hlongText : Spells 9007199254740993 "+009007199254740993".toList := .plus 2 9007199254740993
  have hleast : (Number.integer (-9223372036854775808)).InRange := by decide
  have hleastText : Spells (-9223372036854775808) "-9223372036854775808".toList :=
    .minus 0 (n := 9223372036854775808) (by decide)
  have hleft : ['\u00a0'].all Text.isBlank = true := by decide
  have hright : ['\n'].all Text.isBlank = true := by decide
  have hothers : ∀ field ∈ [("action", Json.string "wait")] ++ [], field.1 ≠ "waitTime" := by
    simp
  obtain ⟨hnumber, htext⟩ := waitMillis_spelled hlong hlongText hleft hright hothers 7
  have hnone : ([] : List Char).all Text.isBlank = true := rfl
  obtain ⟨hnumber', htext'⟩ := waitMillis_spelled hleast hleastText hnone hnone hothers 7
  exact ⟨⟨hlong, hlongText, hleft, hright, hothers, hnumber, htext⟩, hleast, hleastText, hnumber',
    htext'⟩

end Step
end UiSuite
