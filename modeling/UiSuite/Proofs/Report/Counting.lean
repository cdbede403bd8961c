import Mathlib.Algebra.GroupWithZero.Nat
import Mathlib.Data.List.Basic
import Mathlib.Data.List.Induction
import UiSuite.Report.Event
import UiSuite.Report.Tally

/-! What a tally counts.

A tally that verdicts were added to holds how many passed, how many failed, and each failed
description once, where it failed first (`ofVerdicts_eq`). Tallies of one list of verdicts
after another merge to the tally of both (`ofVerdicts_append`). -/
namespace UiSuite.Report

/-- How a case ended. -/
structure Verdict where
  description : String
  status : Status
deriving DecidableEq

/-- The verdict an event tells, if it tells one. -/
def Event.verdict? : Event → Option Verdict
  | caseResult description status _ _ => some ⟨description, status⟩
  | sourceFile _ | caseStart .. | summary .. => none

/-- The descriptions of the cases that failed. -/
def failedDescriptions (vs : List Verdict) : List String :=
  (vs.filter (·.status = .failed)).map (·.description)

theorem failedDescriptions_append (a b : List Verdict) :
    failedDescriptions (a ++ b) = failedDescriptions a ++ failedDescriptions b := by
  rw [failedDescriptions, List.filter_append, List.map_append]
  rfl

namespace Tally

section
variable {ν : Type} [OfNat ν 0] [OfNat ν 1] [Add ν]

/-- Counts a case. -/
def add (t : Tally ν) (v : Verdict) : Tally ν :=
  match v.status with
  | .passed => t.pass
  | .failed => t.fail v.description

/-- The tally of cases in the order in which they ended. -/
def ofVerdicts (vs : List Verdict) : Tally ν :=
  vs.foldl add empty

end

/-! ### Descriptions noted once -/

/-- Noting a description after a list had its duplicates erased. -/
theorem note_eraseDups (xs : List String) (x : String) :
    note xs.eraseDups x = (xs ++ [x]).eraseDups := by
  rw [List.eraseDups_append, note]
  by_cases h : x ∈ xs
  · rw [if_pos (List.mem_eraseDups.2 h)]
    have hnone : [x].removeAll xs = [] := by simp [List.removeAll, h]
    rw [hnone, List.eraseDups_nil, List.append_nil]
  · rw [if_neg (fun hx => h (List.mem_eraseDups.1 hx))]
    have hone : [x].removeAll xs = [x] := by simp [List.removeAll, h]
    rw [hone]
    rfl

theorem foldl_note_eraseDups (xs ys : List String) :
    ys.foldl note xs.eraseDups = (xs ++ ys).eraseDups := by
  induction ys generalizing xs with
  | nil => rw [List.append_nil]; rfl
  | cons y ys ih =>
    rw [List.foldl_cons, note_eraseDups, ih, List.append_assoc]
    rfl

/-- Noting descriptions whose duplicates were erased notes the descriptions. -/
theorem eraseDups_append_eraseDups (xs ys : List String) :
    (xs ++ ys.eraseDups).eraseDups = (xs ++ ys).eraseDups := by
  induction ys using List.reverseRecOn with
  | nil => rfl
  | append_singleton ys y ih =>
    rw [← List.append_assoc, ← note_eraseDups (xs ++ ys), ← ih, note_eraseDups,
      ← note_eraseDups ys, note]
    by_cases h : y ∈ ys.eraseDups
    · have hmem : y ∈ xs ++ ys.eraseDups := List.mem_append_right xs h
      rw [if_pos h, ← note_eraseDups, note, if_pos (List.mem_eraseDups.2 hmem)]
    · rw [if_neg h, List.append_assoc]

/-- Descriptions noted once are in the order in which they came first. -/
theorem pairwise_eraseDups (xs : List String) :
    xs.eraseDups.Pairwise (xs.idxOf · < xs.idxOf ·) := by
  induction xs using List.reverseRecOn with
  | nil => exact .nil
  | append_singleton xs x ih =>
    have hplace {y : String} (hy : y ∈ xs.eraseDups) : (xs ++ [x]).idxOf y = xs.idxOf y :=
      List.idxOf_append_of_mem (List.mem_eraseDups.1 hy)
    have hold : xs.eraseDups.Pairwise ((xs ++ [x]).idxOf · < (xs ++ [x]).idxOf ·) := by
      refine ih.imp_of_mem fun {a b} ha hb hlt => ?_
      rw [hplace ha, hplace hb]
      exact hlt
    rw [← note_eraseDups, note]
    split
    · exact hold
    · rename_i hx
      refine List.pairwise_append.2 ⟨hold, List.pairwise_singleton _ _, fun y hy z hz => ?_⟩
      obtain rfl := List.mem_singleton.1 hz
      have hnew : z ∉ xs := fun hz => hx (List.mem_eraseDups.2 hz)
      rw [hplace hy, List.idxOf_append_of_notMem hnew]
      have hlt := List.idxOf_lt_length_of_mem (List.mem_eraseDups.1 hy)
      omega

theorem nodup_eraseDups (xs : List String) : xs.eraseDups.Nodup := by
  refine (pairwise_eraseDups xs).imp fun hlt heq => ?_
  subst heq
  exact Nat.lt_irrefl _ hlt

/-! ### Tallies of verdicts -/

/-- **What the tally of a list of cases holds.** -/
theorem ofVerdicts_eq (vs : List Verdict) :
    ofVerdicts vs = ⟨vs.countP (·.status = .passed), vs.countP (·.status = .failed),
      (failedDescriptions vs).eraseDups⟩ := by
  induction vs using List.reverseRecOn with
  | nil => rfl
  | append_singleton vs v ih =>
    obtain ⟨description, status⟩ := v
    rw [ofVerdicts, List.foldl_append, ← ofVerdicts, ih, List.foldl_cons, List.foldl_nil]
    rw [failedDescriptions_append, List.countP_append, List.countP_append]
    cases status with
    | passed => simp [add, pass, failedDescriptions]
    | failed =>
      have hnote := note_eraseDups (failedDescriptions vs) description
      simp [add, fail, hnote]
      rfl

/-- Every case is counted once. -/
theorem total_ofVerdicts (vs : List Verdict) : (ofVerdicts vs).total = vs.length := by
  have hfailed : vs.countP (·.status = .failed) = vs.countP fun v => ¬ v.status = .passed :=
    List.countP_congr fun v _ => by cases v.status <;> decide
  rw [ofVerdicts_eq, total, List.length_eq_countP_add_countP (·.status = .passed), hfailed]
  simp

/-- The tally of cases after others is theirs merged after the others'. -/
theorem ofVerdicts_append (a b : List Verdict) :
    (ofVerdicts (a ++ b) : Tally) = (ofVerdicts a).merge (ofVerdicts b) := by
  rw [ofVerdicts_eq, ofVerdicts_eq a, ofVerdicts_eq b, merge, List.countP_append,
    List.countP_append, failedDescriptions_append, foldl_note_eraseDups,
    eraseDups_append_eraseDups]

/-- Tallies merged one after the other are the tally of all their cases. -/
theorem foldl_merge_ofVerdicts (vss : List (List Verdict)) (vs : List Verdict) :
    (vss.map ofVerdicts).foldl merge (ofVerdicts vs : Tally) = ofVerdicts (vs ++ vss.flatten) := by
  induction vss generalizing vs with
  | nil => simp
  | cons next vss ih =>
    rw [List.map_cons, List.foldl_cons, ← ofVerdicts_append, ih, List.flatten_cons,
      List.append_assoc]

/-- A tally is a success where no description failed. -/
theorem isSuccess_ofVerdicts (vs : List Verdict) :
    (ofVerdicts vs : Tally).isSuccess = (failedDescriptions vs).isEmpty := by
  have hcount : vs.countP (·.status = .failed) = (failedDescriptions vs).length := by
    rw [failedDescriptions, List.length_map, List.countP_eq_length_filter]
  rw [ofVerdicts_eq, isSuccess]
  simp only [hcount]
  cases failedDescriptions vs <;> rfl

/-- A tally of cases that more cases are counted in is theirs merged after it. -/
theorem foldl_add_ofVerdicts (a b : List Verdict) :
    b.foldl add (ofVerdicts a : Tally) = (ofVerdicts a).merge (ofVerdicts b) := by
  rw [← ofVerdicts_append, ofVerdicts, ofVerdicts, List.foldl_append]

theorem total_merge (t u : Tally) : (t.merge u).total = t.total + u.total := by
  simp only [merge, total]
  omega

/-- Tallies merged one after the other count what they count together. -/
theorem total_foldl_merge (ts : List Tally) (t : Tally) :
    (ts.foldl merge t).total = t.total + (ts.map total).sum := by
  induction ts generalizing t with
  | nil => rfl
  | cons u ts ih => rw [List.foldl_cons, ih, total_merge, List.map_cons, List.sum_cons, Nat.add_assoc]

end Tally
end UiSuite.Report
