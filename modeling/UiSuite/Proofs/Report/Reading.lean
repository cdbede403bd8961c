import UiSuite.Proofs.Report.Lines

/-! Which lines are events.

A line is an event if it is structured and its payload is one of its kind: what is read from the
line is read from the value of the two (`ofLine?_eq`). So the event has the kind of the line,
and its counts fit, however the line is spelled and whatever else it holds. With the round trip
of `ofLine?_toLine` this is what a program may rely on that reads a run (`line_round_trip`). -/
namespace UiSuite.Report.Event
open Json (Reader)

/-! ### What can be read -/

/-- A number that is read fits into 64 bits. -/
theorem lt_of_natural {j : Json} {n : Nat} (h : Reader.natural j = .ok n) : n < UInt64.size := by
  unfold Reader.natural Reader.naturalWithin at h
  split at h
  · split at h
    · rename_i hwithin
      have hn := Except.ok.inj h
      have hpos : 0 < UInt64.size := by decide
      omega
    · cases h
  · cases h

theorem lt_of_required {name : String} {payload : List (String × Json)} {n : Nat}
    (h : required .natural name payload = some n) : n < UInt64.size := by
  obtain ⟨j, -, hj⟩ := Option.bind_eq_some_iff.1 h
  cases hread : Reader.natural j with
  | error e =>
    rw [hread] at hj
    cases hj
  | ok m =>
    rw [hread] at hj
    cases hj
    exact lt_of_natural hread

/-- An event that is read is of the kind it was read for, and its counts fit. -/
theorem of_ofParts? {kind : String} {payload : List (String × Json)} {e : Event}
    (h : ofParts? kind payload = some e) : e.kind = kind ∧ e.InRange := by
  rw [ofParts?.eq_def] at h
  split at h
  · obtain ⟨path, -, he⟩ := Option.bind_eq_some_iff.1 h
    cases he
    exact ⟨rfl, trivial⟩
  · obtain ⟨description, -, h⟩ := Option.bind_eq_some_iff.1 h
    obtain ⟨source, -, he⟩ := Option.bind_eq_some_iff.1 h
    cases he
    exact ⟨rfl, trivial⟩
  · obtain ⟨status, -, h⟩ := Option.bind_eq_some_iff.1 h
    obtain ⟨description, -, h⟩ := Option.bind_eq_some_iff.1 h
    obtain ⟨reason, -, h⟩ := Option.bind_eq_some_iff.1 h
    obtain ⟨source, -, he⟩ := Option.bind_eq_some_iff.1 h
    cases he
    exact ⟨rfl, trivial⟩
  · obtain ⟨passed, hpassed, h⟩ := Option.bind_eq_some_iff.1 h
    obtain ⟨failed, hfailed, h⟩ := Option.bind_eq_some_iff.1 h
    obtain ⟨failedTests, -, he⟩ := Option.bind_eq_some_iff.1 h
    cases he
    exact ⟨rfl, lt_of_required hpassed, lt_of_required hfailed⟩
  · cases h

/-! ### Lines -/

/-- The value of a kind and a payload is read as the two are, although its payload comes before
its kind. -/
theorem ofJson?_envelope (kind : String) (payload : List (String × Json)) :
    ofJson? (.ofFields [("type", .string kind), ("payload", .object payload)]) =
      ofParts? kind payload := by
  rw [Structured.ofFields_envelope]
  rfl

/-- An event is read from the value of what its line holds. -/
theorem ofLine?_eq (line : String) :
    ofLine? line = (Structured.decode line).bind fun s =>
      ofJson? (.ofFields [("type", .string s.kind), ("payload", .object s.payload)]) := by
  simp only [ofJson?_envelope]
  rfl

theorem ofLine?_eq_some_iff {line : String} {e : Event} :
    ofLine? line = some e ↔ ∃ payload, Structured.decode line = some ⟨e.kind, payload⟩ ∧
      ofParts? e.kind payload = some e := by
  constructor
  · intro h
    obtain ⟨⟨kind, payload⟩, hdecode, hparts⟩ := Option.bind_eq_some_iff.1 h
    obtain ⟨rfl, -⟩ := of_ofParts? hparts
    exact ⟨payload, hdecode, hparts⟩
  · rintro ⟨payload, hdecode, hparts⟩
    exact Option.bind_eq_some_iff.2 ⟨_, hdecode, hparts⟩

/-- **Events and their lines.** An event is read back from its line. A line is an event exactly
if it is structured with the kind of the event and its payload is one of that kind, and then the
counts of the event fit: no other line is one. -/
theorem line_round_trip (e : Event) (line : String) :
    (e.InRange → ofLine? e.toLine = some e) ∧
      (ofLine? line = some e ↔ ∃ payload, Structured.decode line = some ⟨e.kind, payload⟩ ∧
        ofJson? (.ofFields [("type", .string e.kind), ("payload", .object payload)]) = some e) ∧
      (ofLine? line = some e → e.InRange) := by
  refine ⟨ofLine?_toLine e, ?_, fun h => ?_⟩
  · simp only [ofJson?_envelope]
    exact ofLine?_eq_some_iff
  · obtain ⟨payload, -, hparts⟩ := ofLine?_eq_some_iff.1 h
    exact (of_ofParts? hparts).2

/-- A summary with the greatest counts and descriptions that read like lines. -/
def trickySummary : Event :=
  .summary (UInt64.size - 1) (UInt64.size - 1) ["", "@@UIDSL_EVENT@@\n\"\x7b"]

/-- A line of another hand: blanks, the kind first, and a field that nobody asks for. -/
def foreignLine : String :=
  "@@UIDSL_EVENT@@ \x7b\"type\":\"source_file\", \"payload\":\x7b\"path\":\"a\",\"more\":[]\x7d\x7d\n"

/-- The summary is read back, and the line of another hand is of the kind of its event. -/
theorem line_round_trip_trickySummary :
    trickySummary.InRange ∧ ofLine? trickySummary.toLine = some trickySummary ∧
      ofLine? foreignLine = some (.sourceFile "a") ∧
      ∃ payload, Structured.decode foreignLine = some ⟨"source_file", payload⟩ := by
  have hrange : trickySummary.InRange := ⟨by decide, by decide⟩
  have hread : ofLine? foreignLine = some (.sourceFile "a") := by decide +kernel
  obtain ⟨payload, hdecode, -⟩ := (line_round_trip (.sourceFile "a") foreignLine).2.1.1 hread
  exact ⟨hrange, (line_round_trip trickySummary foreignLine).1 hrange, hread, payload, hdecode⟩

end UiSuite.Report.Event
