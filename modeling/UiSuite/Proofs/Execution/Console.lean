import Mathlib.Data.List.Basic
import UiSuite.Proofs.Execution.Events

/-! What a host finds on the console of a run.

A host reads the console line by line. An event is one line there, but a text for people that
quotes a line break goes on in further lines, and nothing keeps those from being events. So a
host finds all events of a run in their order, and finds nothing else exactly when no further
line of a text is an event (`Suite.found_run`). -/
namespace UiSuite
namespace Report

/-! ### Lines of texts -/

/-- The lines a host finds in a text. -/
def hostLines (text : String) : List String :=
  (Text.pieces '\n' text.toList).map String.ofList

/-- The lines of a text after its first line break. -/
def furtherLines (text : String) : List String :=
  (hostLines text).tail

theorem hostLines_eq_cons (text : String) :
    hostLines text = String.ofList (text.toList.takeWhile (· != '\n')) :: furtherLines text := by
  obtain ⟨further, hpieces⟩ := Text.pieces_eq_cons '\n' text.toList
  simp [furtherLines, hostLines, hpieces]

theorem hostLines_of_not_mem {text : String} (h : '\n' ∉ text.toList) :
    hostLines text = [text] := by
  rw [hostLines, Text.pieces_of_not_mem h, List.map_singleton, String.ofList_toList]

/-- On the console the lines of one text follow the lines of the other. -/
theorem hostLines_console (lines : List String) :
    hostLines (console lines) = lines.flatMap hostLines ++ [""] := by
  induction lines with
  | nil => rfl
  | cons line rest ih =>
    have hsplit : (console (line :: rest)).toList =
        line.toList ++ '\n' :: (console rest).toList := by
      simp [console]
    rw [hostLines, hsplit, Text.pieces_append, List.map_append, List.flatMap_cons,
      List.append_assoc, ← ih]
    rfl

/-! ### Events among them -/

theorem events_append (lines more : List String) :
    events (lines ++ more) = events lines ++ events more :=
  List.filterMap_append

theorem events_flatMap (f : α → List String) (l : List α) :
    events (l.flatMap f) = l.flatMap fun a => events (f a) :=
  List.filterMap_flatMap

namespace Entry

/-- The events that a host finds in the line of an entry: an event itself, and those in the
further lines of a text. -/
def found : Entry → List Event
  | event e => [e]
  | text s => events (furtherLines s)

/-- The line of an event has no line break. -/
theorem hostLines_toLine (e : Event) : hostLines e.toLine = [e.toLine] := by
  apply hostLines_of_not_mem
  intro hmem
  exact absurd (Structured.le_of_mem_encode e.kind e.payload '\n' hmem) (by decide)

/-- A text for people begins unlike the mark, so its first line is no event. -/
theorem ofLine?_firstLine {s : String} (h : (text s).Faithful) :
    Event.ofLine? (String.ofList (s.toList.takeWhile (· != '\n'))) = none := by
  apply Event.ofLine?_of_head
  rw [String.toList_ofList]
  rw [Faithful] at h
  cases hs : s.toList with
  | nil => simp
  | cons c cs =>
    rw [hs] at h
    rw [List.takeWhile_cons]
    split
    · exact h
    · simp

theorem events_hostLines_line {e : Entry} (h : e.Faithful) :
    events (hostLines e.line) = e.found := by
  cases e with
  | event e =>
    have hline : Event.ofLine? e.toLine = some e := Event.ofLine?_toLine e h
    rw [line, hostLines_toLine, events, List.filterMap_cons_some hline]
    rfl
  | text s => rw [line, hostLines_eq_cons, events, List.filterMap_cons_none (ofLine?_firstLine h)]; rfl

end Entry

/-- A host finds in the lines of entries what it finds in each of them. -/
theorem events_hostLines_console {entries : List Entry} (h : ∀ e ∈ entries, e.Faithful) :
    events (hostLines (console (entries.map Entry.line))) = entries.flatMap Entry.found := by
  have hends : events [""] = [] := rfl
  rw [hostLines_console, events_append, hends, List.append_nil, List.flatMap_map, events_flatMap]
  exact List.flatMap_congr fun e he => Entry.events_hostLines_line (h e he)

/-- What was emitted is found, in its order. -/
theorem sublist_found (entries : List Entry) :
    (entries.filterMap Entry.event?).Sublist (entries.flatMap Entry.found) := by
  induction entries with
  | nil => exact List.Sublist.slnil
  | cons e rest ih =>
    cases e with
    | event e => exact ih.cons_cons e
    | text s => exact ih.trans (List.sublist_append_right _ _)

/-- Nothing else is found exactly when the further lines of texts are no events. -/
theorem found_eq_iff (entries : List Entry) :
    entries.flatMap Entry.found = entries.filterMap Entry.event? ↔
      ∀ s, .text s ∈ entries → events (furtherLines s) = [] := by
  induction entries with
  | nil => exact ⟨fun _ _ h => absurd h List.not_mem_nil, fun _ => rfl⟩
  | cons e rest ih =>
    cases e with
    | event e =>
      have htail : (Entry.event e :: rest).flatMap Entry.found =
          (Entry.event e :: rest).filterMap Entry.event? ↔
            rest.flatMap Entry.found = rest.filterMap Entry.event? := List.cons_inj_right e
      rw [htail, ih]
      simp
    | text s =>
      have hrest := (sublist_found rest).length_le
      have hsplit : (Entry.text s :: rest).flatMap Entry.found =
          (Entry.text s :: rest).filterMap Entry.event? ↔
            events (furtherLines s) = [] ∧
              rest.flatMap Entry.found = rest.filterMap Entry.event? := by
        show events (furtherLines s) ++ rest.flatMap Entry.found =
          rest.filterMap Entry.event? ↔ _
        constructor
        · intro heq
          have hlength := congrArg List.length heq
          rw [List.length_append] at hlength
          have hnone : events (furtherLines s) = [] :=
            List.eq_nil_of_length_eq_zero (by omega)
          rw [hnone, List.nil_append] at heq
          exact ⟨hnone, heq⟩
        · rintro ⟨hnone, heq⟩
          rw [hnone, heq, List.nil_append]
      rw [hsplit, ih]
      simp

end Report

/-! ### The console of a run -/

open Report (Entry Event events console hostLines furtherLines)

/-- **What a host finds on the console of a run.** It finds the events of the run in their
order, and in the further lines of a text for people whatever events stand there; so it finds
the events of the run and no others exactly when no such line is an event. -/
theorem Suite.found_run {σ : Type} [Surface σ] (config : Config) (suite : Suite)
    (world : World σ) (source : Option String) (h : suite.cases.length < UInt64.size) :
    let entries := (suite.run config world source).entries
    let found := events (hostLines (console (entries.map Entry.line)))
    found = entries.flatMap Entry.found ∧
      (entries.filterMap Entry.event?).Sublist found ∧
      (found = entries.filterMap Entry.event? ↔
        ∀ s, .text s ∈ entries → events (furtherLines s) = []) := by
  intro entries found
  have hfound : found = entries.flatMap Entry.found :=
    Report.events_hostLines_console (suite.faithful_run config world source h)
  rw [hfound]
  exact ⟨rfl, Report.sublist_found entries, Report.found_eq_iff entries⟩

/-- A suite of one case without steps, described like this. -/
def describedSuite (description : String) : Suite :=
  ⟨"described", none, [⟨description, none, []⟩]⟩

/-- A line break alone forges nothing. -/
theorem Suite.found_run_twoLines :
    (describedSuite "two\nlines").cases.length < UInt64.size ∧
      let entries := ((describedSuite "two\nlines").run Config.standard
        (.start Stage.empty) none).entries
      events (hostLines (console (entries.map Entry.line))) = entries.filterMap Entry.event? := by
  have hlength : (describedSuite "two\nlines").cases.length < UInt64.size := by decide
  have hrun := Suite.found_run Config.standard (describedSuite "two\nlines")
    (.start Stage.empty) none hlength
  have hnone : ∀ e ∈ ((describedSuite "two\nlines").run Config.standard
      (.start Stage.empty) none).entries, e.event? = none → e.found = [] := by
    decide +kernel
  exact ⟨hlength, hrun.2.2.2 fun s hs => hnone (.text s) hs rfl⟩

/-- A description that goes on with a summary after a line break: a host finds that summary,
which the run did not emit. -/
theorem Suite.found_forged :
    let entries := ((describedSuite ("x\n" ++ (Event.summary 99 0 []).toLine)).run
      Config.standard (.start Stage.empty) none).entries
    let found := events (hostLines (console (entries.map Entry.line)))
    found ≠ entries.filterMap Entry.event? ∧ .summary 99 0 [] ∈ found ∧
      entries.filterMap Entry.event? =
        [.caseStart ("x\n" ++ (Event.summary 99 0 []).toLine) none,
          .caseResult ("x\n" ++ (Event.summary 99 0 []).toLine) .passed none none,
          .summary 1 0 []] := by
  intro entries found
  have hfound : found = entries.flatMap Entry.found :=
    Report.events_hostLines_console
      (Suite.faithful_run Config.standard _ (.start Stage.empty) none (by decide))
  rw [hfound]
  decide +kernel

end UiSuite
