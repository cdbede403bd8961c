import UiSuite.Proofs.Json.Records
import UiSuite.Proofs.Report.Structured
import UiSuite.Report.Entry

/-! The lines of a run are read back.

An event is read back from its line, whatever its texts hold (`ofLine?_toLine`). A line for
people does not begin with the mark, so it is no event, whatever it quotes. From both, the
events among the lines of entries are the entries that are events (`events_map_line`). -/
namespace UiSuite.Report
open Json (Plain get?_nil get?_insert inOrder)

/-! ### Events -/

namespace Event

/-- The counts of an event fit into 64 bits. -/
def InRange : Event → Prop
  | summary passed failed _ => passed < UInt64.size ∧ failed < UInt64.size
  | sourceFile _ | caseStart .. | caseResult .. => True

/-- A field that may be left out is plain when its value is. -/
theorem plain_presentField (limit : Nat) (name : String) (text : Option String) :
    ∀ field ∈ Json.presentField name (text.map .string), Plain limit field.2 := by
  cases text with
  | none => exact nofun
  | some s => exact List.forall_mem_cons.2 ⟨Json.plain_string limit s, nofun⟩

theorem plain_fields (e : Event) (h : e.InRange) : ∀ field ∈ e.fields, Plain 1 field.2 := by
  have htext : ∀ s : String, Plain 1 (.string s) := Json.plain_string 1
  cases e with
  | sourceFile path => exact List.forall_mem_cons.2 ⟨htext path, nofun⟩
  | caseStart description source =>
    exact List.forall_mem_cons.2 ⟨htext description, plain_presentField 1 _ source⟩
  | caseResult description status reason source =>
    refine List.forall_mem_append.2 ⟨List.forall_mem_append.2 ⟨?_, plain_presentField 1 _ reason⟩,
      plain_presentField 1 _ source⟩
    exact List.forall_mem_cons.2 ⟨htext description,
      List.forall_mem_cons.2 ⟨htext status.name, nofun⟩⟩
  | summary passed failed failedTests =>
    refine List.forall_mem_append.2 ⟨List.forall_mem_cons.2 ⟨Json.plain_ofNat 1 h.1,
      List.forall_mem_cons.2 ⟨Json.plain_ofNat 1 h.2, nofun⟩⟩, ?_⟩
    split
    · exact nofun
    · exact List.forall_mem_cons.2 ⟨Json.plain_strings 0 failedTests, nofun⟩

theorem decode_toLine (e : Event) (h : e.InRange) :
    Structured.decode e.toLine = some ⟨e.kind, inOrder e.fields⟩ :=
  have hdeep : 2 < Json.deepest := by decide
  Structured.decode_encode e.kind hdeep (Json.plain_ofFields (e.plain_fields h))

theorem natural_ofNat {n : Nat} (h : n < UInt64.size) :
    Json.Reader.natural (Json.ofNat n) = .ok n := by
  have hle : 0 ≤ (n : Int) ∧ (n : Int) ≤ (UInt64.size - 1 : Nat) := by omega
  simp only [Json.Reader.natural, Json.Reader.naturalWithin, Json.ofNat, if_pos hle,
    Int.toNat_natCast]

theorem ofParts?_summary (passed failed : Nat) (failedTests : List String)
    (h : (summary passed failed failedTests).InRange) :
    ofParts? "summary" (inOrder (summary passed failed failedTests).fields) =
      some (summary passed failed failedTests) := by
  have hpassed := natural_ofNat h.1
  have hfailed := natural_ofNat h.2
  have htexts : Json.Reader.list .text (.array (failedTests.map .string)) = .ok failedTests :=
    Json.Reader.list_map fun _ _ => rfl
  by_cases hempty : failedTests = []
  · subst hempty
    simp [ofParts?, fields, required, optional, inOrder, get?_nil, get?_insert, hpassed, hfailed,
      Except.toOption]
  · simp [ofParts?, fields, required, optional, inOrder, get?_insert, hpassed, hfailed,
      Except.toOption, hempty, htexts]

/-- **An event is read back from its line.** -/
theorem ofLine?_toLine (e : Event) (h : e.InRange) : ofLine? e.toLine = some e := by
  rw [ofLine?, decode_toLine e h]
  cases e with
  | sourceFile path => rfl
  | caseStart description source => cases source <;> rfl
  | caseResult description status reason source =>
    cases status <;> cases reason <;> cases source <;> rfl
  | summary passed failed failedTests => exact ofParts?_summary passed failed failedTests h

/-- What does not begin with the mark is no event. -/
theorem ofLine?_of_head {line : String} (h : line.toList.head? ≠ some '@') :
    ofLine? line = none := by
  have hmark : mark.toList = '@' :: mark.toList.tail := rfl
  have hdrop : Text.dropBeginning mark.toList line.toList = none := by
    rw [hmark]
    exact Text.dropBeginning_of_head h
  simp [ofLine?, Structured.decode, hdrop]

end Event

/-! ### Entries -/

namespace Entry

/-- An entry that its line shows for what it is: the counts of an event fit, and what people
read does not begin like the mark. -/
def Faithful : Entry → Prop
  | event e => e.InRange
  | text s => s.toList.head? ≠ some '@'

theorem ofLine?_line {e : Entry} (h : e.Faithful) : Event.ofLine? e.line = e.event? := by
  cases e with
  | event e => exact Event.ofLine?_toLine e h
  | text s => exact Event.ofLine?_of_head h

theorem faithful_text {s : String} {c : Char} (hc : s.toList.head? = some c) (hne : c ≠ '@') :
    (text s).Faithful := by
  rw [Faithful, hc]
  exact fun h => hne (Option.some.inj h)

/-- A line that begins with a label begins like the label, whatever it quotes. -/
theorem faithful_append {label : String} {c : Char} (hc : label.toList.head? = some c)
    (hne : c ≠ '@') (s : String) : (text (label ++ s)).Faithful := by
  apply faithful_text _ hne
  rw [String.toList_append, List.head?_append, hc]
  rfl

theorem faithful_ofSource (path : String) : ∀ e ∈ ofSource path, e.Faithful := by
  have hbanner : (text ("=== Source: " ++ path ++ " ===")).Faithful := by
    rw [String.append_assoc]
    exact faithful_append (c := '=') rfl (by decide) _
  exact List.forall_mem_cons.2 ⟨trivial, List.forall_mem_cons.2 ⟨nofun,
    List.forall_mem_cons.2 ⟨hbanner, nofun⟩⟩⟩

theorem faithful_ofStart (description : String) (source : Option String) :
    ∀ e ∈ ofStart description source, e.Faithful :=
  List.forall_mem_cons.2 ⟨trivial,
    List.forall_mem_cons.2 ⟨faithful_append (c := '▶') rfl (by decide) description, nofun⟩⟩

theorem faithful_ofPass (description : String) (source : Option String) :
    ∀ e ∈ ofPass description source, e.Faithful :=
  List.forall_mem_cons.2 ⟨trivial,
    List.forall_mem_cons.2 ⟨faithful_append (c := ' ') rfl (by decide) description, nofun⟩⟩

theorem faithful_ofFailure (description reason : String) (source : Option String) :
    ∀ e ∈ ofFailure description reason source, e.Faithful :=
  List.forall_mem_cons.2 ⟨trivial,
    List.forall_mem_cons.2 ⟨faithful_append (c := ' ') rfl (by decide) description,
      List.forall_mem_cons.2 ⟨faithful_append (c := ' ') rfl (by decide) reason, nofun⟩⟩⟩

theorem faithful_ofSkip (step : Nat) (action : String) :
    ∀ e ∈ ofSkip step action, e.Faithful := by
  refine List.forall_mem_cons.2 ⟨?_, nofun⟩
  rw [String.append_assoc, String.append_assoc, String.append_assoc]
  exact faithful_append (c := ' ') rfl (by decide) _

theorem faithful_ofSummary {passed failed : Nat} (failedTests : List String)
    (hpassed : passed < UInt64.size) (hfailed : failed < UInt64.size) :
    ∀ e ∈ ofSummary passed failed failedTests, e.Faithful := by
  refine List.forall_mem_append.2 ⟨?_, ?_⟩
  · refine List.forall_mem_cons.2 ⟨⟨hpassed, hfailed⟩, List.forall_mem_cons.2 ⟨nofun,
      List.forall_mem_cons.2 ⟨faithful_text (c := '=') rfl (by decide),
        List.forall_mem_cons.2 ⟨?_, List.forall_mem_cons.2 ⟨?_, nofun⟩⟩⟩⟩⟩
    · exact faithful_append (c := 'P') rfl (by decide) _
    · exact faithful_append (c := 'F') rfl (by decide) _
  · split
    · exact nofun
    · refine List.forall_mem_cons.2 ⟨faithful_text (c := 'F') rfl (by decide), ?_⟩
      intro e he
      obtain ⟨name, -, rfl⟩ := List.mem_map.1 he
      exact faithful_append (c := ' ') rfl (by decide) name

end Entry

/-- **The events among the lines of entries are the entries that are events.** -/
theorem events_map_line {entries : List Entry} (h : ∀ e ∈ entries, e.Faithful) :
    events (entries.map Entry.line) = entries.filterMap Entry.event? := by
  induction entries with
  | nil => rfl
  | cons e rest ih =>
    obtain ⟨he, hrest⟩ := List.forall_mem_cons.1 h
    rw [events, List.map_cons, List.filterMap_cons, Entry.ofLine?_line he, List.filterMap_cons]
    have hevents := ih hrest
    rw [events] at hevents
    rw [hevents]

end UiSuite.Report
