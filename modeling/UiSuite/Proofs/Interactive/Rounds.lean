import UiSuite.Proofs.Execution.Events
import UiSuite.Proofs.Interactive.Visits

/-! The suites of a session.

A session runs the payloads it takes for suites, in order, each with its number and with no
aliases; what other outcomes do is not seen in the numbers, the tally or the aliases
(`Session.poll_ended`). -/
namespace UiSuite

open Report (Entry Tally events)

/-! ### Which payloads are suites -/

/-- Whether a text is a suite; its default name does not matter (`isOk_decode`). -/
def Suite.accepts (text : String) : Bool :=
  (Suite.decode text "").isOk

theorem Suite.isOk_ofJson (name other : String) (j : Json) :
    (Suite.ofJson name j).isOk = (Suite.ofJson other j).isOk := by
  have hok {α β : Type} (x : Except DecodeError α) (f g : α → β) :
      (x >>= fun a => pure (f a)).isOk = (x >>= fun a => pure (g a)).isOk := by
    cases x <;> rfl
  match j with
  | .null | .bool _ | .number _ | .string _ => rfl
  | .array items => exact hok _ _ _
  | .object fields =>
    rw [Suite.ofJson, Suite.ofJson]
    split
    · rfl
    · rfl
    · exact hok _ _ _
    · rfl

theorem Suite.isOk_decode (text name : String) : (Suite.decode text name).isOk = accepts text := by
  rw [accepts, decode, decode]
  cases parseValue text with
  | error e => rfl
  | ok j => exact isOk_ofJson name "" j

namespace Visit
variable {σ : Type}

/-- The payload of a visit, without blanks around it. -/
def payload? (v : Visit σ) : Option String :=
  match v.outcome with
  | .ok (.body text) => some (Text.trimmed text)
  | .ok .empty | .ok (.status _) | .error _ => none

end Visit

/-- A suite, and the world and the source label announced last it is run with. -/
structure Round (σ : Type) where
  suite : Suite
  world : World σ
  source : Option String

/-- The run of a round. -/
def Round.run {σ : Type} [Surface σ] (config : Config) (r : Round σ) : Run σ :=
  r.suite.run config r.world r.source

variable {σ : Type} [Surface σ] (config : Config) (name : String)

namespace Visit

/-- The round of a visit, if a suite is run. -/
def round? (v : Visit σ) : Option (Round σ) :=
  match v.response config name with
  | .run suite => some ⟨suite, v.session.world.reset, v.session.source⟩
  | .giveUp | .retry | .pass | .exit | .complain _ => none

/-- What is written for a visit. -/
def written (v : Visit σ) : List Entry :=
  match v.response config name with
  | .run suite => (suite.run config v.session.world.reset v.session.source).entries
  | .complain e => [Session.complaint e]
  | .giveUp | .retry | .pass | .exit => []

/-! ### What one visit does -/

omit [Surface σ] in
/-- The session that ends runs nothing. -/
theorem round?_of_isLast {v : Visit σ} (h : v.isLast config name = true) :
    v.round? config name = none := by
  rw [isLast] at h
  rw [round?]
  cases hresponse : v.response config name <;> simp_all [Response.isLast]

omit [Surface σ] in
/-- A suite is run in the world of the session, with no aliases. -/
theorem world_of_round? {v : Visit σ} {r : Round σ} (h : v.round? config name = some r) :
    r.world = v.session.world.reset := by
  rw [round?] at h
  split at h <;> cases h
  rfl

theorem entries_after (v : Visit σ) :
    (v.after config name).entries = v.session.entries ++ v.written config name := by
  cases h : v.response config name <;>
    simp [after, written, h, Session.pause, Session.runSuite]

theorem tally_after (v : Visit σ) :
    (v.after config name).tally =
      ((v.round? config name).toList.map fun r => (r.run config).tally).foldl Tally.merge
        v.session.tally := by
  cases h : v.response config name <;>
    simp [after, round?, h, Session.pause, Session.runSuite, Round.run]

theorem received_after (v : Visit σ) :
    (v.after config name).received =
      v.session.received + (v.round? config name).toList.length := by
  cases h : v.response config name <;>
    simp [after, round?, h, Session.pause, Session.runSuite]

/-- A number makes the default name and the default source label of a suite. -/
theorem decode_eq (number : Nat) (body : String) :
    Session.decode name number body =
      (Suite.decode body ("Interactive Suite " ++ toString number)).map fun s =>
        s.withDefaults ("Interactive Suite " ++ toString number)
          (name ++ "#" ++ toString number) := by
  rw [Session.decode]
  cases Suite.decode body ("Interactive Suite " ++ toString number) <;> rfl

theorem isOk_decode (number : Nat) (body : String) :
    (Session.decode name number body).isOk = Suite.accepts body := by
  rw [decode_eq, ← Suite.isOk_decode body ("Interactive Suite " ++ toString number)]
  cases Suite.decode body ("Interactive Suite " ++ toString number) <;> rfl

omit [Surface σ] in
/-- Without a payload the session gives up, retries or passes. -/
theorem response_of_payload?_none {v : Visit σ} (h : v.payload? = none) :
    v.response config name = .giveUp ∨ v.response config name = .retry ∨
      v.response config name = .pass := by
  obtain ⟨outcome, s⟩ := v
  match outcome with
  | .error e =>
    by_cases hmany : config.polling.maxErrors.any (· ≤ s.errors + 1)
    · exact .inl (if_pos hmany)
    · exact .inr (.inl (if_neg hmany))
  | .ok .empty => exact .inr (.inr rfl)
  | .ok (.status code) => exact .inr (.inr rfl)
  | .ok (.body text) => cases h

omit [Surface σ] in
/-- A payload is the exit command, or it is read as the suite with the next number. -/
theorem response_of_payload? {v : Visit σ} {body : String} (h : v.payload? = some body) :
    v.response config name = .exit ∨
      match Session.decode name (v.session.received + 1) body with
      | .ok suite => v.response config name = .run suite
      | .error e => v.response config name = .complain e := by
  obtain ⟨outcome, s⟩ := v
  match outcome with
  | .error e => cases h
  | .ok .empty => cases h
  | .ok (.status code) => cases h
  | .ok (.body text) =>
    cases h
    by_cases hexit : Session.isExit config.polling.exitCommand text
    · refine .inl ?_
      simp only [response, if_pos hexit]
    · refine .inr ?_
      simp only [response, if_neg hexit]
      generalize Session.decode name (s.received + 1) (Text.trimmed text) = r
      cases r <;> rfl

omit [Surface σ] in
/-- The round of a visit that is not the last runs the next number of its payload, if that is
a suite. -/
theorem round?_eq {v : Visit σ} (h : v.isLast config name = false) :
    (v.round? config name).toList.map (fun r => Except.ok r.suite) =
      (v.payload?.toList.filter Suite.accepts).map
        (Session.decode name (v.session.received + 1)) := by
  cases hbody : v.payload? with
  | none =>
    rcases v.response_of_payload?_none config name hbody with hr | hr | hr <;>
      simp [round?, hr]
  | some body =>
    have haccepts := isOk_decode name (v.session.received + 1) body
    rcases v.response_of_payload? config name hbody with hr | hr
    · rw [isLast, hr] at h
      cases h
    · cases hdecode : Session.decode name (v.session.received + 1) body with
      | error e =>
        rw [hdecode] at hr haccepts
        simp [round?, hr, ← haccepts, Except.isOk, Except.toBool]
      | ok suite =>
        rw [hdecode] at hr haccepts
        simp [round?, hr, ← haccepts, Except.isOk, Except.toBool, hdecode]

/-- A payload that is no suite has one line written about it, and the aliases and the tally
stay. -/
theorem after_of_not_accepts {v : Visit σ} (hlast : v.isLast config name = false) {body : String}
    (hbody : v.payload? = some body) (h : Suite.accepts body = false) :
    ∃ text, v.written config name = [.text text] ∧ events [text] = [] ∧
      (v.after config name).world.aliases = v.session.world.aliases ∧
      (v.after config name).tally = v.session.tally := by
  have haccepts := isOk_decode name (v.session.received + 1) body
  rcases v.response_of_payload? config name hbody with hr | hr
  · rw [isLast, hr] at hlast
    cases hlast
  · cases hdecode : Session.decode name (v.session.received + 1) body with
    | ok suite =>
      rw [hdecode, h] at haccepts
      cases haccepts
    | error e =>
      rw [hdecode] at hr
      have hline : Report.Event.ofLine? (Session.complaintLabel ++ e.message) = none :=
        Report.Entry.ofLine?_line (e := .text (Session.complaintLabel ++ e.message))
          (Report.Entry.faithful_append (c := '!') rfl (by decide) _)
      refine ⟨Session.complaintLabel ++ e.message, ?_, ?_, ?_, ?_⟩
      · rw [written, hr]
        rfl
      · rw [events, List.filterMap_cons, hline]
        rfl
      · rw [after, hr]
        rfl
      · rw [after, hr]
        rfl

end Visit

/-! ### What a session does -/

theorem entries_sessionAfter (polls : List Poll) (s : Session σ) :
    (sessionAfter config name s (visits config name polls s)).entries =
      s.entries ++ (visits config name polls s).flatMap (Visit.written config name) := by
  induction polls generalizing s with
  | nil => exact (List.append_nil _).symm
  | cons p rest ih =>
    rw [visits]
    split
    · simp [sessionAfter, Visit.entries_after]
    · have hrest := ih (Visit.after config name ⟨p, s⟩)
      rw [Visit.entries_after] at hrest
      rw [List.flatMap_cons, ← List.append_assoc]
      exact hrest

theorem tally_sessionAfter (polls : List Poll) (s : Session σ) :
    (sessionAfter config name s (visits config name polls s)).tally =
      (((visits config name polls s).filterMap (Visit.round? config name)).map
        fun r => (r.run config).tally).foldl Tally.merge s.tally := by
  induction polls generalizing s with
  | nil => rfl
  | cons p rest ih =>
    have htally := Visit.tally_after config name ⟨p, s⟩
    have hrest := ih (Visit.after config name ⟨p, s⟩)
    rw [htally] at hrest
    rw [visits]
    split
    · rw [filterMap_cons_toList, List.filterMap_nil, List.append_nil]
      exact htally
    · rw [filterMap_cons_toList, List.map_append, List.foldl_append]
      exact hrest

section
variable {τ : Type} [Source τ] (hname : ∀ t : τ, Source.name (Source.fetch t).2 = Source.name t)
include hname

/-- Polling a source writes what its visits write. -/
theorem Session.entries_poll (n : Nat) (s : Session σ) (t : τ) :
    (poll config n s t).1.entries =
      s.entries ++ (visits config (Source.name t) (Source.outcomes n t) s).flatMap
        (Visit.written config (Source.name t)) := by
  rw [poll_eq config hname, ← entries_sessionAfter]
  simp only
  split <;> rfl

/-- Polling a source merges the tallies of the rounds of its visits. -/
theorem Session.tally_poll (n : Nat) (s : Session σ) (t : τ) :
    (poll config n s t).1.tally =
      (((visits config (Source.name t) (Source.outcomes n t) s).filterMap
        (Visit.round? config (Source.name t))).map
          fun r => (r.run config).tally).foldl Tally.merge s.tally := by
  rw [poll_eq config hname, ← tally_sessionAfter]
  simp only
  split <;> rfl

end

/-- The suites of the rounds are the payloads that are suites, with their numbers. -/
theorem rounds_eq {polls : List Poll} {s : Session σ} (h : isEnded config name polls s) :
    ((visits config name polls s).filterMap (Visit.round? config name)).map
        (fun r => Except.ok r.suite) =
      (((visits config name polls s).dropLast.filterMap Visit.payload?).filter
        Suite.accepts).mapIdx fun k body => Session.decode name (s.received + k + 1) body := by
  induction polls generalizing s with
  | nil => cases h
  | cons p rest ih =>
    rw [isEnded, visits] at h
    rw [visits]
    cases hlast : Visit.isLast config name ⟨p, s⟩ with
    | true =>
      simp [Visit.round?_of_isLast config name hlast]
    | false =>
      rw [if_neg (by rw [hlast]; exact Bool.false_ne_true), List.any_cons, hlast,
        Bool.false_or] at h
      have hrest := ih h
      have hround := Visit.round?_eq config name hlast
      rw [Visit.received_after] at hrest
      have hne : visits config name rest (Visit.after config name ⟨p, s⟩) ≠ [] := by
        intro hnil
        rw [hnil] at h
        cases h
      rw [if_neg Bool.false_ne_true, List.dropLast_cons_of_ne_nil hne, filterMap_cons_toList,
        filterMap_cons_toList, List.filter_append, List.map_append, List.mapIdx_append, hround,
        hrest]
      -- A visit has a round and uses up a number, or it does neither.
      cases hr : Visit.round? config name ⟨p, s⟩ with
      | none =>
        rw [hr] at hround
        have hnone := List.map_eq_nil_iff.1 hround.symm
        rw [hnone]
        rfl
      | some r =>
        rw [hr] at hround
        obtain ⟨body, hbody, -⟩ := List.map_eq_singleton_iff.1 hround.symm
        rw [hbody]
        simp [Nat.add_comm, Nat.add_left_comm]

/-! ### A session over a script -/

omit [Surface σ] in
theorem Script.name_fetch (t : Script) : Source.name (Source.fetch t).2 = Source.name t := by
  obtain ⟨name, rest, last, polls⟩ := t
  cases rest <;> rfl

/-- The polls of a script bring its outcomes first. -/
theorem Script.outcomes_begin {n : Nat} {t : Script} (h : t.rest.length ≤ n) :
    t.rest <+: Source.outcomes n t := by
  obtain ⟨name, polls, last, count⟩ := t
  induction polls generalizing n count with
  | nil => exact List.nil_prefix
  | cons p rest ih =>
    obtain ⟨m, rfl⟩ : ∃ m, n = m + 1 := Nat.exists_eq_add_one.2 (Nat.lt_of_lt_of_le (by simp) h)
    exact List.cons_prefix_cons.2 ⟨rfl, ih _ (Nat.le_of_succ_le_succ h)⟩

/-- A session over outcomes that bring it to its end is the visits of them, finished. -/
theorem Session.poll_script {polls : List Poll} {s : Session σ}
    (h : isEnded config name polls s) {n : Nat} (hn : polls.length ≤ n) (last : String)
    (count : Nat) :
    (poll config n s (⟨name, polls, last, count⟩ : Script)).1 =
      (sessionAfter config name s (visits config name polls s)).finish := by
  obtain ⟨more, hmore⟩ := Script.outcomes_begin (t := ⟨name, polls, last, count⟩) hn
  have hvisits := visits_append config name h more
  have hended : isEnded config name (polls ++ more) s = true := by
    rw [isEnded, hvisits]
    exact h
  have hpoll := congrArg Prod.fst
    (poll_eq config Script.name_fetch n s (⟨name, polls, last, count⟩ : Script))
  rw [← hmore] at hpoll
  simp only [show Source.name (⟨name, polls, last, count⟩ : Script) = name from rfl, hended,
    hvisits, if_true] at hpoll
  exact hpoll

/-- **The suites of a session.** They are the payloads before its end that are suites, in
order, each with the defaults of its number, and each is run with no aliases. A payload that
is none has one line written about it, which is no event. The tally is that of the runs
merged in order, and in the end no alias is left. -/
theorem Session.poll_ended (world : World σ) (source : Option String) (polls : List Poll)
    (h : isEnded config name polls (.start world source)) {n : Nat} (hn : polls.length ≤ n)
    (last : String) (count : Nat) :
    let vs := visits config name polls (.start world source)
    let bodies := (vs.dropLast.filterMap Visit.payload?).filter Suite.accepts
    let rounds := vs.filterMap (Visit.round? config name)
    let final := (poll config n (.start world source) (⟨name, polls, last, count⟩ : Script)).1
    vs.map (·.outcome) <+: polls ∧
      rounds.map (fun r => Except.ok r.suite) = bodies.mapIdx (fun k body =>
        (Suite.decode body ("Interactive Suite " ++ toString (k + 1))).map fun s =>
          s.withDefaults ("Interactive Suite " ++ toString (k + 1))
            (name ++ "#" ++ toString (k + 1))) ∧
      (∀ r ∈ rounds, r.world.aliases = .empty) ∧
      final.entries = vs.flatMap (Visit.written config name) ∧
      (∀ v ∈ vs.dropLast, ∀ body, v.payload? = some body → Suite.accepts body = false →
        ∃ text, v.written config name = [.text text] ∧ events [text] = [] ∧
          (v.after config name).world.aliases = v.session.world.aliases ∧
          (v.after config name).tally = v.session.tally) ∧
      final.tally = (rounds.map fun r => (r.run config).tally).foldl Tally.merge .empty ∧
      final.tally.total = (rounds.map (·.suite.cases.length)).sum ∧
      final.world.aliases = .empty := by
  intro vs bodies rounds final
  have hfinal : final = (sessionAfter config name (.start world source) vs).finish :=
    poll_script config name h hn last count
  have htally : final.tally = (rounds.map fun r => (r.run config).tally).foldl Tally.merge .empty := by
    rw [hfinal]
    exact tally_sessionAfter config name polls (.start world source)
  refine ⟨map_outcome_visits config name polls _, ?_, ?_, ?_, ?_, htally, ?_, ?_⟩
  · have hrounds := rounds_eq config name h
    simp only [Visit.decode_eq, Session.start, Nat.zero_add] at hrounds
    exact hrounds
  · intro r hr
    obtain ⟨v, -, hv⟩ := List.mem_filterMap.1 hr
    rw [Visit.world_of_round? config name hv]
    rfl
  · rw [hfinal]
    exact entries_sessionAfter config name polls (.start world source)
  · intro v hv body hbody haccepts
    exact Visit.after_of_not_accepts config name (isLast_of_mem_dropLast config name hv) hbody
      haccepts
  · have hcases : rounds.map (fun r => (r.run config).tally.total) =
        rounds.map (·.suite.cases.length) :=
      List.map_congr_left fun r _ => Suite.total_run config r.suite r.world r.source
    rw [htally, Tally.total_foldl_merge, List.map_map, Function.comp_def, hcases]
    exact Nat.zero_add _
  · rw [hfinal]
    rfl

/-- Outcomes of which one is a suite, between an error, a text that is none, and the exit
command. -/
def doorPolls : List Poll :=
  [.error "down", .ok (.body "\x7b"), .ok (.body "[]"), .ok (.body " Exit ")]

/-- The session over them runs one suite, the first. -/
theorem Session.poll_ended_doorPolls :
    isEnded Config.standard "door" doorPolls (.start (.start Stage.empty) none) ∧
      doorPolls.length ≤ 4 ∧
      (poll Config.standard 4 (.start (.start Stage.empty) none)
        (⟨"door", doorPolls, "", 0⟩ : Script)).1.tally.total = 1 := by
  have hended : isEnded Config.standard "door" doorPolls (.start (.start Stage.empty) none) := by
    decide
  have hlength : doorPolls.length ≤ 4 := by decide
  have hsession := poll_ended Config.standard "door" (.start Stage.empty) none doorPolls hended
    hlength "" 0
  refine ⟨hended, hlength, hsession.2.2.2.2.2.2.1.trans ?_⟩
  decide

end UiSuite
