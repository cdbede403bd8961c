import UiSuite.Proofs.Interactive.Rounds
import UiSuite.Proofs.Queue.Serving
import UiSuite.Proofs.Text.Trimming
import UiSuite.Proofs.Text.Utf8

/-! A session over a queue that ends with the exit command.

A poll of such a server brings its next payload, and the exit command after the last
(`Endpoint.fetch_eq`). So a session takes the payloads up to the first that is the exit command
itself, runs those that are suites, and ends with one poll more (`Session.poll_draining`). -/
namespace UiSuite

open Queue (Server Request)
open Report (Tally)

/-- What a text brings that is served: a blank one is nothing. -/
def Fetch.ofText (text : String) : Fetch :=
  if Text.isBlankText text then .empty else .body text

/-! ### Polls of a server -/

theorem Endpoint.meaning_encode (text : String) :
    meaning ⟨200, Text.Utf8.encode text⟩ = Fetch.ofText text := by
  simp [meaning, Fetch.ofText, Text.Utf8.decodeLossy_encode]

/-- The request of a session for an address. -/
def Address.ask (a : Address) : Request :=
  ⟨"GET", a.place, [("user-agent", Endpoint.agent)], []⟩

/-- Whether an address is that of the endpoint of a server. -/
def Queue.Server.isPolledAt (s : Server) (url : String) : Bool :=
  (Address.ofText? url).any fun a => s.place? a.ask.place = some .polls

theorem Address.not_isHeadless_ask (a : Address) : Server.isHeadless a.ask = false := by
  have hagent : Text.contains Endpoint.agent "HeadlessChrome" = false := by decide
  have hheader : a.ask.header "user-agent" = some Endpoint.agent := rfl
  rw [Server.isHeadless, hheader, Option.any_some, hagent]

namespace Endpoint
variable {url : String} {s : Server}

/-- **A poll brings the next payload**, or the exit command. -/
theorem fetch_eq (hurl : s.isPolledAt url) (hmode : s.mode = .exitWhenEmpty) :
    Source.fetch (⟨url, s⟩ : Endpoint Server) =
      (.ok (Fetch.ofText (s.queue.items.headD s.exitCommand)),
        ⟨url, { s with queue := ⟨s.queue.items.tail⟩ }⟩) := by
  obtain ⟨a, haddress, hplace⟩ := (Option.any_eq_true _ _).1 hurl
  have hat : Queue.Exchange.isAt .polls "GET" ⟨a.ask, s⟩ = true :=
    Queue.Exchange.isAt_iff.2 ⟨of_decide_eq_true hplace, rfl⟩
  have hhandle : s.handle a.ask = s.poll a.ask := Queue.Exchange.handle_of_get hat
  have hfetch : Source.fetch (⟨url, s⟩ : Endpoint Server) =
      (.ok (meaning ⟨(s.poll a.ask).1.status, Text.Utf8.encode (s.poll a.ask).1.body⟩),
        ⟨url, (s.poll a.ask).2⟩) := by
    rw [← hhandle]
    simp [Source.fetch, Transport.get, haddress, outcome, Address.ask]
  have hheadless := a.not_isHeadless_ask
  rw [hfetch]
  cases hitems : s.queue.items with
  | nil =>
    have hsame : ({ s with queue := ⟨[]⟩ } : Server) = s := by rw [← hitems]
    have hidle : s.idle = .text 200 s.exitCommand := by rw [Server.idle, if_pos hmode]
    rw [Server.poll_nil hheadless hitems, hidle, List.headD_nil, List.tail_nil, hsame]
    simp only [Queue.Response.status_text, Queue.Response.body_text, meaning_encode]
  | cons payload rest =>
    have hcycle : s.mode ≠ .cycle := by rw [hmode]; decide
    rw [Server.poll_cons hheadless hcycle hitems, List.headD_cons, List.tail_cons]
    simp only [Queue.Response.status_text, Queue.Response.body_text, meaning_encode]

/-- So many polls bring the payloads and then the exit command. -/
theorem outcomes_eq (hurl : s.isPolledAt url) (hmode : s.mode = .exitWhenEmpty) (n : Nat) :
    Source.outcomes n (⟨url, s⟩ : Endpoint Server) =
      (s.queue.items.take n ++ List.replicate (n - s.queue.items.length) s.exitCommand).map
        fun text => .ok (Fetch.ofText text) := by
  induction n generalizing s with
  | zero => simp [Source.outcomes]
  | succ n ih =>
    have hrest := ih (s := { s with queue := ⟨s.queue.items.tail⟩ }) hurl hmode
    rw [Source.outcomes, fetch_eq hurl hmode, hrest]
    cases hitems : s.queue.items with
    | nil => simp [List.replicate_succ]
    | cons payload rest => simp

theorem polled_eq (hurl : s.isPolledAt url) (hmode : s.mode = .exitWhenEmpty) (n : Nat) :
    Source.polled n (⟨url, s⟩ : Endpoint Server) =
      ⟨url, { s with queue := ⟨s.queue.items.drop n⟩ }⟩ := by
  induction n generalizing s with
  | zero => rfl
  | succ n ih =>
    have hrest := ih (s := { s with queue := ⟨s.queue.items.tail⟩ }) hurl hmode
    rw [Source.polled, fetch_eq hurl hmode, hrest, List.drop_tail]

end Endpoint

/-! ### Visits without errors -/

section
variable {σ : Type} [Surface σ] (config : Config) (name : String)

/-- Whether what a poll brings is the exit command. -/
def Fetch.isExit (command : String) : Fetch → Bool
  | .body text => Session.isExit command text
  | .empty | .status _ => false

/-- A blank text is no exit command, unless that is blank. -/
theorem Fetch.isExit_ofText {command : String} (hcommand : Text.isBlankText command = false)
    (text : String) : (ofText text).isExit command = Session.isExit command text := by
  cases hblank : Text.isBlankText text with
  | false => simp [ofText, hblank, isExit]
  | true =>
    have htrimmed : Text.trimmed command ≠ "" := by
      rw [Ne, Text.trimmed_eq_empty_iff, hcommand]
      exact Bool.false_ne_true
    have hnot : Session.isExit command text = false := by
      rw [Session.isExit, Text.trimmed_eq_empty_iff.2 hblank, Bool.eq_false_iff]
      exact fun h => htrimmed (Text.eq_empty_of_equalFold h)
    simp [ofText, hblank, isExit, hnot]

omit [Surface σ] in
theorem Visit.isLast_ok {v : Visit σ} {f : Fetch} (h : v.outcome = .ok f) :
    v.isLast config name = f.isExit config.polling.exitCommand := by
  obtain ⟨outcome, s⟩ := v
  subst h
  rw [isLast, response]
  cases f with
  | empty => rfl
  | status code => rfl
  | body text =>
    rw [Fetch.isExit]
    cases hexit : Session.isExit config.polling.exitCommand text with
    | true => simp [hexit, Response.isLast]
    | false =>
      simp only [hexit, Bool.false_eq_true, if_false]
      cases Session.decode name (s.received + 1) (Text.trimmed text) <;> rfl

/-- A session visits what polls bring up to the first exit command. -/
theorem visits_ok {before : List Fetch} {f : Fetch}
    (hbefore : ∀ g ∈ before, g.isExit config.polling.exitCommand = false)
    (hf : f.isExit config.polling.exitCommand = true) (after : List Fetch) (s : Session σ) :
    isEnded config name ((before ++ f :: after).map .ok) s = true ∧
      (visits config name ((before ++ f :: after).map .ok) s).map (·.outcome) =
        (before ++ [f]).map .ok := by
  induction before generalizing s with
  | nil =>
    have hlast : Visit.isLast config name (⟨.ok f, s⟩ : Visit σ) = true :=
      (Visit.isLast_ok config name rfl).trans hf
    simp [isEnded, visits, hlast]
  | cons g before ih =>
    obtain ⟨hg, hrest⟩ := List.forall_mem_cons.1 hbefore
    have hlast : Visit.isLast config name (⟨.ok g, s⟩ : Visit σ) = false :=
      (Visit.isLast_ok config name rfl).trans hg
    obtain ⟨hended, houtcomes⟩ := ih hrest (Visit.after config name ⟨.ok g, s⟩)
    rw [isEnded] at hended ⊢
    simp only [List.cons_append, List.map_cons, visits, hlast, Bool.false_eq_true, if_false,
      List.any_cons, Bool.false_or, hended, houtcomes, and_self]

omit [Surface σ] in
/-- The payloads of visits of texts are those that are not blank. -/
theorem filterMap_payload? {vs : List (Visit σ)} {texts : List String}
    (h : vs.map (·.outcome) = texts.map fun text => .ok (Fetch.ofText text)) :
    vs.filterMap Visit.payload? = (texts.filter (!Text.isBlankText ·)).map Text.trimmed := by
  induction vs generalizing texts with
  | nil =>
    have hnil : texts = [] := List.map_eq_nil_iff.1 h.symm
    rw [hnil]
    rfl
  | cons v vs ih =>
    obtain ⟨text, rest, rfl, hv, hvs⟩ := List.map_eq_cons_iff.1 h.symm
    have hrest := ih hvs.symm
    obtain ⟨outcome, s⟩ := v
    subst hv
    rw [filterMap_cons_toList, hrest, Visit.payload?, Fetch.ofText]
    cases hblank : Text.isBlankText text <;> simp [hblank]

end

/-! ### Suites among texts -/

theorem Suite.decode_trimmed (text name : String) :
    decode (Text.trimmed text) name = decode text name := by
  rw [decode, parseValue, Text.trimmed_trimmed, decode, parseValue]

theorem Suite.accepts_trimmed (text : String) : accepts (Text.trimmed text) = accepts text := by
  rw [accepts, decode_trimmed, accepts]

theorem Suite.not_accepts_blank {text : String} (h : Text.isBlankText text = true) :
    accepts text = false := by
  rw [← accepts_trimmed, Text.trimmed_eq_empty_iff.2 h]
  decide

/-- Blank texts are no suites, and blanks around a text do not matter. -/
theorem Suite.filter_accepts_trimmed (texts : List String) :
    ((texts.filter (!Text.isBlankText ·)).map Text.trimmed).filter accepts =
      (texts.filter accepts).map Text.trimmed := by
  have hsame (text : String) :
      (accepts (Text.trimmed text) && !Text.isBlankText text) = accepts text := by
    rw [accepts_trimmed]
    cases hblank : Text.isBlankText text with
    | true => rw [not_accepts_blank hblank]; rfl
    | false => exact Bool.and_true _
  rw [List.filter_map, List.filter_filter]
  simp only [Function.comp_apply, hsame]

/-! ### The session -/

theorem Session.isExit_self (command : String) : isExit command command = true :=
  beq_self_eq_true _

/-- An exit command that is not blank is served as it is. -/
theorem Fetch.ofText_of_isExit {command text : String}
    (hcommand : Text.isBlankText command = false) (h : Session.isExit command text = true) :
    ofText text = .body text := by
  have hfetch := isExit_ofText hcommand text
  rw [h] at hfetch
  cases hblank : Text.isBlankText text with
  | false => simp [ofText, hblank]
  | true =>
    rw [ofText, hblank] at hfetch
    cases hfetch

/-- The polls of a queue that ends with the exit command bring an exit command after the
payloads before the first of them. -/
theorem Endpoint.outcomes_split {url : String} {s : Server} (hurl : s.isPolledAt url)
    (hmode : s.mode = .exitWhenEmpty) (hcommand : Text.isBlankText s.exitCommand = false) {n : Nat}
    (hn : s.queue.items.length + 1 ≤ n) :
    ∃ last after, Session.isExit s.exitCommand last = true ∧
      Source.outcomes n (⟨url, s⟩ : Endpoint Server) =
        ((s.queue.items.takeWhile (!Session.isExit s.exitCommand ·)).map Fetch.ofText ++
          Fetch.body last :: after).map .ok := by
  obtain ⟨m, hm⟩ : ∃ m, n - s.queue.items.length = m + 1 :=
    Nat.exists_eq_add_one.2 (by omega)
  obtain ⟨last, after, hlast, hsplit⟩ :=
    exists_split_takeWhile (Session.isExit_self s.exitCommand) s.queue.items
      (List.replicate m s.exitCommand)
  refine ⟨last, after.map Fetch.ofText, hlast, ?_⟩
  rw [outcomes_eq hurl hmode, hm, List.take_of_length_le (by omega), List.replicate_succ, hsplit,
    ← Fetch.ofText_of_isExit hcommand hlast]
  simp [Function.comp_def]

variable {σ : Type} [Surface σ] (config : Config)

/-- **A session over a queue that ends with the exit command.** It ends, after one poll for
each payload before the first that is the exit command and one more. A blank payload is a
poll without a payload; of the others those that are suites are run, in order and each once,
and the tally is that of the runs merged. What comes after the exit command stays in the
queue, so without one among the payloads the queue is empty in the end. -/
theorem Session.poll_draining (world : World σ) (source : Option String) {url : String}
    {server : Server} (hurl : server.isPolledAt url) (hmode : server.mode = .exitWhenEmpty)
    (hshared : server.exitCommand = config.polling.exitCommand)
    (hcommand : Text.isBlankText config.polling.exitCommand = false) {n : Nat}
    (hn : server.queue.items.length + 1 ≤ n) :
    let polls := Source.outcomes n (⟨url, server⟩ : Endpoint Server)
    let vs := visits config url polls (.start world source)
    let before := server.queue.items.takeWhile (!isExit config.polling.exitCommand ·)
    let rounds := vs.filterMap (Visit.round? config url)
    let final := poll config n (.start world source) (⟨url, server⟩ : Endpoint Server)
    isEnded config url polls (.start world source) = true ∧
      final.1 = (sessionAfter config url (.start world source) vs).finish ∧
      vs.length = before.length + 1 ∧ vs.length ≤ server.queue.items.length + 1 ∧
      (∃ last, isExit config.polling.exitCommand last = true ∧
        vs.map (·.outcome) = (before.map Fetch.ofText ++ [Fetch.body last]).map .ok) ∧
      rounds.map (fun r => Except.ok r.suite) =
        (before.filter Suite.accepts).mapIdx (fun k text =>
          (Suite.decode text ("Interactive Suite " ++ toString (k + 1))).map fun s =>
            s.withDefaults ("Interactive Suite " ++ toString (k + 1))
              (url ++ "#" ++ toString (k + 1))) ∧
      final.1.tally = (rounds.map fun r => (r.run config).tally).foldl Tally.merge .empty ∧
      final.2.transport.queue.items = server.queue.items.drop (before.length + 1) ∧
      ((∀ text ∈ server.queue.items, isExit config.polling.exitCommand text = false) →
        final.2.transport.queue.items = []) := by
  intro polls vs before rounds final
  rw [← hshared] at hcommand
  obtain ⟨last, after, hlast, hpolls⟩ := Endpoint.outcomes_split hurl hmode hcommand hn
  rw [hshared] at hlast hpolls hcommand
  have hbefore : ∀ g ∈ before.map Fetch.ofText, g.isExit config.polling.exitCommand = false := by
    intro g hg
    obtain ⟨text, htext, rfl⟩ := List.mem_map.1 hg
    rw [Fetch.isExit_ofText hcommand]
    simpa using List.mem_takeWhile_imp htext
  obtain ⟨hended, houtcomes⟩ :=
    visits_ok config url hbefore (f := .body last) hlast after (.start world source)
  rw [← hpolls] at hended houtcomes
  have hlength : vs.length = before.length + 1 := by
    have hmap := congrArg List.length houtcomes
    rw [List.length_map, List.length_map, List.length_append, List.length_map] at hmap
    exact hmap
  have hle : before.length ≤ server.queue.items.length :=
    (List.takeWhile_sublist _).length_le
  have hfinal : final = ((sessionAfter config url (.start world source) vs).finish,
      ⟨url, { server with queue := ⟨server.queue.items.drop vs.length⟩ }⟩) := by
    have hpoll : final = (if isEnded config url polls (.start world source) then
        (sessionAfter config url (.start world source) vs).finish
        else sessionAfter config url (.start world source) vs,
        Source.polled vs.length (⟨url, server⟩ : Endpoint Server)) :=
      poll_eq config (fun _ => rfl) n (.start world source) (⟨url, server⟩ : Endpoint Server)
    rw [hpoll, if_pos hended, Endpoint.polled_eq hurl hmode]
  have hitems : final.2.transport.queue.items = server.queue.items.drop (before.length + 1) := by
    rw [hfinal, ← hlength]
  refine ⟨hended, by rw [hfinal], hlength, by omega, ⟨last, hlast, houtcomes⟩, ?_, ?_, hitems, ?_⟩
  · have hpayloads : vs.dropLast.filterMap Visit.payload? =
        (before.filter (!Text.isBlankText ·)).map Text.trimmed := by
      apply filterMap_payload?
      rw [List.map_dropLast, houtcomes, List.map_append, List.map_singleton, List.dropLast_concat,
        List.map_map]
      rfl
    have hrounds := rounds_eq config url hended
    rw [show (visits config url polls (.start world source)) = vs from rfl, hpayloads,
      Suite.filter_accepts_trimmed] at hrounds
    simp only [Visit.decode_eq, Session.start, Nat.zero_add, mapIdx_map,
      Suite.decode_trimmed] at hrounds
    exact hrounds
  · rw [hfinal]
    exact tally_sessionAfter config url polls (.start world source)
  · intro hnone
    have hall : before = server.queue.items :=
      List.takeWhile_eq_self_iff.2 fun text htext => by rw [hnone text htext]; rfl
    rw [hitems, hall]
    exact List.drop_of_length_le (Nat.le_succ _)

/-- A queue with a blank payload, one that is no suite, and an exit command before a suite. -/
def doorQueue : Server :=
  ⟨"/next", .exitWhenEmpty, "exit", ⟨["[]", " ", "\x7b", "[]", "EXIT ", "[]"]⟩⟩

/-- The session over it leaves the suite that comes after the exit command. -/
theorem Session.poll_draining_doorQueue :
    doorQueue.isPolledAt "http://door:9/next" ∧ doorQueue.mode = .exitWhenEmpty ∧
      doorQueue.exitCommand = Config.standard.polling.exitCommand ∧
      Text.isBlankText Config.standard.polling.exitCommand = false ∧
      doorQueue.queue.items.length + 1 ≤ 7 ∧
      (poll Config.standard 7 (.start (.start Stage.empty) none)
        (⟨"http://door:9/next", doorQueue⟩ : Endpoint Server)).2.transport.queue.items = ["[]"] := by
  have hurl : doorQueue.isPolledAt "http://door:9/next" := by decide +kernel
  have hmode : doorQueue.mode = .exitWhenEmpty := rfl
  have hshared : doorQueue.exitCommand = Config.standard.polling.exitCommand := rfl
  have hcommand : Text.isBlankText Config.standard.polling.exitCommand = false := by decide
  have hn : doorQueue.queue.items.length + 1 ≤ 7 := by decide
  have hsession := poll_draining Config.standard (.start Stage.empty) none hurl hmode hshared
    hcommand hn
  refine ⟨hurl, hmode, hshared, hcommand, hn, hsession.2.2.2.2.2.2.2.1.trans ?_⟩
  decide +kernel

end UiSuite
