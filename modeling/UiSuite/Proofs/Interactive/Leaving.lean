import UiSuite.Config.Loading
import UiSuite.Proofs.Interactive.Draining

/-! The exit command on its way from a server to a session.

A server replies with its exit command to a poll that finds nothing queued, if it is to, and to the
command itself when that is posted (`Exchange.handle_of_isExitReply`). A blank text is no payload
for an endpoint. So the reply ends a session that has the same command unless that is blank
(`Session.poll_exitReply`). A configuration may have a blank one, and then nothing a server answers
ends the session (`Session.isEnded_of_blank`). -/
namespace UiSuite

open Queue (Exchange Server)

/-! ### The reply of a server -/

namespace Queue.Exchange

/-- Whether the reply is the exit command: to a poll that finds the queue of such a server empty,
or to the command itself. -/
def isExitReply (x : Exchange) : Bool :=
  (x.isPoll && x.before.queue.items.isEmpty && x.before.mode = .exitWhenEmpty) ||
    x.posts x.before.isExit

/-- What the client gets. -/
def answer (x : Exchange) : Answer :=
  ⟨x.response.status, Text.Utf8.encode x.response.body⟩

variable {x : Exchange}

/-- A poll of an empty queue, by either method. -/
theorem handle_of_isPoll (hpoll : x.isPoll = true) (hitems : x.before.queue.items = []) :
    x.before.handle x.request = (x.before.idle, x.before) := by
  rw [isPoll, Bool.and_eq_true, Bool.or_eq_true, Bool.not_eq_true'] at hpoll
  obtain ⟨hget | hpost, hheadless⟩ := hpoll
  · rw [handle_of_get hget, Server.poll_nil hheadless hitems]
  · obtain ⟨hat, body, hbody, hexit⟩ := posts_iff.1 hpost
    rw [Bool.not_eq_true'] at hexit
    rw [handle_of_post hat, Server.postPoll_poll hbody hexit, Server.poll_nil hheadless hitems]

/-- **An exit reply** is the exit command, and the server stays as it is. -/
theorem handle_of_isExitReply (h : x.isExitReply = true) :
    x.before.handle x.request = (.text 200 x.before.exitCommand, x.before) := by
  rw [isExitReply, Bool.or_eq_true, Bool.and_eq_true, Bool.and_eq_true] at h
  rcases h with ⟨⟨hpoll, hitems⟩, hmode⟩ | hpost
  · rw [handle_of_isPoll hpoll (List.isEmpty_iff.1 hitems), Server.idle,
      if_pos (of_decide_eq_true hmode)]
  · obtain ⟨hat, body, hbody, hexit⟩ := posts_iff.1 hpost
    rw [handle_of_post hat, Server.postPoll_exit hbody hexit]

theorem answer_of_isExitReply (h : x.isExitReply = true) :
    x.answer = ⟨200, Text.Utf8.encode x.before.exitCommand⟩ := by
  rw [answer, response, handle_of_isExitReply h]
  rfl

end Queue.Exchange

/-! ### What an endpoint makes of it -/

/-- A blank exit command is that of blank texts. -/
theorem Session.isExit_of_blank {command : String} (h : Text.isBlankText command = true)
    (text : String) : isExit command text = Text.isBlankText text := by
  rw [isExit, Text.trimmed_eq_empty_iff.2 h, Bool.eq_iff_iff, ← Text.trimmed_eq_empty_iff]
  constructor
  · intro hfold
    rw [Text.equalFold, BEq.comm] at hfold
    exact Text.eq_empty_of_equalFold hfold
  · intro hempty
    rw [hempty]
    rfl

/-- No answer of a server is a blank exit command. -/
theorem Endpoint.isExit_meaning {command : String} (h : Text.isBlankText command = true)
    (a : Answer) : (meaning a).isExit command = false := by
  rw [meaning]
  split
  · rfl
  · split
    · simp only
      split
      · rfl
      · rename_i htext
        rw [Fetch.isExit, Session.isExit_of_blank h]
        exact Bool.eq_false_iff.2 htext
    · rfl

/-! ### What a session makes of it -/

variable {σ : Type} [Surface σ] (config : Config)

/-- A session goes on after its exit command is served if that is blank. -/
theorem Session.take_exitCommand (name : String) (s : Session σ) :
    s.take config name (.ok (Fetch.ofText config.polling.exitCommand)) =
      if Text.isBlankText config.polling.exitCommand then
        ({ s with errors := 0 }.pause config.polling, false)
      else ({ s with errors := 0 }, true) := by
  rw [Fetch.ofText]
  cases hblank : Text.isBlankText config.polling.exitCommand with
  | true => rfl
  | false =>
    simp only [Bool.false_eq_true, if_false, take, takeBody, isExit_self, if_true]

/-- **An exit reply ends a session** that has the same exit command, with the poll that brings it,
unless the command is blank: then the session sleeps and polls again. -/
theorem Session.poll_exitReply {τ : Type} [Source τ] {x : Exchange} (hreply : x.isExitReply = true)
    (hshared : x.before.exitCommand = config.polling.exitCommand) {t : τ} {url : String}
    (hfetch : (Source.fetch t).1 = Endpoint.outcome url (some x.answer)) (n : Nat) (s : Session σ) :
    poll config (n + 1) s t =
      if Text.isBlankText config.polling.exitCommand then
        poll config n ({ s with errors := 0 }.pause config.polling) (Source.fetch t).2
      else ({ s with errors := 0 }.finish, (Source.fetch t).2) := by
  have houtcome : (Source.fetch t).1 = .ok (Fetch.ofText config.polling.exitCommand) := by
    rw [hfetch, Exchange.answer_of_isExitReply hreply, hshared, Endpoint.outcome,
      Endpoint.meaning_encode]
  rw [poll]
  simp only [houtcome, take_exitCommand]
  cases Text.isBlankText config.polling.exitCommand <;> rfl

/-- A configuration with an exit command of its own. -/
def Config.leaving (command : String) : Config :=
  { Config.standard with polling := { Polling.standard with exitCommand := command } }

/-- A cycling server gets the exit command, and the session that fetches its reply ends. -/
theorem Session.poll_exitReply_quit :
    let x : Exchange :=
      ⟨⟨"POST", "/next", [], Text.Utf8.encode " QUIT\n"⟩, ⟨"/next", .cycle, "Quit", ⟨["[]"]⟩⟩⟩
    let t : Script := ⟨"door", [Endpoint.outcome "door" (some x.answer)], "[]", 0⟩
    let s := start (.start Stage.empty) none
    x.isExitReply = true ∧ x.before.exitCommand = (Config.leaving "Quit").polling.exitCommand ∧
      (Source.fetch t).1 = Endpoint.outcome "door" (some x.answer) ∧
      poll (.leaving "Quit") 9 s t = (s.finish, (Source.fetch t).2) := by
  intro x t s
  have hreply : x.isExitReply = true := by decide +kernel
  have hshared : x.before.exitCommand = (Config.leaving "Quit").polling.exitCommand := rfl
  have hfetch : (Source.fetch t).1 = Endpoint.outcome "door" (some x.answer) := rfl
  refine ⟨hreply, hshared, hfetch, ?_⟩
  exact (poll_exitReply (.leaving "Quit") hreply hshared hfetch 8 s).trans (if_neg (by decide))

/-- **With a blank exit command nothing a server answers ends a session**, however often it
polls. -/
theorem Session.isEnded_of_blank {τ : Type} [Transport τ]
    (hblank : Text.isBlankText config.polling.exitCommand = true)
    (hmax : config.polling.maxErrors = none) (n : Nat) (s : Session σ) (e : Endpoint τ) :
    isEnded config e.url (Source.outcomes n e) s = false := by
  induction n generalizing s e with
  | zero => rfl
  | succ n ih =>
    -- A server that is not reached is an error, of which there may be any number.
    have hlast : Visit.isLast config e.url ⟨(Source.fetch e).1, s⟩ = false := by
      cases hanswer : (Transport.get e.url e.transport).1 with
      | none =>
        have houtcome : (Source.fetch e).1 = Endpoint.outcome e.url none := by
          rw [← hanswer]
          rfl
        rw [houtcome, Visit.isLast, Visit.response]
        simp [Endpoint.outcome, hmax, Response.isLast]
      | some a =>
        have houtcome : (Source.fetch e).1 = .ok (Endpoint.meaning a) := by
          rw [← Endpoint.outcome, ← hanswer]
          rfl
        rw [Visit.isLast_ok config e.url houtcome]
        exact Endpoint.isExit_meaning hblank a
    have hrest := ih (Visit.after config e.url ⟨(Source.fetch e).1, s⟩) (Source.fetch e).2
    rw [isEnded] at hrest ⊢
    rw [Source.outcomes, visits]
    simp only [hlast, Bool.false_eq_true, if_false, List.any_cons, Bool.false_or]
    exact hrest

/-- A blank exit command is accepted, and a session over a server that has nothing but its exit
command to give is never ended by it. -/
theorem Session.poll_blankExit :
    let server : Server := ⟨"/next", .exitWhenEmpty, " ", ⟨[]⟩⟩
    let x : Exchange := ⟨⟨"GET", "/next", [], []⟩, server⟩
    let url := "http://door:9/next"
    Config.ofText "\x7b\"interactive\":\x7b\"exit_command\":\" \"\x7d\x7d" = .ok (.leaving " ") ∧
      server.exitCommand = (Config.leaving " ").polling.exitCommand ∧ x.isExitReply = true ∧
      Endpoint.outcome url (some x.answer) = .ok .empty ∧
      ∀ n, isEnded (.leaving " ") url (Source.outcomes n (⟨url, server⟩ : Endpoint Server))
        (start (.start Stage.empty) none) = false := by
  intro server x url
  have hreply : x.isExitReply = true := by decide +kernel
  refine ⟨by decide +kernel, rfl, hreply, ?_, fun n => ?_⟩
  · rw [Exchange.answer_of_isExitReply hreply, Endpoint.outcome, Endpoint.meaning_encode]
    decide
  · exact isEnded_of_blank (.leaving " ") (by decide) rfl n _ ⟨url, server⟩

end UiSuite
