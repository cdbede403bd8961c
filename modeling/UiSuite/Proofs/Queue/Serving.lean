import UiSuite.Proofs.Lists
import UiSuite.Queue.Server

/-! What becomes of queued payloads.

An exchange is a request and the server it came to. There are four things an exchange can do
(`Exchange.Deals`): a poll takes the first payload or finds none, a payload is queued, or the
server stays as it is. So over any exchanges with a server that does not cycle, what was
served and what is left are what was queued before and during them, in order
(`Server.served_append_items`). A poll for headers only is left out: it takes a payload and
gives none. -/
namespace UiSuite.Queue

namespace Server

/-- What a poll gets when nothing is queued. -/
def idle (s : Server) : Response :=
  if s.mode = .exitWhenEmpty then .text 200 s.exitCommand else .empty 204

/-- Whether a text is the exit command, up to case and blanks around it. -/
def isExit (s : Server) (body : String) : Bool :=
  Text.equalFold (Text.trimmed body) (Text.trimmed s.exitCommand)

/-! ### Single answers -/

variable {r : Request} {s : Server}

theorem poll_headless (h : isHeadless r = true) : s.poll r = (.empty 204, s) := by
  rw [poll, if_pos h]

theorem poll_nil (h : isHeadless r = false) (hitems : s.queue.items = []) :
    s.poll r = (s.idle, s) := by
  rw [poll, if_neg (by simp [h]), Payloads.pop_of_nil hitems, idle]
  simp only
  split <;> rfl

theorem poll_cons (h : isHeadless r = false) (hmode : s.mode ≠ .cycle) {payload : String}
    {rest : List String} (hitems : s.queue.items = payload :: rest) :
    s.poll r = (.text 200 payload, { s with queue := ⟨rest⟩ }) := by
  rw [poll, if_neg (by simp [h]), Payloads.pop_of_cons hitems]
  simp only [if_neg hmode]

/-- A body is taken if it is a text and not too long. -/
theorem bodyText_eq_ok_iff {body : String} :
    bodyText r = .ok body ↔ r.body.length ≤ bodyLimit ∧ Text.Utf8.decode r.body = .ok body := by
  rw [bodyText, ← Nat.not_lt]
  split
  · rename_i hlong
    simp [hlong]
  · rename_i hfits
    cases hdecode : Text.Utf8.decode r.body <;> simp [hfits]

/-- What is too long is refused whatever it says. -/
theorem bodyText_of_lt (h : bodyLimit < r.body.length) :
    bodyText r =
      .error (.text 413 "Failed to buffer the request body: length limit exceeded") := by
  rw [bodyText, if_pos h]

/-- A body is refused since it is too long or since it is no text. -/
theorem status_of_bodyText {refusal : Response} (h : bodyText r = .error refusal) :
    refusal.status = 413 ∨ refusal.status = 400 := by
  rw [bodyText] at h
  split at h
  · cases h
    exact .inl rfl
  · split at h <;> cases h
    exact .inr rfl

theorem postPoll_refused {refusal : Response} (h : bodyText r = .error refusal) :
    s.postPoll r = (refusal, s) := by
  rw [postPoll, h]

theorem postPoll_exit {body : String} (h : bodyText r = .ok body) (hexit : s.isExit body = true) :
    s.postPoll r = (.text 200 s.exitCommand, s) := by
  rw [isExit] at hexit
  rw [postPoll, h]
  simp only [if_pos hexit]

theorem postPoll_poll {body : String} (h : bodyText r = .ok body) (hexit : s.isExit body = false) :
    s.postPoll r = s.poll r := by
  rw [isExit] at hexit
  rw [postPoll, h]
  simp only [hexit, Bool.false_eq_true, if_false]

theorem enqueue_refused {refusal : Response} (h : bodyText r = .error refusal) :
    s.enqueue r = (refusal, s) := by
  rw [enqueue, h]

theorem enqueue_blank {body : String} (h : bodyText r = .ok body)
    (hblank : Text.trimmed (payloadOf r body) = "") :
    s.enqueue r = (.text 400 "Empty payload", s) := by
  rw [enqueue, h]
  simp only [if_pos hblank]

theorem enqueue_payload {body : String} (h : bodyText r = .ok body)
    (hpayload : Text.trimmed (payloadOf r body) ≠ "") :
    s.enqueue r = (.empty 201,
      { s with queue := s.queue.push (Text.trimmed (payloadOf r body)) }) := by
  rw [enqueue, h]
  simp only [if_neg hpayload]

end Server

/-! ### Exchanges -/

/-- A request and the server it came to. -/
structure Exchange where
  request : Request
  before : Server

namespace Exchange
open Server (isHeadless bodyText payloadOf)

def response (x : Exchange) : Response :=
  (x.before.handle x.request).1

def after (x : Exchange) : Server :=
  (x.before.handle x.request).2

/-- Whether a place is asked with a method. -/
def isAt (p : Server.Place) (method : String) (x : Exchange) : Bool :=
  x.before.place? x.request.place = some p && x.request.method = method

/-- Whether a text that passes a test is posted to the endpoint. -/
def posts (test : String → Bool) (x : Exchange) : Bool :=
  x.isAt .polls "POST" && (bodyText x.request).toOption.any test

/-- Whether the next payload is asked for: not by a headless browser, and not with the exit
command. -/
def isPoll (x : Exchange) : Bool :=
  (x.isAt .polls "GET" || x.posts fun body => !x.before.isExit body) && !isHeadless x.request

/-- The payload that was served, if one was: what a poll got while some were queued. -/
def served? (x : Exchange) : Option String :=
  if x.isPoll ∧ x.before.queue.items ≠ [] ∧ x.response.status = 200 then some x.response.body
  else none

/-- The payload that was queued, if one was. -/
def enqueued? (x : Exchange) : Option String :=
  if x.isAt .enqueues "POST" ∧ x.response.status = 201 then
    (bodyText x.request).toOption.map fun body => Text.trimmed (payloadOf x.request body)
  else none

/-- What an exchange does. -/
inductive Deals (x : Exchange) : Prop
  /-- A poll takes the first payload. -/
  | serves {payload : String} {rest : List String} (hpoll : x.isPoll)
      (hitems : x.before.queue.items = payload :: rest)
      (hresponse : x.response = .text 200 payload)
      (hafter : x.after = { x.before with queue := ⟨rest⟩ })
  /-- A poll finds no payload. -/
  | idles (hpoll : x.isPoll) (hitems : x.before.queue.items = [])
      (hresponse : x.response = x.before.idle) (hafter : x.after = x.before)
  /-- A payload is queued. -/
  | queues {body : String} (hat : x.isAt .enqueues "POST") (hbody : bodyText x.request = .ok body)
      (hresponse : x.response = .empty 201)
      (hafter : x.after = { x.before with
        queue := x.before.queue.push (Text.trimmed (payloadOf x.request body)) })
  /-- The server stays as it is. -/
  | keeps (hpoll : x.isPoll = false) (hstatus : x.isAt .enqueues "POST" → x.response.status ≠ 201)
      (hafter : x.after = x.before)

variable {x : Exchange}

theorem isAt_iff {p : Server.Place} {method : String} :
    x.isAt p method = true ↔
      x.before.place? x.request.place = some p ∧ x.request.method = method := by
  simp [isAt]

/-- A request asks for one thing at one place. -/
theorem isAt_of_isAt {p : Server.Place} {method : String} (h : x.isAt p method = true)
    (q : Server.Place) (other : String) : x.isAt q other = (p = q && method = other : Bool) := by
  obtain ⟨hplace, hmethod⟩ := isAt_iff.1 h
  simp [isAt, hplace, hmethod]

theorem handle_of_isAt {p : Server.Place} {method : String} (h : x.isAt p method = true)
    (hoptions : method ≠ "OPTIONS") (hhead : method ≠ "HEAD") :
    x.before.handle x.request = x.before.answer x.request p := by
  obtain ⟨hplace, rfl⟩ := isAt_iff.1 h
  rw [Server.handle, if_neg hoptions, hplace]
  simp only [if_neg hhead]

theorem handle_of_get (h : x.isAt .polls "GET" = true) :
    x.before.handle x.request = x.before.poll x.request := by
  rw [handle_of_isAt h (by decide) (by decide)]
  simp [Server.answer, (isAt_iff.1 h).2]

theorem handle_of_post (h : x.isAt .polls "POST" = true) :
    x.before.handle x.request = x.before.postPoll x.request := by
  rw [handle_of_isAt h (by decide) (by decide)]
  simp [Server.answer, (isAt_iff.1 h).2]

theorem posts_iff {test : String → Bool} :
    x.posts test = true ↔
      x.isAt .polls "POST" = true ∧ ∃ body, bodyText x.request = .ok body ∧ test body = true := by
  rw [posts, Bool.and_eq_true]
  cases bodyText x.request <;> simp [Except.toOption]

theorem deals_of_enqueue (h : x.isAt .enqueues "POST" = true) : x.Deals := by
  have hhandle : x.before.handle x.request = x.before.enqueue x.request := by
    have hmethod := (isAt_iff.1 h).2
    rw [handle_of_isAt h (by decide) (by decide)]
    simp [Server.answer, hmethod]
  have hget : x.isAt .polls "GET" = false := isAt_of_isAt h _ _
  have hpost : x.isAt .polls "POST" = false := isAt_of_isAt h _ _
  have hpoll : x.isPoll = false := by simp [isPoll, posts, hget, hpost]
  cases hbody : bodyText x.request with
  | error refusal =>
    rw [Server.enqueue_refused hbody] at hhandle
    refine .keeps hpoll (fun _ => ?_) (congrArg Prod.snd hhandle)
    rw [response, hhandle]
    rcases Server.status_of_bodyText hbody with hstatus | hstatus <;> simp [hstatus]
  | ok body =>
    by_cases hblank : Text.trimmed (payloadOf x.request body) = ""
    · rw [Server.enqueue_blank hbody hblank] at hhandle
      refine .keeps hpoll (fun _ => ?_) (congrArg Prod.snd hhandle)
      simp [response, hhandle]
    · rw [Server.enqueue_payload hbody hblank] at hhandle
      exact .queues h hbody (congrArg Prod.fst hhandle) (congrArg Prod.snd hhandle)

/-- Only polls and what is queued change a server. -/
theorem after_eq_before (hget : x.isAt .polls "GET" = false) (hhead : x.isAt .polls "HEAD" = false)
    (hpost : x.isAt .polls "POST" = false) (henqueue : x.isAt .enqueues "POST" = false) :
    x.after = x.before := by
  rw [after, Server.handle]
  split
  · rfl
  · split
    · rfl
    · rename_i p hplace
      simp only [isAt, hplace] at hget hhead hpost henqueue
      show (x.before.answer x.request p).2 = x.before
      unfold Server.answer
      split <;> simp_all

namespace Deals

/-- Nothing of a server changes but its queue. -/
theorem exists_queue (h : x.Deals) : ∃ q, x.after = { x.before with queue := q } := by
  cases h with
  | serves _ _ _ hafter => exact ⟨_, hafter⟩
  | idles _ _ _ hafter => exact ⟨x.before.queue, hafter⟩
  | queues _ _ _ hafter => exact ⟨_, hafter⟩
  | keeps _ _ hafter => exact ⟨x.before.queue, hafter⟩

/-- **A payload that is served was the first, and one that is queued is the last.** -/
theorem served_append (h : x.Deals) :
    x.served?.toList ++ x.after.queue.items = x.before.queue.items ++ x.enqueued?.toList := by
  cases h with
  | serves hpoll hitems hresponse hafter =>
    simp [served?, enqueued?, hpoll, hitems, hresponse, hafter]
  | idles hpoll hitems hresponse hafter =>
    have hstatus : x.before.idle.status ≠ 201 := by
      rw [Server.idle]
      split <;> simp
    simp [served?, enqueued?, hitems, hresponse, hafter, hstatus]
  | queues hat hbody hresponse hafter =>
    simp [served?, enqueued?, hat, hbody, hresponse, hafter, Except.toOption]
  | keeps hpoll hstatus hafter =>
    have hnone : ¬ (x.isAt .enqueues "POST" ∧ x.response.status = 201) := fun h => hstatus h.1 h.2
    simp [served?, enqueued?, hpoll, hafter, hnone]

/-- A server stays as it is unless a poll is answered well or a payload is queued. -/
theorem after_eq_before (h : x.Deals) (hserved : x.isPoll = true → x.response.status ≠ 200)
    (hqueued : x.isAt .enqueues "POST" = true → x.response.status ≠ 201) : x.after = x.before := by
  cases h with
  | serves hpoll _ hresponse _ => exact absurd (by rw [hresponse]; rfl) (hserved hpoll)
  | idles _ _ _ hafter => exact hafter
  | queues hat _ hresponse _ => exact absurd (by rw [hresponse]; rfl) (hqueued hat)
  | keeps _ _ hafter => exact hafter

end Deals

end Exchange

namespace Server

/-- The server after requests, handled one after the other. -/
def handleAll (s : Server) (rs : List Request) : Server :=
  rs.foldl (fun s r => (s.handle r).2) s

/-- The exchanges of requests handled one after the other. -/
def exchanges : Server → List Request → List Exchange
  | _, [] => []
  | s, r :: rest => ⟨r, s⟩ :: exchanges (s.handle r).2 rest

/-- A server with one payload. -/
def doorServer : Server :=
  ⟨"/next", .drain, "exit", ⟨["open"]⟩⟩

end Server
end UiSuite.Queue
