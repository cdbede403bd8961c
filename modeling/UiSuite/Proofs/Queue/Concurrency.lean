import Mathlib.Data.List.Basic
import UiSuite.Proofs.Queue.Serving

/-! Requests handled at the same time.

A handler does one thing to the queue at a time, and others may come between: on a server that
cycles a poll takes a payload first and queues it again later. `Progress` is how far a handler
is; one that nothing comes between does what `Server.handle` does (`Server.finish_start`). A crowd
is a server and the handlers at work on it. Whatever turns they take, what is queued and what is
out of the queue are what was queued before and since (`Crowd.Balanced`), so no payload is lost
and none is served to two polls. -/
namespace UiSuite.Queue

/-- How far the handling of a request is: an operation on the queue that is to come, or how the
request was answered. -/
inductive Progress where
  /-- The next payload is to be taken. -/
  | takes
  /-- A payload was taken and is to be queued again. -/
  | returns (payload : String)
  /-- A payload is to be queued. -/
  | queues (payload : String)
  /-- The payloads are to be counted. -/
  | counts
  /-- A payload was served. -/
  | served (payload : String)
  /-- A payload was queued. -/
  | queued (payload : String)
  /-- There was no payload to serve or to queue. -/
  | answered (response : Response)

namespace Progress

/-- The next operation on the queue of a server, and how far the handling is then. -/
def step (s : Server) : Progress → Progress × Server
  | takes =>
    match s.queue.pop with
    | (some payload, rest) =>
      (if s.mode = .cycle then returns payload else served payload, { s with queue := rest })
    | (none, _) => (answered s.idle, s)
  | returns payload => (served payload, { s with queue := s.queue.push payload })
  | queues payload => (queued payload, { s with queue := s.queue.push payload })
  | counts => (answered s.status, s)
  | p@(served _) | p@(queued _) | p@(answered _) => (p, s)

/-- The answer, if the handling is over. -/
def response? : Progress → Option Response
  | served payload => some (.text 200 payload)
  | queued _ => some (.empty 201)
  | answered response => some response
  | takes | returns _ | queues _ | counts => none

/-- The payload that was served. -/
def served? : Progress → Option String
  | served payload => some payload
  | takes | returns _ | queues _ | counts | queued _ | answered _ => none

/-- The payload that is out of the queue: taken and not queued again yet, or taken for good. -/
def out? (mode : Mode) : Progress → Option String
  | returns payload => some payload
  | served payload => if mode = .cycle then none else some payload
  | takes | queues _ | counts | queued _ | answered _ => none

/-- The payload that was added to the queue. -/
def queued? : Progress → Option String
  | queued payload => some payload
  | takes | returns _ | queues _ | counts | served _ | answered _ => none

/-- Only where the server cycles a payload is queued again. -/
def Fits (mode : Mode) : Progress → Prop
  | returns _ => mode = .cycle
  | takes | queues _ | counts | served _ | queued _ | answered _ => True

/-- Whether nothing was done to the queue yet. -/
def isFresh : Progress → Bool
  | takes | queues _ | counts | answered _ => true
  | returns _ | served _ | queued _ => false

/-! ### One operation -/

theorem step_takes_nil {s : Server} (h : s.queue.items = []) : takes.step s = (answered s.idle, s) := by
  rw [step, Payloads.pop_of_nil h]

theorem step_takes_cons {s : Server} {payload : String} {rest : List String}
    (h : s.queue.items = payload :: rest) :
    takes.step s = (if s.mode = .cycle then returns payload else served payload,
      { s with queue := ⟨rest⟩ }) := by
  rw [step, Payloads.pop_of_cons h]

/-- An operation changes nothing of a server but its queue. -/
theorem exists_queue (s : Server) (p : Progress) : ∃ q, (p.step s).2 = { s with queue := q } := by
  cases p with
  | takes =>
    cases hitems : s.queue.items with
    | nil => exact ⟨s.queue, by rw [step_takes_nil hitems]⟩
    | cons payload rest => exact ⟨⟨rest⟩, by rw [step_takes_cons hitems]⟩
  | returns payload | queues payload | counts | served payload | queued payload
  | answered response => exact ⟨_, rfl⟩

theorem fits_step (s : Server) (p : Progress) : (p.step s).1.Fits s.mode := by
  cases p with
  | takes =>
    cases hitems : s.queue.items with
    | nil =>
      rw [step_takes_nil hitems]
      trivial
    | cons payload rest =>
      rw [step_takes_cons hitems]
      by_cases hmode : s.mode = .cycle
      · rw [if_pos hmode]
        exact hmode
      · rw [if_neg hmode]
        trivial
  | returns payload | queues payload | counts | served payload | queued payload
  | answered response => trivial

/-- **An operation moves a payload**: what is queued and out, and what was added, are the same
before and after it but for the payload that it adds. -/
theorem step_balance (s : Server) {p : Progress} (h : p.Fits s.mode) :
    ((p.step s).2.queue.items ++ ((p.step s).1.out? s.mode).toList ++ p.queued?.toList).Perm
      (s.queue.items ++ (p.out? s.mode).toList ++ (p.step s).1.queued?.toList) := by
  cases p with
  | takes =>
    cases hitems : s.queue.items with
    | nil =>
      rw [step_takes_nil hitems, hitems]
      exact .refl _
    | cons payload rest =>
      have hout : (if s.mode = .cycle then returns payload else served payload).out? s.mode =
          some payload := by
        by_cases hmode : s.mode = .cycle <;> simp [hmode, out?]
      have hadded : (if s.mode = .cycle then returns payload else served payload).queued? =
          none := by
        split <;> rfl
      rw [step_takes_cons hitems, hout, hadded]
      simp [queued?, out?]
  | returns payload =>
    have hmode : s.mode = .cycle := h
    simp [step, out?, queued?, hmode]
  | queues payload => simp [step, out?, queued?]
  | counts | served payload | queued payload | answered response => exact .refl _

/-- Where nothing is queued again, what is out was served. -/
theorem out?_of_fits {mode : Mode} {p : Progress} (h : p.Fits mode) (hmode : mode ≠ .cycle) :
    p.out? mode = p.served? := by
  cases p with
  | returns payload => exact absurd h hmode
  | served payload => exact if_neg hmode
  | takes | queues payload | counts | queued payload | answered response => rfl

/-- Where payloads are queued again, none is out of the queue when the handling is over. -/
theorem out?_of_isSome {p : Progress} (h : p.response?.isSome = true) :
    p.out? .cycle = none := by
  cases p with
  | takes | returns payload | queues payload | counts => cases h
  | served payload | queued payload | answered response => rfl

theorem out?_of_isFresh {p : Progress} (h : p.isFresh = true) (mode : Mode) :
    p.out? mode = none := by
  cases p <;> first | rfl | cases h

theorem queued?_of_isFresh {p : Progress} (h : p.isFresh = true) : p.queued? = none := by
  cases p <;> first | rfl | cases h

theorem fits_of_isFresh {p : Progress} (h : p.isFresh = true) (mode : Mode) : p.Fits mode := by
  cases p <;> trivial

/-! ### A handling that nothing comes between -/

/-- How the handling of a request ends if nothing comes between: two operations are enough. -/
def finish (s : Server) (p : Progress) : Option Response × Server :=
  let once := p.step s
  let twice := once.1.step once.2
  (twice.1.response?, twice.2)

theorem finish_answered (s : Server) (response : Response) :
    (answered response).finish s = (some response, s) := rfl

theorem finish_counts (s : Server) : counts.finish s = (some s.status, s) := rfl

theorem finish_takes_nil {s : Server} (h : s.queue.items = []) :
    takes.finish s = (some s.idle, s) := by
  rw [finish, step_takes_nil h]
  rfl

theorem finish_takes_cons {s : Server} {payload : String} {rest : List String}
    (h : s.queue.items = payload :: rest) :
    takes.finish s = (some (.text 200 payload),
      { s with queue := if s.mode = .cycle then ⟨rest ++ [payload]⟩ else ⟨rest⟩ }) := by
  rw [finish, step_takes_cons h]
  by_cases hmode : s.mode = .cycle
  · simp only [if_pos hmode]
    rfl
  · simp only [if_neg hmode]
    rfl

end Progress

/-! ### The beginning of a request -/

/-- What is sent of a response: a request for headers only gets no body. -/
def Request.sent (r : Request) (response : Response) : Response :=
  if r.method = "HEAD" then { response with body := "" } else response

@[simp] theorem Request.sent_empty (r : Request) (status : Nat) :
    r.sent (.empty status) = .empty status := by
  rw [sent]
  split <;> rfl

namespace Server
open Progress (answered takes)

/-- How the handling of a poll begins. -/
def startPoll (r : Request) : Progress :=
  if isHeadless r then answered (.empty 204) else takes

/-- How the handling of a posted poll begins. -/
def startPost (r : Request) (s : Server) : Progress :=
  match bodyText r with
  | .error refusal => answered refusal
  | .ok body => if s.isExit body then answered (.text 200 s.exitCommand) else startPoll r

/-- How the queueing of a payload begins. -/
def startEnqueue (r : Request) : Progress :=
  match bodyText r with
  | .error refusal => answered refusal
  | .ok body =>
    let payload := Text.trimmed (payloadOf r body)
    if payload = "" then answered (.text 400 "Empty payload") else .queues payload

/-- How the handling of a request at a place begins. -/
def startAt (r : Request) (p : Place) (s : Server) : Progress :=
  match p, r.method with
  | .polls, "GET" | .polls, "HEAD" => startPoll r
  | .polls, "POST" => s.startPost r
  | .enqueues, "POST" => startEnqueue r
  | .reports, "GET" | .reports, "HEAD" => .counts
  | .shows, "GET" | .shows, "HEAD" => answered (.html page)
  | p, _ => answered (.wrongMethod p.allow)

/-- How the handling of a request begins. -/
def start (r : Request) (s : Server) : Progress :=
  if r.method = "OPTIONS" then answered (.empty 200)
  else match s.place? r.place with
    | none => answered (.empty 404)
    | some p => s.startAt r p

variable {r : Request} {s : Server}

theorem isFresh_startPoll : (startPoll r).isFresh = true := by
  rw [startPoll]
  split <;> rfl

theorem isFresh_start (r : Request) (s : Server) : (s.start r).isFresh = true := by
  rw [start]
  split
  · rfl
  split
  · rfl
  rw [startAt.eq_def]
  split
  · exact isFresh_startPoll
  · exact isFresh_startPoll
  · rw [startPost]
    split
    · rfl
    · split
      · rfl
      · exact isFresh_startPoll
  · rw [startEnqueue]
    split
    · rfl
    · simp only
      split <;> rfl
  all_goals rfl

theorem finish_startPoll (r : Request) (s : Server) :
    (startPoll r).finish s = (s.poll r).map some id := by
  cases hheadless : isHeadless r with
  | true =>
    rw [startPoll, if_pos hheadless, poll_headless hheadless]
    rfl
  | false =>
    rw [startPoll, if_neg (Bool.eq_false_iff.1 hheadless)]
    cases hitems : s.queue.items with
    | nil =>
      rw [poll_nil hheadless hitems, Progress.finish_takes_nil hitems]
      rfl
    | cons payload rest =>
      rw [Progress.finish_takes_cons hitems, poll, if_neg (Bool.eq_false_iff.1 hheadless),
        Payloads.pop_of_cons hitems]
      rfl

theorem finish_startPost (r : Request) (s : Server) :
    (s.startPost r).finish s = (s.postPoll r).map some id := by
  rw [startPost]
  cases hbody : bodyText r with
  | error refusal =>
    rw [postPoll_refused hbody]
    rfl
  | ok body =>
    cases hexit : s.isExit body with
    | true =>
      simp only [hexit, if_true]
      rw [postPoll_exit hbody hexit]
      rfl
    | false =>
      simp only [hexit, Bool.false_eq_true, if_false]
      rw [postPoll_poll hbody hexit, finish_startPoll]

theorem finish_startEnqueue (r : Request) (s : Server) :
    (startEnqueue r).finish s = (s.enqueue r).map some id := by
  rw [startEnqueue]
  cases hbody : bodyText r with
  | error refusal =>
    rw [enqueue_refused hbody]
    rfl
  | ok body =>
    by_cases hblank : Text.trimmed (payloadOf r body) = ""
    · simp only [if_pos hblank]
      rw [enqueue_blank hbody hblank]
      rfl
    · simp only [if_neg hblank]
      rw [enqueue_payload hbody hblank]
      rfl

theorem finish_startAt (r : Request) (p : Place) (s : Server) :
    (s.startAt r p).finish s = (s.answer r p).map some id := by
  rw [startAt.eq_def, answer.eq_def]
  split
  · simp only [*, finish_startPoll]
  · simp only [*, finish_startPoll]
  · simp only [*, finish_startPost]
  · simp only [*, finish_startEnqueue]
  all_goals simp [*, Progress.finish_counts, Progress.finish_answered]

/-- What begins as a handling does, and goes on with nothing between, is that handling. -/
theorem finish_start (r : Request) (s : Server) :
    ((s.start r).finish s).map (Option.map r.sent) id = (s.handle r).map some id := by
  rw [start, handle]
  split
  · simp [Progress.finish_answered]
  cases s.place? r.place with
  | none => simp [Progress.finish_answered]
  | some p =>
    simp only
    rw [finish_startAt]
    rfl

end Server

/-! ### Crowds -/

/-- A request and how far its handling is. -/
structure Handler where
  request : Request
  progress : Progress

/-- The response to a request, if its handling is over. -/
def Handler.response? (h : Handler) : Option Response :=
  h.progress.response?.map h.request.sent

/-- A server and the handlers at work on it. -/
structure Crowd where
  server : Server
  handlers : List Handler

/-- What comes next: a request arrives, or a handler goes on. -/
inductive Turn where
  | arrives (r : Request)
  | advances (i : Nat)

namespace Crowd

/-- A turn; a handler that is not there does nothing. -/
def turn (c : Crowd) : Turn → Crowd
  | .arrives r => { c with handlers := c.handlers ++ [⟨r, c.server.start r⟩] }
  | .advances i =>
    match c.handlers[i]? with
    | none => c
    | some h =>
      let next := h.progress.step c.server
      ⟨next.2, c.handlers.set i ⟨h.request, next.1⟩⟩

/-- The crowd after turns. -/
def play (c : Crowd) (ts : List Turn) : Crowd :=
  ts.foldl turn c

/-- The payloads that are out of the queue. -/
def out (c : Crowd) : List String :=
  c.handlers.filterMap (·.progress.out? c.server.mode)

/-- The payloads that were served. -/
def served (c : Crowd) : List String :=
  c.handlers.filterMap (·.progress.served?)

/-- The payloads that were queued since the crowd began. -/
def queued (c : Crowd) : List String :=
  c.handlers.filterMap (·.progress.queued?)

/-- What holds of a crowd that began with a server: nothing of the server changed but its
queue, and what is queued and out are what was queued before and since. -/
structure Balanced (s : Server) (c : Crowd) : Prop where
  exists_queue : ∃ q, c.server = { s with queue := q }
  fits : ∀ h ∈ c.handlers, h.progress.Fits s.mode
  perm : (c.server.queue.items ++ c.out).Perm (s.queue.items ++ c.queued)

theorem turn_advances {c : Crowd} {i : Nat} {h : Handler} (hi : c.handlers[i]? = some h) :
    c.turn (.advances i) = ⟨(h.progress.step c.server).2,
      c.handlers.set i ⟨h.request, (h.progress.step c.server).1⟩⟩ := by
  rw [turn, hi]

theorem turn_advances_last (s : Server) (hs : List Handler) (h : Handler) :
    turn ⟨s, hs ++ [h]⟩ (.advances hs.length) =
      ⟨(h.progress.step s).2, hs ++ [⟨h.request, (h.progress.step s).1⟩]⟩ := by
  rw [turn_advances List.getElem?_concat_length, List.set_append_right _ _ (Nat.le_refl _),
    Nat.sub_self]
  rfl

variable {s : Server} {c : Crowd}

namespace Balanced

theorem mode_eq (h : c.Balanced s) : c.server.mode = s.mode := by
  obtain ⟨q, hserver⟩ := h.exists_queue
  rw [hserver]

/-- A request that arrives did nothing to the queue yet. -/
theorem arrives (hc : c.Balanced s) (r : Request) : (c.turn (.arrives r)).Balanced s := by
  have hfresh := Server.isFresh_start r c.server
  refine ⟨hc.exists_queue, ?_, ?_⟩
  · intro h hh
    rcases List.mem_append.1 hh with hh | hh
    · exact hc.fits h hh
    · obtain rfl := List.mem_singleton.1 hh
      exact Progress.fits_of_isFresh hfresh _
  · have hperm := hc.perm
    simp only [out, queued, turn, List.filterMap_append, List.filterMap_cons, List.filterMap_nil,
      Progress.out?_of_isFresh hfresh, Progress.queued?_of_isFresh hfresh,
      List.append_nil] at hperm ⊢
    exact hperm

/-- A handler that goes on moves a payload. -/
theorem advances (hc : c.Balanced s) (i : Nat) : (c.turn (.advances i)).Balanced s := by
  cases hi : c.handlers[i]? with
  | none =>
    rw [turn, hi]
    exact hc
  | some h =>
    have hmode := hc.mode_eq
    have hfits : h.progress.Fits c.server.mode := by
      rw [hmode]
      exact hc.fits h (List.mem_of_getElem? hi)
    obtain ⟨q, hserver⟩ := hc.exists_queue
    obtain ⟨q', hnext⟩ := Progress.exists_queue c.server h.progress
    have hmode' : (h.progress.step c.server).2.mode = c.server.mode := by rw [hnext]
    have hmoved := Progress.step_balance c.server hfits
    have hperm := hc.perm
    rw [turn_advances hi]
    generalize hp : h.progress.step c.server = next at hnext hmode' hmoved ⊢
    have hout := perm_filterMap_set (fun h : Handler => h.progress.out? c.server.mode) hi
      ⟨h.request, next.1⟩
    have hqueued := perm_filterMap_set (fun h : Handler => h.progress.queued?) hi
      ⟨h.request, next.1⟩
    refine ⟨⟨q', by rw [hnext, hserver]⟩, ?_, ?_⟩
    · intro g hg
      rcases List.mem_or_eq_of_mem_set hg with hg | rfl
      · exact hc.fits g hg
      · rw [← hmode, ← hp]
        exact Progress.fits_step c.server h.progress
    · -- Each payload is counted on its own: the handler's part of both sides changes alike.
      rw [List.perm_iff_count] at hmoved hperm hout hqueued ⊢
      intro payload
      specialize hmoved payload
      specialize hperm payload
      specialize hout payload
      specialize hqueued payload
      simp only [Crowd.out, Crowd.queued, hmode', List.count_append] at hmoved hperm hout hqueued ⊢
      omega

theorem turn (hc : c.Balanced s) : (t : Turn) → (c.turn t).Balanced s
  | .arrives r => hc.arrives r
  | .advances i => hc.advances i

theorem play (hc : c.Balanced s) (ts : List Turn) : (c.play ts).Balanced s := by
  induction ts generalizing c with
  | nil => exact hc
  | cons t ts ih => exact ih (hc.turn t)

end Balanced

theorem balanced_play (s : Server) (ts : List Turn) : (play ⟨s, []⟩ ts).Balanced s :=
  Balanced.play ⟨⟨s.queue, rfl⟩, List.forall_mem_nil _, .refl _⟩ ts

/-- A request that nothing comes between is answered as it is on its own. -/
theorem play_arrives (c : Crowd) (r : Request) :
    let n := c.handlers.length
    let d := c.play [.arrives r, .advances n, .advances n]
    d.server = (c.server.handle r).2 ∧
      d.handlers[n]?.bind Handler.response? = some (c.server.handle r).1 := by
  intro n d
  let once := (c.server.start r).step c.server
  let twice := once.1.step once.2
  have hd : d = ⟨twice.2, c.handlers ++ [⟨r, twice.1⟩]⟩ := by
    show ((c.turn (.arrives r)).turn (.advances n)).turn (.advances n) = _
    rw [turn, turn_advances_last, turn_advances_last]
  have hfinish := Server.finish_start r c.server
  rw [hd, List.getElem?_concat_length]
  exact ⟨congrArg Prod.snd hfinish, congrArg Prod.fst hfinish⟩

end Crowd

namespace Server

/-- **No payload is lost or served twice, whatever turns handlers take.** At every moment what
is queued and what is out of the queue, for good or until it is queued again, are what was
queued before and since. So a server that does not cycle serves no payload to two polls, and
one that cycles has all of them queued when every request is answered. A request that nothing
comes between is handled as it is on its own. -/
theorem conserved (s : Server) (ts : List Turn) :
    let c := Crowd.play ⟨s, []⟩ ts
    (c.server.queue.items ++ c.out).Perm (s.queue.items ++ c.queued) ∧
      (s.mode ≠ .cycle →
        c.out = c.served ∧ ((s.queue.items ++ c.queued).Nodup → c.served.Nodup)) ∧
      (s.mode = .cycle → (∀ h ∈ c.handlers, h.response?.isSome) →
        c.server.queue.items.Perm (s.queue.items ++ c.queued)) ∧
      ∀ r, let n := c.handlers.length
        let d := c.play [.arrives r, .advances n, .advances n]
        d.server = (c.server.handle r).2 ∧
          d.handlers[n]?.bind Handler.response? = some (c.server.handle r).1 := by
  intro c
  have hc : c.Balanced s := Crowd.balanced_play s ts
  refine ⟨hc.perm, ?_, ?_, c.play_arrives⟩
  · intro hmode
    have hserved : c.out = c.served := by
      refine List.filterMap_congr fun h hh => ?_
      rw [hc.mode_eq, Progress.out?_of_fits (hc.fits h hh) hmode]
    refine ⟨hserved, fun hnodup => ?_⟩
    rw [← hserved]
    exact (List.nodup_append.1 (hc.perm.nodup_iff.2 hnodup)).2.1
  · intro hmode hover
    have hout : c.out = [] := by
      refine List.filterMap_eq_nil_iff.2 fun h hh => ?_
      have hanswered := hover h hh
      rw [Handler.response?, Option.isSome_map] at hanswered
      rw [hc.mode_eq, hmode, Progress.out?_of_isSome hanswered]
    have hperm := hc.perm
    rwa [hout, List.append_nil] at hperm

/-- Two polls and a payload arrive. The first poll takes what is queued, the second finds
nothing, the payload is queued, and the first poll goes on. -/
def doorTurns : List Turn :=
  [.arrives ⟨"GET", "/next", [], []⟩, .arrives ⟨"GET", "/next", [], []⟩,
    .arrives ⟨"POST", "/enqueue", [], Text.Utf8.encode "close"⟩,
    .advances 0, .advances 1, .advances 2, .advances 0]

/-- The server with one payload, but cycling. -/
def cyclingDoor : Server :=
  { doorServer with mode := .cycle }

/-- Where payloads cycle both are queued in the end, and else one of them is served once. -/
theorem conserved_doorTurns :
    let drained := Crowd.play ⟨doorServer, []⟩ doorTurns
    let cycled := Crowd.play ⟨cyclingDoor, []⟩ doorTurns
    doorServer.mode ≠ .cycle ∧ (doorServer.queue.items ++ drained.queued).Nodup ∧
      drained.served = ["open"] ∧ drained.served.Nodup ∧ cyclingDoor.mode = .cycle ∧
      (∀ h ∈ cycled.handlers, h.response?.isSome) ∧
      cycled.server.queue.items = ["close", "open"] ∧
      cycled.server.queue.items.Perm ["open", "close"] := by
  intro drained cycled
  have hmode : doorServer.mode ≠ .cycle := by decide
  have hnodup : (doorServer.queue.items ++ drained.queued).Nodup := by decide +kernel
  have hover : ∀ h ∈ cycled.handlers, h.response?.isSome := by decide +kernel
  have hqueued : cyclingDoor.queue.items ++ cycled.queued = ["open", "close"] := by decide +kernel
  have hperm := (conserved cyclingDoor doorTurns).2.2.1 rfl hover
  rw [hqueued] at hperm
  exact ⟨hmode, hnodup, by decide +kernel, ((conserved doorServer doorTurns).2.1 hmode).2 hnodup,
    rfl, hover, by decide +kernel, hperm⟩

end Server
end UiSuite.Queue
