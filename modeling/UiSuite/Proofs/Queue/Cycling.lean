import Mathlib.Data.List.Forall2
import Mathlib.Data.List.Rotate
import UiSuite.Proofs.Queue.Concurrency
import UiSuite.Proofs.Queue.Ignoring

/-! Payloads that go round.

A server that cycles serves the first payload and puts it last. A request takes a turn if it gets
the next payload (`Exchange.isTurn`); any other leaves the queue as it is but for what it adds at
the end (`Exchange.Turns`). So with every turn what has not been served comes one place forward,
whatever is queued meanwhile (`Server.drop_prefix_of_turns`), and turns alone rotate the queue
(`Server.items_handleAll`). A poll for headers only takes its turn. -/
namespace UiSuite.Queue

/-- A server that cycles puts the payload last that it serves. -/
theorem Server.poll_cycle {r : Request} {s : Server} (h : isHeadless r = false)
    (hmode : s.mode = .cycle) {payload : String} {rest : List String}
    (hitems : s.queue.items = payload :: rest) :
    s.poll r = (.text 200 payload, { s with queue := ⟨rest ++ [payload]⟩ }) := by
  rw [poll, if_neg (by simp [h]), Payloads.pop_of_cons hitems]
  simp only [if_pos hmode]
  rfl

namespace Exchange
open Server (isHeadless bodyText)

variable {x : Exchange}

/-- Whether a request takes a turn: it asks for the next payload, or for its headers only, not as a
headless browser, and not with the exit command or with a body that is refused. -/
def isTurn (x : Exchange) : Bool :=
  (x.isAt .polls "GET" || x.isAt .polls "HEAD" || x.posts fun body => !x.before.isExit body) &&
    !x.request.namesHeadless

/-- What an exchange with a server that cycles does. -/
inductive Turns (x : Exchange) : Prop
  /-- The first payload is served and is the last one then. -/
  | serves {payload : String} {rest : List String} (hturn : x.isTurn = true)
      (hitems : x.before.queue.items = payload :: rest)
      (hresponse : x.response = x.request.sent (.text 200 payload))
      (hafter : x.after = { x.before with queue := ⟨rest ++ [payload]⟩ })
  /-- There is no payload to serve. -/
  | idles (hturn : x.isTurn = true) (hitems : x.before.queue.items = [])
      (hafter : x.after = x.before)
  /-- Nobody takes a turn, and a payload may be queued. -/
  | grows (hturn : x.isTurn = false)
      (hafter : x.after = { x.before with
        queue := ⟨x.before.queue.items ++ x.enqueued?.toList⟩ })

/-! ### Single exchanges -/

theorem handle_of_head (h : x.isAt .polls "HEAD" = true) :
    x.before.handle x.request =
      (x.request.sent (x.before.poll x.request).1, (x.before.poll x.request).2) := by
  obtain ⟨hplace, hmethod⟩ := isAt_iff.1 h
  have hoptions : x.request.method ≠ "OPTIONS" := by simp [hmethod]
  rw [Server.handle, if_neg hoptions, hplace]
  simp only [Server.answer, hmethod, if_true]
  rw [Request.sent, if_pos hmethod]

theorem sent_of_isAt {p : Server.Place} {method : String} (h : x.isAt p method = true)
    (hmethod : method ≠ "HEAD") (response : Response) : x.request.sent response = response := by
  rw [Request.sent, (isAt_iff.1 h).2, if_neg hmethod]

theorem enqueued?_eq_none (h : x.isAt .enqueues "POST" = false) : x.enqueued? = none := by
  simp [enqueued?, h]

/-- A server that stays as it is grows by nothing. -/
theorem turns_of_keeps (hturn : x.isTurn = false) (henqueued : x.enqueued? = none)
    (hafter : x.after = x.before) : x.Turns := by
  refine .grows hturn ?_
  rw [hafter, henqueued, Option.toList_none, List.append_nil]

/-- What the queue answers is a turn, unless a headless browser asks. -/
theorem turns_of_poll (hmode : x.before.mode = .cycle) (hturn : x.isTurn = !isHeadless x.request)
    (henqueues : x.isAt .enqueues "POST" = false)
    (hhandle : x.before.handle x.request =
      (x.request.sent (x.before.poll x.request).1, (x.before.poll x.request).2)) : x.Turns := by
  cases hheadless : isHeadless x.request with
  | true =>
    rw [Server.poll_headless hheadless] at hhandle
    exact turns_of_keeps (by rw [hturn, hheadless]; rfl) (enqueued?_eq_none henqueues)
      (congrArg Prod.snd hhandle)
  | false =>
    rw [hheadless] at hturn
    cases hitems : x.before.queue.items with
    | nil =>
      rw [Server.poll_nil hheadless hitems] at hhandle
      exact .idles hturn hitems (congrArg Prod.snd hhandle)
    | cons payload rest =>
      rw [Server.poll_cycle hheadless hmode hitems] at hhandle
      exact .serves hturn hitems (congrArg Prod.fst hhandle) (congrArg Prod.snd hhandle)

theorem turns_of_post (hmode : x.before.mode = .cycle)
    (hnames : isHeadless x.request = x.request.namesHeadless) (h : x.isAt .polls "POST" = true) :
    x.Turns := by
  have hpost := handle_of_post h
  have hget : x.isAt .polls "GET" = false := isAt_of_isAt h _ _
  have hhead : x.isAt .polls "HEAD" = false := isAt_of_isAt h _ _
  have henqueues : x.isAt .enqueues "POST" = false := isAt_of_isAt h _ _
  cases hbody : bodyText x.request with
  | error refusal =>
    rw [Server.postPoll_refused hbody] at hpost
    refine turns_of_keeps ?_ (enqueued?_eq_none henqueues) (congrArg Prod.snd hpost)
    simp [isTurn, posts, hget, hhead, h, hbody, Except.toOption]
  | ok body =>
    cases hexit : x.before.isExit body with
    | true =>
      rw [Server.postPoll_exit hbody hexit] at hpost
      refine turns_of_keeps ?_ (enqueued?_eq_none henqueues) (congrArg Prod.snd hpost)
      simp [isTurn, posts, hget, hhead, h, hbody, hexit, Except.toOption]
    | false =>
      rw [Server.postPoll_poll hbody hexit] at hpost
      refine turns_of_poll hmode ?_ henqueues ?_
      · simp [isTurn, posts, hget, hhead, h, hbody, hexit, Except.toOption, hnames]
      · rw [hpost, sent_of_isAt h (by decide)]

theorem turns_of_enqueue (h : x.isAt .enqueues "POST" = true) : x.Turns := by
  have hdeals := deals_of_enqueue h
  obtain ⟨q, hafter⟩ := hdeals.exists_queue
  have hserved : x.served? = none := by simp [served?, isPoll, posts, isAt_of_isAt h]
  have hitems := hdeals.served_append
  rw [hserved, Option.toList_none, List.nil_append, hafter] at hitems
  refine .grows ?_ ?_
  · simp [isTurn, posts, isAt_of_isAt h]
  · rw [hafter, ← hitems]

/-- **What a request can do to a server that cycles.** -/
theorem turns_of_cycle (hmode : x.before.mode = .cycle)
    (hagent : x.request.namesHeadless = true → x.request.isLegible = true) : x.Turns := by
  have hnames := Server.isHeadless_eq hagent
  cases hget : x.isAt .polls "GET" with
  | true =>
    refine turns_of_poll hmode ?_ (isAt_of_isAt hget _ _) ?_
    · simp [isTurn, hget, hnames]
    · rw [handle_of_get hget, sent_of_isAt hget (by decide)]
  | false =>
    cases hhead : x.isAt .polls "HEAD" with
    | true =>
      refine turns_of_poll hmode ?_ (isAt_of_isAt hhead _ _) (handle_of_head hhead)
      simp [isTurn, hhead, hnames]
    | false =>
      cases hpost : x.isAt .polls "POST" with
      | true => exact turns_of_post hmode hnames hpost
      | false =>
        cases henqueue : x.isAt .enqueues "POST" with
        | true => exact turns_of_enqueue henqueue
        | false =>
          refine turns_of_keeps ?_ (enqueued?_eq_none henqueue)
            (after_eq_before hget hhead hpost henqueue)
          simp [isTurn, posts, hget, hhead, hpost]

namespace Turns

theorem mode_eq (h : x.Turns) : x.after.mode = x.before.mode := by
  cases h with
  | serves _ _ _ hafter => rw [hafter]
  | idles _ _ hafter => rw [hafter]
  | grows _ hafter => rw [hafter]

/-- No exchange makes the queue shorter. -/
theorem length_le (h : x.Turns) : x.before.queue.items.length ≤ x.after.queue.items.length := by
  cases h with
  | serves _ hitems _ hafter => simp [hitems, hafter]
  | idles _ _ hafter => rw [hafter]
  | grows _ hafter => simp [hafter]

/-- A turn serves the first payload, which is the last one then. -/
theorem served (h : x.Turns) (hturn : x.isTurn = true) {payload : String} {rest : List String}
    (hfirst : x.before.queue.items = payload :: rest) :
    x.response = x.request.sent (.text 200 payload) ∧
      x.after.queue.items = rest ++ [payload] := by
  cases h with
  | serves _ hitems hresponse hafter =>
    obtain ⟨rfl, rfl⟩ := List.cons.inj (hitems.symm.trans hfirst)
    exact ⟨hresponse, by rw [hafter]⟩
  | idles _ hitems _ =>
    rw [hitems] at hfirst
    cases hfirst
  | grows hnot _ =>
    rw [hnot] at hturn
    cases hturn

end Turns
end Exchange

/-! ### Requests one after the other -/

namespace Server
open Exchange (Turns)

/-- The exchanges that take a turn. -/
def turns (s : Server) (rs : List Request) : List Exchange :=
  (s.exchanges rs).filter (·.isTurn)

theorem turns_cons (s : Server) (r : Request) (rest : List Request) :
    s.turns (r :: rest) =
      if Exchange.isTurn ⟨r, s⟩ then ⟨r, s⟩ :: (s.handle r).2.turns rest
      else (s.handle r).2.turns rest :=
  List.filter_cons

theorem turns_of_mem_exchanges {s : Server} (hmode : s.mode = .cycle) {rs : List Request}
    (hagents : ∀ r ∈ rs, r.namesHeadless = true → r.isLegible = true) :
    ∀ x ∈ s.exchanges rs, x.Turns := by
  induction rs generalizing s with
  | nil => exact nofun
  | cons r rest ih =>
    obtain ⟨hfirst, hrest⟩ := List.forall_mem_cons.1 hagents
    have hturns : Turns ⟨r, s⟩ := Exchange.turns_of_cycle hmode hfirst
    exact List.forall_mem_cons.2 ⟨hturns, ih (hturns.mode_eq.trans hmode) hrest⟩

/-- What an exchange does to the queue: with a turn the first payload is the last one then, if there
is any, and without one the queue grows by what is queued. -/
theorem items_of_turns {s : Server} {r : Request} (h : Turns ⟨r, s⟩) :
    (Exchange.isTurn ⟨r, s⟩ = true ∧ ∃ payload rest, s.queue.items = payload :: rest ∧
        (s.handle r).2.queue.items = rest ++ [payload]) ∨
      (Exchange.isTurn ⟨r, s⟩ = true ∧ s.queue.items = [] ∧ (s.handle r).2.queue.items = []) ∨
      (Exchange.isTurn ⟨r, s⟩ = false ∧
        (s.handle r).2.queue.items = s.queue.items ++ (Exchange.enqueued? ⟨r, s⟩).toList) := by
  cases h with
  | serves hturn hitems _ hafter =>
    exact .inl ⟨hturn, _, _, hitems, congrArg (·.queue.items) hafter⟩
  | idles hturn hitems hafter =>
    exact .inr (.inl ⟨hturn, hitems, (congrArg (·.queue.items) hafter).trans hitems⟩)
  | grows hturn hafter =>
    exact .inr (.inr ⟨hturn, congrArg (·.queue.items) hafter⟩)

/-- **With every turn the payloads come one place forward**: before a turn with `k` turns before
it, what stood in the queue after its first `k` payloads stands first. -/
theorem drop_prefix_of_turns {s : Server} {rs : List Request} (h : ∀ x ∈ s.exchanges rs, x.Turns)
    {k : Nat} {x : Exchange} (hx : (s.turns rs)[k]? = some x) :
    s.queue.items.drop k <+: x.before.queue.items := by
  induction rs generalizing s k with
  | nil => cases hx
  | cons r rest ih =>
    obtain ⟨hfirst, hrest⟩ := List.forall_mem_cons.1 h
    rw [turns_cons] at hx
    rcases items_of_turns hfirst with
      ⟨hturn, payload, later, hitems, hafter⟩ | ⟨hturn, hitems, -⟩ | ⟨hturn, hafter⟩
    · rw [if_pos hturn] at hx
      cases k with
      | zero =>
        obtain rfl := Option.some.inj hx
        exact List.prefix_rfl
      | succ k =>
        have hforward := ih hrest hx
        rw [hafter] at hforward
        rw [hitems, List.drop_succ_cons]
        exact ((List.prefix_append later [payload]).drop k).trans hforward
    · rw [hitems, List.drop_nil]
      exact List.nil_prefix
    · rw [if_neg (by simp [hturn])] at hx
      have hforward := ih hrest hx
      rw [hafter] at hforward
      exact ((List.prefix_append s.queue.items _).drop k).trans hforward

/-- Where nothing is queued, turns rotate the queue. -/
theorem items_handleAll {s : Server} {rs : List Request} (h : ∀ x ∈ s.exchanges rs, x.Turns)
    (hnone : ∀ x ∈ s.exchanges rs, x.enqueued? = none) :
    (s.handleAll rs).queue.items = s.queue.items.rotate (s.turns rs).length := by
  induction rs generalizing s with
  | nil => exact (List.rotate_zero _).symm
  | cons r rest ih =>
    obtain ⟨hfirst, hrest⟩ := List.forall_mem_cons.1 h
    obtain ⟨hnothing, hnone⟩ := List.forall_mem_cons.1 hnone
    have hall : (s.handleAll (r :: rest)).queue.items = _ := ih hrest hnone
    rw [hall, turns_cons]
    rcases items_of_turns hfirst with
      ⟨hturn, payload, later, hitems, hafter⟩ | ⟨hturn, hitems, hafter⟩ | ⟨hturn, hafter⟩
    · rw [if_pos hturn, hafter, hitems, List.length_cons, List.rotate_cons_succ]
    · rw [hafter, hitems, List.rotate_nil, List.rotate_nil]
    · rw [if_neg (by simp [hturn]), hafter, hnothing, Option.toList_none, List.append_nil]

/-! ### A payload in the queue -/

section Payload
variable {s : Server} {rs : List Request} {j : Nat} {payload : String} {x : Exchange}

/-- A payload stands as many places further forward as turns were taken. -/
theorem getElem?_of_turns (h : ∀ x ∈ s.exchanges rs, x.Turns)
    (hj : s.queue.items[j]? = some payload) {k : Nat} (hk : k ≤ j)
    (hx : (s.turns rs)[k]? = some x) : x.before.queue.items[j - k]? = some payload := by
  have hdrop : (s.queue.items.drop k)[j - k]? = some payload := by
    rw [List.getElem?_drop, Nat.add_sub_cancel' hk, hj]
  obtain ⟨further, hitems⟩ := drop_prefix_of_turns h hx
  rw [← hitems, List.getElem?_append_left (List.getElem?_eq_some_iff.1 hdrop).1, hdrop]

/-- A payload with `j` payloads before it is served with the turn that has `j` turns before it. -/
theorem served_of_turns (h : ∀ x ∈ s.exchanges rs, x.Turns)
    (hj : s.queue.items[j]? = some payload) (hx : (s.turns rs)[j]? = some x) :
    x.response = x.request.sent (.text 200 payload) ∧
      x.after.queue.items.getLast? = some payload := by
  have hfirst := getElem?_of_turns h hj (Nat.le_refl j) hx
  rw [Nat.sub_self, ← List.head?_eq_getElem?] at hfirst
  obtain ⟨rest, hitems⟩ := List.head?_eq_some_iff.1 hfirst
  obtain ⟨hmem, hturn⟩ := List.mem_filter.1 (List.mem_of_getElem? hx)
  obtain ⟨hresponse, hafter⟩ := (h x hmem).served hturn hitems
  exact ⟨hresponse, by rw [hafter, List.getLast?_concat]⟩

end Payload

/-- **Payloads go round**, if the server cycles and the name of a headless browser is only in user
agents that can be read. The queue never gets shorter. A turn is answered with the first payload,
or with the head of that answer, and the payload is the last one then. So a payload comes one place
forward with every turn and is served when it is first, however many are queued meanwhile; and
where none are, as many turns as there are payloads serve each of them in order, and the queue is
what it was. -/
theorem payloads_go_round (s : Server) (hmode : s.mode = .cycle) (rs : List Request)
    (hagents : ∀ r ∈ rs, r.namesHeadless = true → r.isLegible = true) :
    let xs := s.exchanges rs
    let turns := s.turns rs
    (∀ x ∈ xs, x.before.queue.items.length ≤ x.after.queue.items.length) ∧
      (∀ x ∈ turns, ∀ payload rest, x.before.queue.items = payload :: rest →
        x.response = x.request.sent (.text 200 payload) ∧
          x.after.queue.items = rest ++ [payload]) ∧
      (∀ (j : Nat) (payload : String), s.queue.items[j]? = some payload →
        (∀ k x, k ≤ j → turns[k]? = some x → x.before.queue.items[j - k]? = some payload) ∧
          ∀ x, turns[j]? = some x → x.response = x.request.sent (.text 200 payload) ∧
            x.after.queue.items.getLast? = some payload) ∧
      ((∀ x ∈ xs, x.enqueued? = none) → turns.length = s.queue.items.length →
        List.Forall₂ (fun x payload => x.response = x.request.sent (.text 200 payload)) turns
            s.queue.items ∧
          (s.handleAll rs).queue.items = s.queue.items) := by
  intro xs turns
  have hturns : ∀ x ∈ xs, x.Turns := turns_of_mem_exchanges hmode hagents
  refine ⟨fun x hx => (hturns x hx).length_le, ?_, ?_, fun hnone hlength => ⟨?_, ?_⟩⟩
  · intro x hx payload rest hitems
    obtain ⟨hmem, hturn⟩ := List.mem_filter.1 hx
    exact (hturns x hmem).served hturn hitems
  · intro j payload hj
    exact ⟨fun k x hk hx => getElem?_of_turns hturns hj hk hx,
      fun x hx => served_of_turns hturns hj hx⟩
  · refine List.forall₂_iff_get.2 ⟨hlength, fun i hi hj => ?_⟩
    exact (served_of_turns hturns (List.getElem?_eq_getElem hj) (List.getElem?_eq_getElem hi)).1
  · rw [items_handleAll hturns hnone, hlength, List.rotate_length]

/-- A server with three payloads that go round, two of them alike. -/
def roundServer : Server :=
  ⟨"/next", .cycle, "exit", ⟨["a", "b", "a"]⟩⟩

/-- Three turns, with a payload and a headless browser between them. -/
def mixedRound : List Request :=
  [⟨"GET", "/next", [], []⟩, ⟨"POST", "/enqueue", [], Text.Utf8.encode "c"⟩,
    ⟨"GET", "/next", [("user-agent", "HeadlessChrome/120.0")], []⟩,
    ⟨"POST", "/next", [], Text.Utf8.encode "more"⟩, ⟨"GET", "/next?now", [], []⟩]

/-- Three turns, the last one for headers only. -/
def plainRound : List Request :=
  [⟨"POST", "/next", [], []⟩, ⟨"GET", "/next", [], []⟩, ⟨"HEAD", "/next", [], []⟩]

/-- The third turn serves the third payload, and three turns alone restore the queue. -/
theorem payloads_go_round_thrice :
    let turns := roundServer.turns mixedRound
    roundServer.mode = .cycle ∧
      (∀ r ∈ mixedRound ++ plainRound, r.namesHeadless = true → r.isLegible = true) ∧
      roundServer.queue.items[2]? = some "a" ∧
      (∃ x, turns[2]? = some x ∧ x.response = x.request.sent (.text 200 "a") ∧
        x.after.queue.items.getLast? = some "a") ∧
      (∀ x ∈ roundServer.exchanges plainRound, x.enqueued? = none) ∧
      (roundServer.turns plainRound).length = 3 ∧
      (roundServer.handleAll plainRound).queue.items = ["a", "b", "a"] := by
  intro turns
  have hagents : ∀ r ∈ mixedRound ++ plainRound, r.namesHeadless = true → r.isLegible = true := by
    decide +kernel
  obtain ⟨hmixed, hplain⟩ := List.forall_mem_append.1 hagents
  have hthird : 2 < turns.length := by decide +kernel
  have hnone : ∀ x ∈ roundServer.exchanges plainRound, x.enqueued? = none := by decide +kernel
  have hlength : (roundServer.turns plainRound).length = 3 := by decide +kernel
  obtain ⟨-, -, hserved, -⟩ := payloads_go_round roundServer rfl mixedRound hmixed
  obtain ⟨-, -, -, hround⟩ := payloads_go_round roundServer rfl plainRound hplain
  have hfound := List.getElem?_eq_getElem hthird
  exact ⟨rfl, hagents, rfl, ⟨_, hfound, (hserved 2 "a" rfl).2 _ hfound⟩, hnone, hlength,
    (hround hnone hlength).2⟩

/-- A poll that posts no text or too long a one gets no payload. One for headers only and one of a
headless browser whose name cannot be read take the turn of the next one. -/
theorem payloads_withheld :
    let garbled : Exchange := ⟨⟨"POST", "/next", [], [0xFF]⟩, roundServer⟩
    let flooding : Exchange :=
      ⟨⟨"POST", "/next", [], List.replicate (bodyLimit + 1) 0x61⟩, roundServer⟩
    let headed : Request := ⟨"HEAD", "/next", [], []⟩
    let accented : Request := ⟨"GET", "/next", [("user-agent", "é HeadlessChrome/120.0")], []⟩
    let got : Request := ⟨"GET", "/next", [], []⟩
    (∀ x ∈ [garbled, flooding], x.isAt .polls "POST" = true ∧
      x.request.namesHeadless = false ∧ x.posts roundServer.isExit = false) ∧
      garbled.response.status = 400 ∧ flooding.response.status = 413 ∧
      (roundServer.handle headed).1.body = "" ∧
      ((roundServer.handle headed).2.handle got).1 = .text 200 "b" ∧
      accented.namesHeadless = true ∧
      ((roundServer.handle accented).2.handle got).1 = .text 200 "b" := by
  intro garbled flooding headed accented got
  have hat : flooding.isAt .polls "POST" = true := by decide +kernel
  have hlong : bodyLimit < flooding.request.body.length := by
    rw [List.length_replicate]
    exact Nat.lt_succ_self _
  have hrefused := bodyText_of_lt hlong
  have hposts : flooding.posts roundServer.isExit = false := by
    rw [Exchange.posts, hrefused]
    exact Bool.and_false _
  have hstatus : flooding.response.status = 413 := by
    rw [Exchange.response, Exchange.handle_of_post hat, postPoll_refused hrefused]
    rfl
  have hgarbled : garbled.isAt .polls "POST" = true ∧
      garbled.request.namesHeadless = false ∧ garbled.posts roundServer.isExit = false := by
    decide +kernel
  refine ⟨List.forall_mem_cons.2 ⟨hgarbled, List.forall_mem_singleton.2 ⟨hat, ?_, hposts⟩⟩, ?_,
    hstatus, ?_⟩
  · decide
  · decide +kernel
  · decide +kernel

end Server
end UiSuite.Queue
