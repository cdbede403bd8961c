import UiSuite.Interactive.Session
import UiSuite.Proofs.Lists

/-! What a session makes of the outcomes of its polls.

A visit is an outcome and the session it came to; `visits` are the outcomes of a session up
to the one that ends it. There are six things a session can make of a visit (`Response`),
and `take_eq` says what each of them does. Polling a source is visiting its outcomes, and
after the last visit nothing is fetched (`poll_eq`). -/
namespace UiSuite

open Report (Entry)

/-- The outcomes of so many polls of a source. -/
def Source.outcomes {τ : Type} [Source τ] : Nat → τ → List Poll
  | 0, _ => []
  | n + 1, t => (Source.fetch t).1 :: outcomes n (Source.fetch t).2

/-- A source after so many polls. -/
def Source.polled {τ : Type} [Source τ] : Nat → τ → τ
  | 0, t => t
  | n + 1, t => polled n (Source.fetch t).2

/-- An outcome of a poll, and the session it came to. -/
structure Visit (σ : Type) where
  outcome : Poll
  session : Session σ

/-- What a session makes of an outcome. -/
inductive Response where
  /-- Too many errors in a row. -/
  | giveUp
  /-- An error, but not too many. -/
  | retry
  /-- No payload. -/
  | pass
  /-- The exit command. -/
  | exit
  /-- A payload that is no suite. -/
  | complain (e : DecodeError)
  /-- A suite. -/
  | run (suite : Suite)

/-- Whether a response ends the session. -/
def Response.isLast : Response → Bool
  | giveUp | exit => true
  | retry | pass | complain _ | run _ => false

namespace Visit
variable {σ : Type} (config : Config) (name : String)

/-- What the session makes of the outcome. -/
def response (v : Visit σ) : Response :=
  match v.outcome with
  | .error _ =>
    if config.polling.maxErrors.any (· ≤ v.session.errors + 1) then .giveUp else .retry
  | .ok .empty | .ok (.status _) => .pass
  | .ok (.body text) =>
    if Session.isExit config.polling.exitCommand text then .exit
    else match Session.decode name (v.session.received + 1) (Text.trimmed text) with
      | .ok suite => .run suite
      | .error e => .complain e

variable [Surface σ]

/-- The session after the outcome. -/
def after (v : Visit σ) : Session σ :=
  let s := v.session
  match v.response config name with
  | .giveUp => { s with errors := s.errors + 1 }
  | .retry => { s with errors := s.errors + 1 }.pause config.polling
  | .pass => { s with errors := 0 }.pause config.polling
  | .exit => { s with errors := 0 }
  | .complain e =>
    { s with errors := 0, entries := s.entries ++ [Session.complaint e] }.pause config.polling
  | .run suite => { s with errors := 0 }.runSuite config suite

/-- Whether the session ends with the outcome. -/
def isLast (v : Visit σ) : Bool :=
  (v.response config name).isLast

/-- A session does with an outcome what it makes of it. -/
theorem take_eq (v : Visit σ) :
    v.session.take config name v.outcome = (v.after config name, v.isLast config name) := by
  obtain ⟨outcome, s⟩ := v
  match outcome with
  | .error e =>
    simp only [Session.take, Session.countError, after, isLast, response]
    split <;> rfl
  | .ok .empty => rfl
  | .ok (.status code) => rfl
  | .ok (.body text) =>
    simp only [Session.take, Session.takeBody, after, isLast, response]
    by_cases hexit : Session.isExit config.polling.exitCommand text
    · simp only [if_pos hexit]
      rfl
    · simp only [if_neg hexit]
      generalize Session.decode name (s.received + 1) (Text.trimmed text) = r
      cases r <;> rfl

end Visit

section
variable {σ : Type} [Surface σ] (config : Config) (name : String)

/-- The outcomes of a session, up to the one that ends it. -/
def visits : List Poll → Session σ → List (Visit σ)
  | [], _ => []
  | p :: rest, s =>
    let v : Visit σ := ⟨p, s⟩
    if v.isLast config name then [v] else v :: visits rest (v.after config name)

/-- Whether outcomes bring a session to its end. -/
def isEnded (polls : List Poll) (s : Session σ) : Bool :=
  (visits config name polls s).any (Visit.isLast config name)

/-- The session after visits. -/
def sessionAfter (s : Session σ) (vs : List (Visit σ)) : Session σ :=
  vs.foldl (fun _ v => v.after config name) s

/-- A session visits its outcomes in order. -/
theorem map_outcome_visits (polls : List Poll) (s : Session σ) :
    (visits config name polls s).map (·.outcome) <+: polls := by
  induction polls generalizing s with
  | nil => exact List.prefix_rfl
  | cons p rest ih =>
    rw [visits]
    split
    · exact ⟨rest, rfl⟩
    · exact List.cons_prefix_cons.2 ⟨rfl, ih _⟩

/-- No visit but the last ends the session. -/
theorem isLast_of_mem_dropLast {polls : List Poll} {s : Session σ} {v : Visit σ}
    (hv : v ∈ (visits config name polls s).dropLast) : v.isLast config name = false := by
  induction polls generalizing s with
  | nil => cases hv
  | cons p rest ih =>
    rw [visits] at hv
    cases hlast : Visit.isLast config name ⟨p, s⟩ with
    | true =>
      rw [if_pos hlast] at hv
      cases hv
    | false =>
      rw [if_neg (by rw [hlast]; exact Bool.false_ne_true)] at hv
      rcases eq_or_mem_dropLast hv with rfl | hv
      · exact hlast
      · exact ih hv

/-- What comes after the end is not visited. -/
theorem visits_append {polls : List Poll} {s : Session σ} (h : isEnded config name polls s)
    (more : List Poll) :
    visits config name (polls ++ more) s = visits config name polls s := by
  induction polls generalizing s with
  | nil => cases h
  | cons p rest ih =>
    rw [isEnded, visits] at h
    rw [List.cons_append, visits, visits]
    split
    · rfl
    · rename_i hlast
      rw [if_neg hlast, List.any_cons, Bool.or_eq_true] at h
      rw [ih (h.resolve_left hlast)]

/-- **Polling a source is visiting its outcomes.** With the last visit the session is
finished, and the source is polled no more. -/
theorem Session.poll_eq {τ : Type} [Source τ]
    (hname : ∀ t : τ, Source.name (Source.fetch t).2 = Source.name t) (n : Nat) (s : Session σ)
    (t : τ) :
    poll config n s t =
      let vs := visits config (Source.name t) (Source.outcomes n t) s
      let s' := sessionAfter config (Source.name t) s vs
      (if isEnded config (Source.name t) (Source.outcomes n t) s then s'.finish else s',
        Source.polled vs.length t) := by
  induction n generalizing s t with
  | zero => rfl
  | succ n ih =>
    rw [poll, Source.outcomes, isEnded, visits]
    simp only [Visit.take_eq config (Source.name t) ⟨(Source.fetch t).1, s⟩]
    cases hlast : Visit.isLast config (Source.name t) ⟨(Source.fetch t).1, s⟩ with
    | true => simp [hlast, sessionAfter, Source.polled]
    | false =>
      simp only [ih, hname]
      simp [hlast, sessionAfter, Source.polled, isEnded]

end
end UiSuite
