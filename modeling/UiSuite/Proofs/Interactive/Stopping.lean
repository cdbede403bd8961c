import UiSuite.Proofs.Interactive.Draining

/-! Where a session stops.

A session counts the errors at the end of what its polls have brought (`Visit.errors_after`), so
what has come so far decides whether it goes on (`Visit.isLast_iff_ends`): it ends with an exit
command, or with errors that are too many in a row (`Polling.Ends`). The first outcome with which
it ends is the last that is fetched (`Session.poll_stops`). -/
namespace UiSuite

/-! ### Errors in a row -/

/-- Whether the outcome of a poll is an error. -/
def Poll.isError : Poll → Bool
  | .error _ => true
  | .ok _ => false

/-- How many of the last outcomes are errors, up to the last that is none. -/
def errorsInRow (polls : List Poll) : Nat :=
  (polls.reverse.takeWhile Poll.isError).length

theorem errorsInRow_append_error (polls : List Poll) (e : String) :
    errorsInRow (polls ++ [.error e]) = errorsInRow polls + 1 := by
  rw [errorsInRow, List.reverse_concat', List.takeWhile_cons_of_pos rfl, List.length_cons, errorsInRow]

theorem errorsInRow_append_ok (polls : List Poll) (f : Fetch) :
    errorsInRow (polls ++ [.ok f]) = 0 := by
  rw [errorsInRow, List.reverse_concat', List.takeWhile_cons_of_neg Bool.false_ne_true]
  rfl

/-- There are so many errors in a row if the last outcomes are so many errors. -/
theorem le_errorsInRow_iff {n : Nat} {polls : List Poll} :
    n ≤ errorsInRow polls ↔
      ∃ before, ∃ texts : List String, polls = before ++ texts.map .error ∧ texts.length = n := by
  constructor
  · intro h
    induction n generalizing polls with
    | zero => exact ⟨polls, [], (List.append_nil polls).symm, rfl⟩
    | succ n ih =>
      rcases List.eq_nil_or_concat' polls with rfl | ⟨init, p, rfl⟩
      · cases h
      · cases p with
        | ok f =>
          rw [errorsInRow_append_ok] at h
          cases h
        | error e =>
          rw [errorsInRow_append_error] at h
          obtain ⟨before, texts, rfl, hlength⟩ := ih (Nat.le_of_succ_le_succ h)
          exact ⟨before, texts ++ [e], by simp, by simp [hlength]⟩
  · rintro ⟨before, texts, rfl, rfl⟩
    induction texts using List.reverseRecOn with
    | nil => exact Nat.zero_le _
    | append_singleton texts e ih =>
      have hlast : before ++ (texts ++ [e]).map .error =
          before ++ texts.map .error ++ [Except.error e] := by simp
      rw [hlast, errorsInRow_append_error, List.length_append]
      exact Nat.succ_le_succ ih

/-! ### The end of a session -/

namespace Polling

/-- A session ends when these outcomes have come: the last is the exit command, up to case and
blanks around it, or the last are as many errors as there may be, and one at least. -/
inductive Ends (p : Polling) : List Poll → Prop
  | exit (before : List Poll) {text : String}
      (h : Text.equalFold (Text.trimmed text) (Text.trimmed p.exitCommand) = true) :
      Ends p (before ++ [.ok (.body text)])
  | errors (before : List Poll) {texts : List String} {greatest : Nat}
      (hmax : p.maxErrors = some greatest) (hlength : texts.length = max greatest 1) :
      Ends p (before ++ texts.map .error)

variable {p : Polling}

theorem ends_append_ok {before : List Poll} {f : Fetch} :
    p.Ends (before ++ [.ok f]) ↔ f.isExit p.exitCommand = true := by
  constructor
  · intro h
    generalize hpolls : before ++ [Except.ok f] = polls at h
    cases h with
    | exit before' h =>
      obtain ⟨-, hlast⟩ := List.append_inj' hpolls rfl
      cases hlast
      exact h
    | errors before' hmax hlength =>
      rename_i texts greatest
      have hrow : max greatest 1 ≤ errorsInRow (before ++ [.ok f]) :=
        le_errorsInRow_iff.2 ⟨_, _, hpolls, hlength⟩
      rw [errorsInRow_append_ok] at hrow
      omega
  · intro h
    cases f with
    | empty | status code => cases h
    | body text => exact .exit before h

theorem ends_append_error {before : List Poll} {e : String} :
    p.Ends (before ++ [.error e]) ↔ p.maxErrors.any (· ≤ errorsInRow before + 1) = true := by
  rw [Option.any_eq_true]
  constructor
  · intro h
    generalize hpolls : before ++ [Except.error e] = polls at h
    cases h with
    | exit before' h =>
      obtain ⟨-, hlast⟩ := List.append_inj' hpolls rfl
      cases hlast
    | errors before' hmax hlength =>
      rename_i texts greatest
      have hrow : max greatest 1 ≤ errorsInRow (before ++ [.error e]) :=
        le_errorsInRow_iff.2 ⟨_, _, hpolls, hlength⟩
      rw [errorsInRow_append_error] at hrow
      exact ⟨greatest, hmax, decide_eq_true (by omega)⟩
  · rintro ⟨greatest, hmax, hle⟩
    have hrow : max greatest 1 ≤ errorsInRow (before ++ [.error e]) := by
      have hgreatest := of_decide_eq_true hle
      rw [errorsInRow_append_error]
      omega
    obtain ⟨before', texts, hpolls, hlength⟩ := le_errorsInRow_iff.1 hrow
    rw [hpolls]
    exact .errors before' hmax hlength

/-- Whether a session ends with these outcomes, by the last and the errors in a row. -/
def endsNow (p : Polling) (polls : List Poll) : Bool :=
  match polls.getLast? with
  | none => false
  | some (.ok f) => f.isExit p.exitCommand
  | some (.error _) => p.maxErrors.any (· ≤ errorsInRow polls)

theorem endsNow_iff {polls : List Poll} : p.endsNow polls = true ↔ p.Ends polls := by
  rcases List.eq_nil_or_concat' polls with rfl | ⟨before, poll, rfl⟩
  · refine ⟨nofun, fun h => ?_⟩
    generalize hpolls : [] = polls at h
    cases h with
    | exit before h => exact absurd hpolls.symm (by simp)
    | errors before hmax hlength =>
      obtain ⟨-, htexts⟩ := List.append_eq_nil_iff.1 hpolls.symm
      rw [List.map_eq_nil_iff.1 htexts, List.length_nil] at hlength
      omega
  · rw [endsNow, List.getLast?_concat]
    cases poll with
    | ok f => exact ends_append_ok.symm
    | error e =>
      rw [ends_append_error, ← errorsInRow_append_error before e]

instance (p : Polling) : DecidablePred p.Ends := fun _ =>
  decidable_of_iff _ endsNow_iff

end Polling

/-! ### One outcome -/

section
variable {σ : Type} (config : Config) (name : String)

namespace Visit
variable {v : Visit σ} {history : List Poll}

/-- **What has come so far decides whether a session ends.** -/
theorem isLast_iff_ends (h : v.session.errors = errorsInRow history) :
    v.isLast config name = true ↔ config.polling.Ends (history ++ [v.outcome]) := by
  cases houtcome : v.outcome with
  | ok f => rw [isLast_ok config name houtcome, Polling.ends_append_ok]
  | error e =>
    rw [Polling.ends_append_error, ← h, isLast, response, houtcome]
    simp only
    split <;> simp_all [Response.isLast]

variable [Surface σ]

theorem errors_after_error {e : String} (h : v.outcome = .error e) :
    (v.after config name).errors = v.session.errors + 1 := by
  rw [after, response, h]
  by_cases hmany : config.polling.maxErrors.any (· ≤ v.session.errors + 1) = true
  · simp only [if_pos hmany]
  · simp only [if_neg hmany]
    rfl

/-- What is no error resets the count. -/
theorem errors_after_ok {f : Fetch} (h : v.outcome = .ok f) :
    (v.after config name).errors = 0 := by
  rw [after, response, h]
  cases f with
  | empty | status code => rfl
  | body text =>
    by_cases hexit : Session.isExit config.polling.exitCommand text = true
    · simp only [if_pos hexit]
    · simp only [if_neg hexit]
      cases Session.decode name (v.session.received + 1) (Text.trimmed text) <;> rfl

/-- **A session counts the errors at the end of what has come.** -/
theorem errors_after (h : v.session.errors = errorsInRow history) :
    (v.after config name).errors = errorsInRow (history ++ [v.outcome]) := by
  cases houtcome : v.outcome with
  | error e => rw [errors_after_error config name houtcome, h, errorsInRow_append_error]
  | ok f => rw [errors_after_ok config name houtcome, errorsInRow_append_ok]

end Visit
end

/-! ### The whole session -/

namespace Session
variable {σ τ : Type} [Surface σ] [Source τ] (config : Config)

/-- Polling goes on with the first outcome if the session does not end with it. -/
theorem poll_succ (n : Nat) (s : Session σ) (t : τ) :
    let v : Visit σ := ⟨(Source.fetch t).1, s⟩
    poll config (n + 1) s t =
      if v.isLast config (Source.name t) then
        ((v.after config (Source.name t)).finish, (Source.fetch t).2)
      else poll config n (v.after config (Source.name t)) (Source.fetch t).2 := by
  intro v
  have htake : s.take config (Source.name t) (Source.fetch t).1 =
      (v.after config (Source.name t), v.isLast config (Source.name t)) :=
    Visit.take_eq config (Source.name t) v
  rw [poll]
  simp only [htake]
  cases v.isLast config (Source.name t) <;> rfl

/-- As long as no outcome ends the session, all are fetched. -/
theorem poll_of_not_ends {history : List Poll} {n : Nat} {s : Session σ} {t : τ}
    (hs : s.errors = errorsInRow history)
    (h : ∀ k < n, ¬ config.polling.Ends (history ++ (Source.outcomes n t).take (k + 1))) :
    (poll config n s t).2 = Source.polled n t := by
  induction n generalizing history s t with
  | zero => rfl
  | succ n ih =>
    have hgoes : ¬ Visit.isLast config (Source.name t) ⟨(Source.fetch t).1, s⟩ = true := by
      rw [Visit.isLast_iff_ends config (Source.name t) hs]
      exact h 0 (Nat.succ_pos n)
    rw [poll_succ, if_neg hgoes, Source.polled]
    refine ih (Visit.errors_after config (Source.name t) hs) fun k hk => ?_
    have hnext := h (k + 1) (Nat.succ_lt_succ hk)
    rw [Source.outcomes, List.take_succ_cons] at hnext
    rwa [List.append_assoc]

/-- The first outcome that ends the session is the last that is fetched. -/
theorem poll_of_ends {history : List Poll} {n k : Nat} {s : Session σ} {t : τ}
    (hs : s.errors = errorsInRow history) (hk : k < n)
    (hends : config.polling.Ends (history ++ (Source.outcomes n t).take (k + 1)))
    (hfirst : ∀ j < k, ¬ config.polling.Ends (history ++ (Source.outcomes n t).take (j + 1))) :
    poll config n s t = poll config (k + 1) s t ∧
      (poll config n s t).2 = Source.polled (k + 1) t := by
  obtain ⟨n, rfl⟩ : ∃ m, n = m + 1 := Nat.exists_eq_add_one.2 (by omega)
  induction k generalizing history n s t with
  | zero =>
    have hstops : Visit.isLast config (Source.name t) ⟨(Source.fetch t).1, s⟩ = true :=
      (Visit.isLast_iff_ends config (Source.name t) hs).2 hends
    rw [poll_succ config n, poll_succ config 0, if_pos hstops, if_pos hstops]
    exact ⟨rfl, rfl⟩
  | succ k ih =>
    have hgoes : ¬ Visit.isLast config (Source.name t) ⟨(Source.fetch t).1, s⟩ = true := by
      rw [Visit.isLast_iff_ends config (Source.name t) hs]
      exact hfirst 0 (Nat.succ_pos k)
    obtain ⟨m, rfl⟩ : ∃ m, n = m + 1 := Nat.exists_eq_add_one.2 (by omega)
    let v : Visit σ := ⟨(Source.fetch t).1, s⟩
    have hafter : (v.after config (Source.name t)).errors = errorsInRow (history ++ [v.outcome]) :=
      Visit.errors_after config (Source.name t) hs
    rw [poll_succ config (m + 1), poll_succ config (k + 1), if_neg hgoes, if_neg hgoes,
      Source.polled]
    refine ih hafter m (Nat.lt_of_succ_lt_succ hk) ?_ fun j hj => ?_
    · rw [Source.outcomes, List.take_succ_cons] at hends
      rwa [List.append_assoc]
    · have hnext := hfirst (j + 1) (Nat.succ_lt_succ hj)
      rw [Source.outcomes, List.take_succ_cons] at hnext
      rwa [List.append_assoc]

/-- **Where a session stops.** The first outcome with which what has come is an end is the last
that is fetched, however many polls there may be; without one there is no end. What is no error
and no exit command, a suite that fails too, never ends a session and resets its count of
errors, and where there may be any number of errors none of them ends it. -/
theorem poll_stops (world : World σ) (source : Option String) (t : τ) (n : Nat) :
    let ends (k : Nat) := config.polling.Ends ((Source.outcomes n t).take (k + 1))
    let final := poll config n (.start world source) t
    (∀ k < n, ends k → (∀ j < k, ¬ ends j) →
        final = poll config (k + 1) (.start world source) t ∧
          final.2 = Source.polled (k + 1) t) ∧
      ((∀ k < n, ¬ ends k) → final.2 = Source.polled n t) ∧
      (∀ (s : Session σ) name f, f.isExit config.polling.exitCommand = false →
        (s.take config name (.ok f)).2 = false ∧ (s.take config name (.ok f)).1.errors = 0) ∧
      (config.polling.maxErrors = none → ∀ (s : Session σ) name e,
        (s.take config name (.error e)).2 = false) := by
  intro ends final
  have hstart : (start world source).errors = errorsInRow [] := rfl
  refine ⟨fun k hk hends hfirst => poll_of_ends config hstart hk hends hfirst,
    fun hnone => poll_of_not_ends config hstart hnone, fun s name f hf => ?_,
    fun hmax s name e => ?_⟩
  · let v : Visit σ := ⟨.ok f, s⟩
    have htake : s.take config name (.ok f) = (v.after config name, v.isLast config name) :=
      Visit.take_eq config name v
    rw [htake]
    exact ⟨(Visit.isLast_ok config name rfl).trans hf, Visit.errors_after_ok config name rfl⟩
  · rw [take, countError]
    simp [hmax]

/-- Errors with an unexpected status between them, and a suite after them. -/
def flakyPolls : List Poll :=
  [.error "down", .ok (.status 500), .error "down", .error "still down", .ok (.body "[]")]

/-- A session that gives up after two errors in a row. -/
def impatient : Config :=
  { Config.standard with polling := { Polling.standard with maxErrors := some 2 } }

/-- It stops with the fourth of these outcomes, and the suite is not fetched. -/
theorem poll_stops_flakyPolls :
    let t : Script := ⟨"flaky", flakyPolls, "exit", 0⟩
    let ends (k : Nat) := impatient.polling.Ends ((Source.outcomes 9 t).take (k + 1))
    ends 3 ∧ (∀ j < 3, ¬ ends j) ∧
      (poll impatient 9 (.start (.start Stage.empty) none) t).2.polls = 4 := by
  intro t ends
  have hends : ends 3 := by decide
  have hfirst : ∀ j < 3, ¬ ends j := by decide
  obtain ⟨hstops, -⟩ := poll_stops impatient (.start Stage.empty) none t 9
  obtain ⟨-, hpolled⟩ := hstops 3 (by decide) hends hfirst
  refine ⟨hends, hfirst, ?_⟩
  rw [hpolled]
  rfl

end Session
end UiSuite
