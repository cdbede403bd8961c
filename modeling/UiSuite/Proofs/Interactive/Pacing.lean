import UiSuite.Proofs.Execution.Clock
import UiSuite.Proofs.Interactive.Rounds

/-! What a session does between two fetches.

It sleeps for the interval between polls, or it runs a suite and lets the surface settle, and what
was fetched says which of the two (`Visit.paces`). After the outcome that ends it no time passes.
So a session takes the interval for each outcome that neither ends it nor is a suite, and the time
its suites take (`Session.poll_paced`). -/
namespace UiSuite

section
variable {σ : Type} [Surface σ] (config : Config) (name : String)

/-! ### Between two fetches -/

/-- The time a round takes. -/
def Round.elapsed (r : Round σ) : Nat :=
  (r.run config).world.clock - r.world.clock

theorem Round.clock_le_run (r : Round σ) : r.world.clock ≤ (r.run config).world.clock :=
  Suite.clock_le_run config r.suite r.world r.source

theorem Round.clock_run (r : Round σ) :
    (r.run config).world.clock = r.world.clock + r.elapsed config :=
  (Nat.add_sub_of_le (r.clock_le_run config)).symm

namespace Visit

/-- Whether the session sleeps after the outcome: it goes on, and the outcome is no suite. -/
def sleeps (v : Visit σ) : Bool :=
  !v.isLast config name && !v.payload?.any Suite.accepts

/-- The worlds in which the session may fetch again after the outcome: after one sleep, if that is
no suite, and else after a run of the suite and one settling of the surface. -/
inductive Paces (v : Visit σ) : World σ → Prop
  | sleeps (hsuite : v.payload?.any Suite.accepts = false) :
      Paces v (v.session.world.sleep config.polling.pollInterval)
  | runs {r : Round σ} (hsuite : v.payload?.any Suite.accepts = true)
      (hround : v.round? config name = some r) (hworld : r.world = v.session.world.reset) :
      Paces v (r.run config).world.settle

variable {config name}
variable {v : Visit σ}

omit [Surface σ] in
/-- A session that goes on runs a suite if it has fetched one. -/
theorem isSome_round? (hlast : v.isLast config name = false) :
    (v.round? config name).isSome = v.payload?.any Suite.accepts := by
  have hlength := congrArg List.length (v.round?_eq config name hlast)
  simp only [List.length_map] at hlength
  cases hbody : v.payload? with
  | none =>
    rw [hbody] at hlength
    cases hround : v.round? config name <;> simp_all
  | some body =>
    rw [hbody] at hlength
    cases haccepts : Suite.accepts body <;> cases hround : v.round? config name <;> simp_all

/-- With the end of the session nothing happens to its world. -/
theorem world_after_of_isLast (hlast : v.isLast config name = true) :
    (v.after config name).world = v.session.world := by
  rw [isLast] at hlast
  rw [after]
  cases hresponse : v.response config name <;> simp_all [Response.isLast]

/-- A session that goes on and runs nothing sleeps. -/
theorem world_after_of_none (hlast : v.isLast config name = false)
    (hround : v.round? config name = none) :
    (v.after config name).world = v.session.world.sleep config.polling.pollInterval := by
  rw [isLast] at hlast
  rw [round?] at hround
  rw [after]
  cases hresponse : v.response config name <;> simp_all [Response.isLast, Session.pause]

/-- A session that runs a suite lets the surface settle. -/
theorem world_after_of_some {r : Round σ} (hround : v.round? config name = some r) :
    (v.after config name).world = (r.run config).world.settle := by
  rw [round?] at hround
  split at hround <;> cases hround
  rename_i suite hresponse
  rw [after, hresponse]
  rfl

/-- **A session that goes on sleeps once or runs one suite.** -/
theorem paces (hlast : v.isLast config name = false) :
    v.Paces config name (v.after config name).world := by
  have hsuite := isSome_round? hlast
  cases hround : v.round? config name with
  | none =>
    rw [hround] at hsuite
    rw [world_after_of_none hlast hround]
    exact .sleeps hsuite.symm
  | some r =>
    rw [hround] at hsuite
    rw [world_after_of_some hround]
    exact .runs hsuite.symm hround (world_of_round? config name hround)

variable (config name) in
/-- The time from a fetch to what comes after it. -/
theorem clock_after (v : Visit σ) :
    (v.after config name).world.clock =
      v.session.world.clock +
        config.polling.pollInterval * (if v.sleeps config name then 1 else 0) +
        ((v.round? config name).toList.map (Round.elapsed config)).sum := by
  -- The session ends, or it sleeps, or it runs a suite: one term of the sum at most is not zero.
  cases hlast : v.isLast config name with
  | true =>
    have hsleeps : v.sleeps config name = false := by rw [sleeps, hlast]; rfl
    rw [world_after_of_isLast hlast, round?_of_isLast config name hlast]
    simp [hsleeps]
  | false =>
    have hsuite := isSome_round? hlast
    cases hround : v.round? config name with
    | none =>
      have hsleeps : v.sleeps config name = true := by rw [sleeps, hlast, ← hsuite, hround]; rfl
      rw [world_after_of_none hlast hround]
      simp [hsleeps]
    | some r =>
      have hsleeps : v.sleeps config name = false := by rw [sleeps, hlast, ← hsuite, hround]; rfl
      rw [world_after_of_some hround, World.clock_settle, r.clock_run,
        world_of_round? config name hround]
      simp [hsleeps]

end Visit

/-! ### The whole session -/

variable {config name}
variable {polls : List Poll} {s : Session σ}

theorem session_of_visits_cons {v : Visit σ} {vs : List (Visit σ)}
    (h : visits config name polls s = v :: vs) : v.session = s := by
  cases polls with
  | nil => cases h
  | cons p rest =>
    rw [visits] at h
    split at h <;> cases h <;> rfl

/-- What a session does with an outcome, it has done when it fetches the next. -/
theorem session_of_visits {before after : List (Visit σ)} {v v' : Visit σ}
    (h : visits config name polls s = before ++ v :: v' :: after) :
    v.isLast config name = false ∧ v'.session = v.after config name := by
  induction polls generalizing s before with
  | nil => simp [visits] at h
  | cons p rest ih =>
    rw [visits] at h
    split at h
    · have hlength := congrArg List.length h
      simp only [List.length_append, List.length_cons, List.length_nil] at hlength
      omega
    · rename_i hlast
      cases before with
      | nil =>
        obtain ⟨rfl, hrest⟩ := List.cons.inj h
        exact ⟨Bool.eq_false_iff.2 hlast, session_of_visits_cons hrest⟩
      | cons b before => exact ih (List.cons.inj h).2

/-- The visit that ends a session is its last. -/
theorem sessionAfter_of_isLast {v : Visit σ} (hv : v ∈ visits config name polls s)
    (hlast : v.isLast config name = true) :
    sessionAfter config name s (visits config name polls s) = v.after config name := by
  induction polls generalizing s with
  | nil => cases hv
  | cons p rest ih =>
    rw [visits] at hv ⊢
    split at hv
    · rename_i hended
      rw [if_pos hended, List.mem_singleton.1 hv]
      rfl
    · rename_i hgoes
      rw [if_neg hgoes]
      rcases List.mem_cons.1 hv with rfl | hv
      · exact absurd hlast hgoes
      · exact ih hv

variable (config name) in
/-- **The time of a session** is that of its sleeps and of its rounds. -/
theorem clock_sessionAfter (polls : List Poll) (s : Session σ) :
    (sessionAfter config name s (visits config name polls s)).world.clock =
      s.world.clock +
        config.polling.pollInterval *
          (visits config name polls s).countP (Visit.sleeps config name) +
        (((visits config name polls s).filterMap (Visit.round? config name)).map
          (Round.elapsed config)).sum := by
  induction polls generalizing s with
  | nil => rfl
  | cons p rest ih =>
    have hclock := Visit.clock_after config name ⟨p, s⟩
    dsimp only at hclock
    rw [visits]
    split
    · rw [filterMap_cons_toList, List.filterMap_nil, List.append_nil, List.countP_singleton]
      exact hclock
    · have hrest := ih (Visit.after config name ⟨p, s⟩)
      rw [hclock] at hrest
      rw [filterMap_cons_toList, List.map_append, List.sum_append, List.countP_cons, Nat.mul_add]
      exact hrest.trans (by omega)

end

/-- **The pace of a session**, over any source that keeps its name. What is fetched are its visits.
Between two fetches it sleeps once for the interval, if what was fetched is no suite, or it runs the
suite and lets the surface settle once; after the outcome that ends it its clock stands still. So it
takes the interval for each outcome that neither ends it nor is a suite, and the time its suites
take. -/
theorem Session.poll_paced {σ τ : Type} [Surface σ] [Source τ] (config : Config)
    (hname : ∀ t : τ, Source.name (Source.fetch t).2 = Source.name t) (world : World σ)
    (source : Option String) (n : Nat) (t : τ) :
    let name := Source.name t
    let vs := visits config name (Source.outcomes n t) (.start world source)
    let rounds := vs.filterMap (Visit.round? config name)
    let final := poll config n (.start world source) t
    vs.map (·.outcome) <+: Source.outcomes n t ∧ final.2 = Source.polled vs.length t ∧
      (∀ before v v' after, vs = before ++ v :: v' :: after →
        v.isLast config name = false ∧ v.Paces config name v'.session.world) ∧
      (∀ v ∈ vs, v.isLast config name = true → final.1.world = v.session.world.reset) ∧
      (∀ r ∈ rounds, r.world.clock ≤ (r.run config).world.clock) ∧
      final.1.world.clock =
        world.clock + config.polling.pollInterval * vs.countP (Visit.sleeps config name) +
          (rounds.map (Round.elapsed config)).sum := by
  intro name vs rounds final
  have hfinal : final = (if isEnded config name (Source.outcomes n t) (.start world source) then
      (sessionAfter config name (.start world source) vs).finish
      else sessionAfter config name (.start world source) vs, Source.polled vs.length t) :=
    poll_eq config hname n (.start world source) t
  refine ⟨map_outcome_visits config name _ _, by rw [hfinal], fun before v v' after hvs => ?_,
    fun v hv hlast => ?_, fun r _ => r.clock_le_run config, ?_⟩
  · obtain ⟨hgoes, hnext⟩ := session_of_visits hvs
    refine ⟨hgoes, ?_⟩
    rw [hnext]
    exact Visit.paces hgoes
  · have hended : isEnded config name (Source.outcomes n t) (.start world source) = true :=
      List.any_eq_true.2 ⟨v, hv, hlast⟩
    rw [hfinal, if_pos hended, sessionAfter_of_isLast hv hlast]
    exact congrArg World.reset (Visit.world_after_of_isLast hlast)
  · have hclock := clock_sessionAfter config name (Source.outcomes n t) (.start world source)
    rw [hfinal]
    split <;> exact hclock

/-- Pages that are no suites, a poll without a payload, and a suite that waits. -/
def idlePolls : List Poll :=
  [.ok (.body "<p>"), .ok .empty, .error "down",
    .ok (.body "[\x7b\"action\":\"wait\",\"waitTime\":7\x7d]"), .ok (.status 500)]

/-- A session over them takes four intervals and the time of the suite. -/
theorem Session.poll_paced_idlePolls :
    let t : Script := ⟨"idle", idlePolls, "exit", 0⟩
    (∀ t : Script, Source.name (Source.fetch t).2 = Source.name t) ∧
      (poll Config.standard 9 (.start (.start Stage.empty) none) t).1.world.clock =
        4 * Config.standard.polling.pollInterval + 7 := by
  intro t
  refine ⟨Script.name_fetch, ?_⟩
  obtain ⟨-, -, -, -, -, hclock⟩ :=
    poll_paced Config.standard Script.name_fetch (.start Stage.empty) none 9 t
  refine hclock.trans ?_
  decide +kernel

end UiSuite
