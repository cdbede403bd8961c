import UiSuite.Proofs.Execution.Atomicity
import UiSuite.Proofs.Execution.Waiting

/-! Unknown type names, refused or waited for.

A configuration may be strict about type names. A query for an unknown type never has a match, so
where it is not refused, the step waits for it in vain (`Step.obtain_unknown`). Any other query is
looked for in the same way (`Step.obtain_known`). So being strict does not change which steps
fail, and what becomes of the others; it only saves the wait (`Step.execute_strictness`). -/
namespace UiSuite

/-- An unknown type has no matches. -/
theorem Query.matching_unknownKind {q : Query} {name : String}
    (h : q.strategy = .unknownKind name) (roots : List Element) : q.matching roots = [] := by
  rw [matching, h]
  exact List.filter_eq_nil_iff.2 fun _ _ => Bool.false_ne_true

/-- The configuration, strict about type names or not. -/
def Config.withStrict (config : Config) (strict : Bool) : Config :=
  { config with strictTypeNames := strict }

variable {σ : Type} [Surface σ]

/-- A wait for what never shows is in vain. -/
theorem World.isMet_waitFrom_of_never {isMet : List Element → Bool}
    (h : ∀ roots, isMet roots = false) (interval sleeps left looks : Nat) (w : World σ) :
    (waitFrom isMet interval sleeps left looks w).isMet = false := by
  induction sleeps generalizing left looks w with
  | zero =>
    rcases hw : w.settle.look with ⟨roots, w₁⟩
    rw [waitFrom_zero isMet interval left looks hw]
    exact h roots
  | succ n ih =>
    rcases hw : w.settle.look with ⟨roots, w₁⟩
    rw [waitFrom_succ isMet interval n left looks hw]
    split
    · exact h roots
    · exact ih _ _ _

namespace Step
variable {config : Config} {action : Action} {fallback : Option Query} {s : Step} {w w' : World σ}
  {q : Query} {isExplicit : Bool} {name : String}

/-! ### Searches -/

theorem refusedName_of_lenient (h : config.strictTypeNames = false) (q : Query) :
    refusedName config q = none := by
  unfold refusedName
  split
  · rw [h]
    rfl
  · rfl

/-- Where the query is not for an unknown type, the search is the same whether the configuration is
strict or not. -/
theorem obtain_known (config : Config) (strict : Bool)
    (hknown : ∀ q isExplicit, s.query w.aliases action fallback = .ok (q, isExplicit) →
      ∀ name, q.strategy ≠ .unknownKind name) :
    s.obtain (config.withStrict strict) action fallback w = s.obtain config action fallback w := by
  cases hquery : s.query w.aliases action fallback with
  | error e => simp only [obtain, hquery]
  | ok found =>
    obtain ⟨q, isExplicit⟩ := found
    have hname := hknown q isExplicit hquery
    rw [obtain_of_query hquery (refusedName_of_known hname _),
      obtain_of_query hquery (refusedName_of_known hname _)]
    rfl

/-- Looking for an unknown type is in vain, and takes all the time there is. -/
theorem await_unknown (hunknown : q.strategy = .unknownKind name) (config : Config) (s : Step)
    (w : World σ) :
    (s.await config q w).isMet = false ∧
      (0 < config.waits.pollInterval → (s.await config q w).world.clock =
        w.clock + s.waitMillis config.waits.elementTimeout) := by
  have hnever (roots : List Element) : (!(q.matching roots).isEmpty) = false := by
    rw [Query.matching_unknownKind hunknown]
    rfl
  refine ⟨World.isMet_waitFrom_of_never hnever _ _ _ _ w, fun hinterval => ?_⟩
  rw [await, World.waitFor_unmet hinterval fun n _ => hnever _]

/-- A strict search for an unknown type is refused before anything happened; one that is not
strict times out. -/
theorem obtain_unknown (hquery : s.query w.aliases action fallback = .ok (q, isExplicit))
    (hunknown : q.strategy = .unknownKind name) (config : Config) :
    s.obtain (config.withStrict true) action fallback w = (.error (.unknownTypeName name), w) ∧
      s.obtain (config.withStrict false) action fallback w =
        (.error (.timeout ("at least one match for '" ++ q.render ++ "'")
          (s.waitMillis config.waits.elementTimeout)), (s.await config q w).world) := by
  constructor
  · rw [obtain, hquery]
    simp only [refusedName, hunknown, Config.withStrict, if_true]
  · have hunmet : (s.await (config.withStrict false) q w).isMet = false :=
      (await_unknown hunknown _ s w).1
    rw [obtain_of_query hquery (refusedName_of_lenient rfl q), hunmet]
    rfl

/-! ### Steps -/

/-- A step depends on the configuration only by its waits and by what its search finds. -/
theorem perform_congr {a b : Config} (hwaits : a.waits = b.waits)
    (hsearch : s.search? a w = s.search? b w) :
    s.perform a (Action.ofTag s.action) w = s.perform b (Action.ofTag s.action) w := by
  have hobtain {action : Action} {fallback : Option Query}
      (haction : Action.ofTag s.action = action) (hfallback : s.fallback? = some fallback) :
      s.obtain a action fallback w = s.obtain b action fallback w := by
    rw [search?_eq haction hfallback, search?_eq haction hfallback] at hsearch
    exact Option.some.inj hsearch
  cases haction : Action.ofTag s.action with
  | unknown tag => rfl
  | wait => rw [perform, perform, hwaits]
  | click =>
    have hfallback : s.fallback? = some none := by rw [fallback?, haction]
    rw [perform, perform, actOnTarget, actOnTarget, hobtain haction hfallback]
  | enter =>
    cases hvalue : s.value with
    | none => simp only [perform, hvalue]
    | some value =>
      have hfallback : s.fallback? = some (some .textInput) := by
        rw [fallback?, haction, hvalue]
        rfl
      simp only [perform, hvalue, actOnTarget, hobtain haction hfallback]
  | assertText =>
    cases hexpected : s.expected with
    | none => simp only [perform, hexpected]
    | some expected =>
      have hfallback : s.fallback? = some (some (.exactText expected)) := by
        rw [fallback?, haction, hexpected]
        rfl
      simp only [perform, hexpected, hobtain haction hfallback]
  | assertVisible =>
    have hfallback : s.fallback? = some none := by rw [fallback?, haction]
    rw [perform, perform, hobtain haction hfallback]

/-- A step whose search fails fails with it. -/
theorem perform_of_failed {e : StepError} (h : s.search? config w = some (.error e, w')) :
    s.perform config (Action.ofTag s.action) w = (.error e, w') := by
  have hcourse := course config s w
  generalize s.perform config (Action.ofTag s.action) w = performed at hcourse ⊢
  cases hcourse with
  | failed hsearch =>
    rw [h] at hsearch
    cases hsearch
    rfl
  | refused hsearch | skipped hsearch | waited hsearch | seen hsearch | mismatched hsearch
  | acted hsearch | repelled hsearch =>
    rw [h] at hsearch
    cases hsearch

/-- Whether the query that a step looks for is one for an unknown type. -/
def SeeksUnknown (s : Step) (aliases : AliasTable) : Prop :=
  ∃ q isExplicit name, s.usedQuery? aliases = some (q, isExplicit) ∧
    q.strategy = .unknownKind name

/-- A step that looks for anything else is executed alike, strict or not. -/
theorem execute_known (h : ¬ s.SeeksUnknown w.aliases) (config : Config) (strict : Bool)
    (index : Nat) :
    s.execute (config.withStrict strict) index w = s.execute config index w := by
  have hsearch : s.search? (config.withStrict strict) w = s.search? config w := by
    unfold search?
    cases hfallback : s.fallback? with
    | none => rfl
    | some fallback =>
      refine congrArg some (obtain_known config strict fun q isExplicit hquery name hname => ?_)
      exact h ⟨q, isExplicit, name, usedQuery?_eq_some.2 ⟨fallback, hfallback, hquery⟩, hname⟩
  have hwaits : (config.withStrict strict).waits = config.waits := rfl
  rw [execute_eq, execute_eq, perform_congr hwaits hsearch]

/-- A step that looks for an unknown type fails: at once if the configuration is strict, and else
when its time is over. -/
theorem execute_unknown (hused : s.usedQuery? w.aliases = some (q, isExplicit))
    (hunknown : q.strategy = .unknownKind name) (config : Config) (index : Nat) :
    s.execute (config.withStrict true) index w =
        (.error ⟨index + 1, s.context (Action.ofTag s.action), .unknownTypeName name⟩, w) ∧
      s.execute (config.withStrict false) index w =
        (.error ⟨index + 1, s.context (Action.ofTag s.action),
          .timeout ("at least one match for '" ++ q.render ++ "'")
            (s.waitMillis config.waits.elementTimeout)⟩, (s.await config q w).world) := by
  obtain ⟨fallback, hfallback, hquery⟩ := usedQuery?_eq_some.1 hused
  obtain ⟨hstrict, hlenient⟩ := obtain_unknown hquery hunknown config
  have hstrictSearch := (search?_eq rfl hfallback).trans (congrArg some hstrict)
  have hlenientSearch := (search?_eq rfl hfallback).trans (congrArg some hlenient)
  rw [execute_eq, execute_eq, perform_of_failed hstrictSearch, perform_of_failed hlenientSearch]
  exact ⟨rfl, rfl⟩

/-- **Being strict about type names does not change what a step comes to.** It succeeds with the
same outcome in the same world, or fails, whether the configuration is strict or not. If it fails
alike, it leaves the same world. It fails differently exactly if it looks for an unknown type. Then
the strict failure is that the name is unknown, and the world is as before; the other one is that
the time of the step is over, all of it and no more, and the surface has only idled. -/
theorem execute_strictness (config : Config) (index : Nat) (s : Step) (w : World σ) :
    let strict := s.execute (config.withStrict true) index w
    let lenient := s.execute (config.withStrict false) index w
    ((∃ outcome w', strict = (.ok outcome, w') ∧ lenient = (.ok outcome, w')) ∨
        ∃ f g, strict.1 = .error f ∧ lenient.1 = .error g) ∧
      (strict.1 = lenient.1 → strict = lenient) ∧
      (strict.1 ≠ lenient.1 ↔ s.SeeksUnknown w.aliases) ∧
      ∀ q isExplicit name, s.usedQuery? w.aliases = some (q, isExplicit) →
        q.strategy = .unknownKind name →
        strict =
            (.error ⟨index + 1, s.context (Action.ofTag s.action), .unknownTypeName name⟩, w) ∧
          lenient.1 = .error ⟨index + 1, s.context (Action.ofTag s.action),
            .timeout ("at least one match for '" ++ q.render ++ "'")
              (s.waitMillis config.waits.elementTimeout)⟩ ∧
          lenient.2.aliases = w.aliases ∧ Idles w.surface lenient.2.surface ∧
          (0 < config.waits.pollInterval →
            lenient.2.clock = w.clock + s.waitMillis config.waits.elementTimeout) := by
  intro strict lenient
  by_cases hseeks : s.SeeksUnknown w.aliases
  · obtain ⟨q, isExplicit, name, hused, hunknown⟩ := hseeks
    obtain ⟨hstrict, hlenient⟩ := execute_unknown hused hunknown config index
    have hne : strict.1 ≠ lenient.1 := by
      intro heq
      simp only [strict, lenient, hstrict, hlenient] at heq
      cases heq
    refine ⟨.inr ⟨_, _, congrArg Prod.fst hstrict, congrArg Prod.fst hlenient⟩,
      fun heq => absurd heq hne, iff_of_true hne ⟨q, isExplicit, name, hused, hunknown⟩, ?_⟩
    intro q' isExplicit' name' hused' hunknown'
    obtain ⟨hstrict', hlenient'⟩ := execute_unknown hused' hunknown' config index
    obtain ⟨hidles, haliases⟩ := await_idles config q' s w
    refine ⟨hstrict', congrArg Prod.fst hlenient', ?_, ?_, fun hinterval => ?_⟩
    · simpa only [lenient, hlenient'] using haliases
    · simpa only [lenient, hlenient'] using hidles
    · simpa only [lenient, hlenient'] using (await_unknown hunknown' config s w).2 hinterval
  · have hsame : strict = lenient := by
      have hstrict := execute_known hseeks config true index
      exact hstrict.trans (execute_known hseeks config false index).symm
    refine ⟨?_, fun _ => hsame, iff_of_false (fun hne => hne (congrArg Prod.fst hsame)) hseeks,
      fun q isExplicit name hused hunknown => absurd ⟨q, isExplicit, name, hused, hunknown⟩ hseeks⟩
    rw [hsame]
    rcases lenient with ⟨e | outcome, w'⟩
    · exact .inr ⟨e, e, rfl, rfl⟩
    · exact .inl ⟨outcome, w', rfl, rfl⟩

/-- A page on which an alias stands for the second gadget, whatever a gadget is. -/
def gadgetPage : World Stage :=
  { World.start (Stage.ofForest [.blank, .blank]) with
    aliases := AliasTable.empty.register "gadget" ⟨.unknownKind "Gadget", some 1⟩ }

/-- A step that enters a text there, for which it has sixty milliseconds. -/
def gadgetEntry : Step :=
  { Step.blank with
    action := "type", aliasName := some " gadget ", value := some "x",
    waitTime := some (.millis 60) }

/-- It fails at once, or after its time. -/
theorem execute_strictness_gadgetPage :
    gadgetEntry.usedQuery? gadgetPage.aliases = some (⟨.unknownKind "Gadget", some 1⟩, true) ∧
      gadgetEntry.execute (Config.standard.withStrict true) 0 gadgetPage =
        (.error ⟨1, "type alias: gadget ", .unknownTypeName "Gadget"⟩, gadgetPage) ∧
      (gadgetEntry.execute (Config.standard.withStrict false) 0 gadgetPage).1 =
        .error ⟨1, "type alias: gadget ", .timeout "at least one match for 'type:Gadget[1]'" 60⟩ ∧
      (gadgetEntry.execute (Config.standard.withStrict false) 0 gadgetPage).2.clock = 60 := by
  have hused : gadgetEntry.usedQuery? gadgetPage.aliases =
      some (⟨.unknownKind "Gadget", some 1⟩, true) := by
    decide +kernel
  obtain ⟨-, -, -, hunknown⟩ := execute_strictness .standard 0 gadgetEntry gadgetPage
  obtain ⟨hstrict, hlenient, -, -, hclock⟩ := hunknown _ _ _ hused rfl
  exact ⟨hused, hstrict, hlenient, hclock (by decide)⟩

end Step
end UiSuite
