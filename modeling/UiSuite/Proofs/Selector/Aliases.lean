import UiSuite.Text.Blank
import UiSuite.Selector.AliasTable
import UiSuite.Selector.Matching

/-! Sound alias tables.

A table is sound when its names are as steps refer to them, without blanks around them, and its
queries can have matches. Registering such a name for such a query keeps a table sound. In a
sound table a reference leads to its query in one step: what it resolves to is no reference
again (`Sound.resolve`). -/
namespace UiSuite

/-- Whether a strategy asks for elements; an unknown type and a reference do not. -/
def Strategy.IsDirect : Strategy → Prop
  | .exact _ | .part _ | .key _ | .label _ | .kind _ => True
  | .unknownKind _ | .reference _ => False

/-- A strategy that accepts an element asks for elements. -/
theorem Strategy.isDirect_of_accepts {s : Strategy} {e : Element} (h : s.accepts e = true) :
    s.IsDirect := by
  cases s with
  | exact _ | part _ | key _ | label _ | kind _ => trivial
  | unknownKind _ | reference _ => cases h

namespace AliasTable

/-- A name and a query as they stand in a sound table. -/
structure SoundEntry (name : String) (q : Query) : Prop where
  nonempty : name ≠ ""
  trimmed : Text.trimmed name = name
  direct : q.strategy.IsDirect

/-- Whether all entries are sound. -/
def Sound (t : AliasTable) : Prop :=
  ∀ entry ∈ t.entries, SoundEntry entry.1 entry.2

theorem sound_empty : empty.Sound := fun entry h => by cases h

/-- What is registered is the one entry that can be new. -/
theorem mem_put {name : String} {q : Query} {entry : String × Query}
    {entries : List (String × Query)} (h : entry ∈ register.put name q entries) :
    entry = (name, q) ∨ entry ∈ entries := by
  induction entries with
  | nil => exact .inl (List.mem_singleton.1 h)
  | cons first rest ih =>
    obtain ⟨n, p⟩ := first
    rw [register.put] at h
    split at h
    · rename_i hn
      rcases List.mem_cons.1 h with rfl | h
      · exact .inl (by rw [hn])
      · exact .inr (List.mem_cons_of_mem _ h)
    · rcases List.mem_cons.1 h with rfl | h
      · exact .inr List.mem_cons_self
      · exact (ih h).imp id (List.mem_cons_of_mem _)

theorem Sound.register {t : AliasTable} (h : t.Sound) {name : String} {q : Query}
    (hentry : SoundEntry name q) : (t.register name q).Sound := by
  intro entry hmem
  rcases mem_put hmem with rfl | hmem
  · exact hentry
  · exact h entry hmem

/-- A query that is found under a name is an entry with that name. -/
theorem mem_of_get? {t : AliasTable} {name : String} {q : Query} (h : t.get? name = some q) :
    (name, q) ∈ t.entries := by
  obtain ⟨⟨n, p⟩, hfind, rfl⟩ := Option.map_eq_some_iff.1 h
  have hname := List.find?_some hfind
  simp only [beq_iff_eq] at hname
  subst hname
  exact List.mem_of_find?_eq_some hfind

/-- Registering what a name stands for changes nothing. -/
theorem register_of_get? {t : AliasTable} {name : String} {q : Query} (h : t.get? name = some q) :
    t.register name q = t := by
  obtain ⟨entries⟩ := t
  refine congrArg AliasTable.mk ?_
  simp only [get?] at h
  induction entries with
  | nil => cases h
  | cons entry rest ih =>
    obtain ⟨n, p⟩ := entry
    by_cases hn : n = name <;> grind [register.put]

/-- A reference resolves to the query under its name, at its own index if it has one. -/
theorem resolve_named (t : AliasTable) (name : String) (index : Option Nat) :
    t.resolve ⟨.reference name, index⟩ =
      match t.get? name with
      | none => .error name
      | some stored => .ok ⟨stored.strategy, index.or stored.index⟩ := rfl

/-- What is no reference resolves to itself. -/
theorem resolve_of_not_reference {t : AliasTable} {q : Query}
    (h : ∀ name, q.strategy ≠ .reference name) : t.resolve q = .ok q := by
  rw [resolve]
  split
  · rename_i name hname
    exact absurd hname (h name)
  · rfl

/-- What a query resolves to, it resolves to when any name stands for that. -/
theorem resolve_register {t : AliasTable} {q r : Query} (h : t.resolve q = .ok r) (name : String) :
    (t.register name r).resolve q = .ok r := by
  obtain ⟨strategy, index⟩ := q
  cases strategy with
  | reference other =>
    rw [resolve_named] at h ⊢
    rw [get?_register]
    by_cases hname : other = name
    · -- The index of the reference is taken up already.
      rw [if_pos hname]
      cases hget : t.get? other with
      | none =>
        rw [hget] at h
        cases h
      | some stored =>
        rw [hget] at h
        cases h
        cases index <;> rfl
    · rw [if_neg hname]
      exact h
  | exact _ | part _ | key _ | label _ | kind _ | unknownKind _ => exact h

/-- **Resolving in a sound table.** A query either refers to a name that is missing, or resolves
to one that is no reference and resolves to itself. -/
theorem Sound.resolve {t : AliasTable} (h : t.Sound) (q : Query) :
    (∃ name, q.strategy = .reference name ∧ t.get? name = none ∧ t.resolve q = .error name) ∨
      ∃ r, t.resolve q = .ok r ∧ (∀ name, r.strategy ≠ .reference name) ∧ t.resolve r = .ok r := by
  by_cases hreference : ∃ name, q.strategy = .reference name
  · obtain ⟨name, hname⟩ := hreference
    cases hget : t.get? name with
    | none => exact .inl ⟨name, hname, hget, by simp [AliasTable.resolve, hname, hget]⟩
    | some stored =>
      have hdirect := (h _ (mem_of_get? hget)).direct
      have hplain (other : String) : stored.strategy ≠ .reference other := fun heq => by
        rw [heq] at hdirect
        exact hdirect
      refine .inr ⟨⟨stored.strategy, q.index.or stored.index⟩, ?_, hplain, ?_⟩
      · simp [AliasTable.resolve, hname, hget]
      · exact resolve_of_not_reference hplain
  · have hplain : ∀ name, q.strategy ≠ .reference name := fun name hname => hreference ⟨name, hname⟩
    exact .inr ⟨q, resolve_of_not_reference hplain, hplain, resolve_of_not_reference hplain⟩

end AliasTable
end UiSuite
