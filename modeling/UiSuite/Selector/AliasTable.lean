import UiSuite.Selector.Query

/-! Alias tables: names for queries.

A table holds each name once; registering a name again replaces its query. A query
that refers to a name resolves to the query under the name, and an index of its own
takes the place of the one stored. -/
namespace UiSuite

/-- Names and their queries. -/
structure AliasTable where
  entries : List (String × Query)
deriving DecidableEq

namespace AliasTable

def empty : AliasTable := ⟨[]⟩

/-- The query under a name. -/
def get? (t : AliasTable) (name : String) : Option Query :=
  (t.entries.find? (·.1 == name)).map (·.2)

/-- Puts a query under a name. -/
def register (t : AliasTable) (name : String) (q : Query) : AliasTable :=
  ⟨put t.entries⟩
where
  put : List (String × Query) → List (String × Query)
    | [] => [(name, q)]
    | (n, p) :: rest => if n = name then (n, q) :: rest else (n, p) :: put rest

def size (t : AliasTable) : Nat := t.entries.length

/-- The query a query stands for; the name that is missing otherwise. -/
def resolve (t : AliasTable) (q : Query) : Except String Query :=
  match q.strategy with
  | .reference name =>
    match t.get? name with
    | none => .error name
    | some stored => .ok ⟨stored.strategy, q.index.or stored.index⟩
  | _ => .ok q

@[simp] theorem get?_empty (name : String) : empty.get? name = none := rfl

theorem get?_register (t : AliasTable) (name other : String) (q : Query) :
    (t.register name q).get? other = if other = name then some q else t.get? other := by
  obtain ⟨entries⟩ := t
  simp only [register, get?]
  induction entries with
  | nil => by_cases h : other = name <;> grind [register.put]
  | cons entry rest ih =>
    obtain ⟨n, p⟩ := entry
    by_cases hn : n = name <;> by_cases ho : other = name <;> grind [register.put]

end AliasTable
end UiSuite
