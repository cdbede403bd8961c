import UiSuite.Json.Record
import UiSuite.Proofs.Json.Fields

/-! Reading records.

An object is read field by field, so what every field keeps the whole record keeps
(`Record.Keeps.read`), and a change of the record that the fields of an object ignore can be made
before reading it or after (`Record.foldlM_takeEntry_map`). -/
namespace UiSuite.Json

/-! ### Outcomes -/

theorem map_eq_ok {α β ε : Type} {x : Except ε α} {f : α → β} {b : β} :
    x.map f = .ok b ↔ ∃ a, x = .ok a ∧ f a = b := by
  cases x with
  | error e => exact ⟨nofun, nofun⟩
  | ok a =>
    constructor
    · rintro ⟨rfl⟩
      exact ⟨a, rfl, rfl⟩
    · rintro ⟨_, ⟨rfl⟩, rfl⟩
      rfl

theorem bind_eq_ok {α β ε : Type} {x : Except ε α} {f : α → Except ε β} {b : β} :
    (x >>= f) = .ok b ↔ ∃ a, x = .ok a ∧ f a = .ok b := by
  cases x with
  | error e => exact ⟨nofun, nofun⟩
  | ok a =>
    constructor
    · intro h
      exact ⟨a, rfl, h⟩
    · rintro ⟨_, ⟨rfl⟩, h⟩
      exact h

/-! ### Lists -/

namespace Reader
variable {α : Type} {read : Reader α}

/-- A list is read from what its items are read from. -/
theorem list_map {write : α → Json} {xs : List α} (h : ∀ x ∈ xs, read (write x) = .ok x) :
    list read (.array (xs.map write)) = .ok xs := by
  show (xs.map write).mapM read = .ok xs
  induction xs with
  | nil => rfl
  | cons x rest ih =>
    obtain ⟨hx, hrest⟩ := List.forall_mem_cons.1 h
    rw [List.map_cons, List.mapM_cons, hx, ih hrest]
    rfl

/-- What all that is read has, all items of a list have. -/
theorem forall_of_list {P : α → Prop} (h : ∀ j x, read j = .ok x → P x) {j : Json} {xs : List α}
    (hlist : list read j = .ok xs) : ∀ x ∈ xs, P x := by
  cases j with
  | array items =>
    replace hlist : items.mapM read = .ok xs := hlist
    induction items generalizing xs with
    | nil =>
      cases hlist
      exact nofun
    | cons j rest ih =>
      rw [List.mapM_cons] at hlist
      obtain ⟨x, hx, hlist⟩ := bind_eq_ok.1 hlist
      obtain ⟨xs, hrest, hxs⟩ := bind_eq_ok.1 hlist
      cases hxs
      exact List.forall_mem_cons.2 ⟨h j x hx, ih hrest⟩
  | null | bool _ | number _ | string _ | object _ => cases hlist

end Reader

/-! ### Fields -/

namespace Field
variable {α β : Type}

/-- Reading the field keeps what holds of the record. -/
def Keeps (f : Field α) (P : α → Prop) : Prop :=
  ∀ j r r', P r → f.read j r = .ok r' → P r'

theorem keeps_plain (name : String) {read : Reader β} {set : β → α → α} {P : α → Prop}
    (h : ∀ j v r, P r → read j = .ok v → P (set v r)) : (plain name read set).Keeps P := by
  intro j r r' hr hread
  obtain ⟨v, hv, rfl⟩ := map_eq_ok.1 hread
  exact h j v r hr hv

theorem keeps_deep (name : String) {read : Reader β} {set : β → α → α} {P : α → Prop}
    (h : ∀ j v r, P r → read j = .ok v → P (set v r)) : (deep name read set).Keeps P :=
  keeps_plain name h

/-- A change of the record can be made before the field is read or after. -/
def Ignores (f : Field α) (change : α → α) : Prop :=
  ∀ j r, f.read j (change r) = (f.read j r).map change

theorem ignores_plain (name : String) (read : Reader β) {set : β → α → α} {change : α → α}
    (h : ∀ v r, set v (change r) = change (set v r)) : (plain name read set).Ignores change := by
  intro j r
  show (read j).map (set · (change r)) = ((read j).map (set · r)).map change
  cases read j with
  | error e => rfl
  | ok v => exact congrArg Except.ok (h v r)

theorem ignores_deep (name : String) (read : Reader β) {set : β → α → α} {change : α → α}
    (h : ∀ v r, set v (change r) = change (set v r)) : (deep name read set).Ignores change :=
  ignores_plain name read h

end Field

namespace Record
variable {α : Type} {R : Record α}

/-! ### What reading keeps -/

/-- What holds of the blank record and is kept by every field. -/
structure Keeps (R : Record α) (P : α → Prop) : Prop where
  blank : P R.blank
  field : ∀ f ∈ R.fields, f.Keeps P

theorem Keeps.takeEntry {P : α → Prop} (h : R.Keeps P) {r r' : α} {entry : String × Json}
    (hr : P r) (hentry : R.takeEntry r entry = .ok r') : P r' := by
  rw [Record.takeEntry] at hentry
  split at hentry
  · next f hf => exact h.field f (List.mem_of_find?_eq_some hf) _ r r' hr hentry
  · cases hentry
    exact hr

theorem Keeps.foldlM_takeEntry {P : α → Prop} (h : R.Keeps P) (fields : List (String × Json))
    {r r' : α} (hr : P r) (hfields : fields.foldlM R.takeEntry r = .ok r') : P r' := by
  induction fields generalizing r with
  | nil =>
    cases hfields
    exact hr
  | cons entry rest ih =>
    rw [List.foldlM_cons] at hfields
    obtain ⟨next, hentry, hrest⟩ := bind_eq_ok.1 hfields
    exact ih (h.takeEntry hr hentry) hrest

theorem Keeps.takeItems {P : α → Prop} {fs : List (Field α)}
    (h : ∀ f ∈ fs, f.Keeps P) {items rest : List Json} {r r' : α}
    (hr : P r) (hitems : Record.takeItems fs items r = .ok (r', rest)) : P r' := by
  induction fs generalizing items r with
  | nil =>
    cases hitems
    exact hr
  | cons f fs ih =>
    cases items with
    | nil =>
      cases hitems
      exact hr
    | cons j js =>
      rw [Record.takeItems] at hitems
      obtain ⟨next, hread, hrest⟩ := bind_eq_ok.1 hitems
      obtain ⟨hf, hfs⟩ := List.forall_mem_cons.1 h
      exact ih hfs (hf j r next hr hread) hrest

/-- **What every field of a record keeps, the record that is read has**, from an object or from
an array. -/
theorem Keeps.read {P : α → Prop} (h : R.Keeps P) {j : Json} {r : α} (hread : R.read j = .ok r) :
    P r := by
  match j with
  | .object fields => exact h.foldlM_takeEntry fields h.blank hread
  | .array items =>
    rw [Record.read] at hread
    obtain ⟨⟨next, rest⟩, hitems, hrest⟩ := bind_eq_ok.1 hread
    have hnext : P next := Keeps.takeItems h.field h.blank hitems
    dsimp only at hrest
    split at hrest
    · cases hrest
      exact hnext
    · cases hrest
  | .null | .bool _ | .number _ | .string _ => cases hread

/-! ### What reading does not see -/

/-- A change that every field but one ignores is not seen by entries under other keys. -/
theorem takeEntry_map {change : α → α} {key : String}
    (h : ∀ f ∈ R.fields, f.name ≠ key → f.Ignores change) {entry : String × Json}
    (hentry : entry.1 ≠ key) (r : α) :
    R.takeEntry (change r) entry = (R.takeEntry r entry).map change := by
  rw [takeEntry, takeEntry]
  cases hfind : R.find? entry.1 with
  | none => rfl
  | some f =>
    have hfound : R.fields.find? (·.name == entry.1) = some f := hfind
    have hname : f.name = entry.1 := by simpa using List.find?_some hfound
    exact h f (List.mem_of_find?_eq_some hfound) (hname ▸ hentry) entry.2 r

/-- Such a change can be made before an object is read or after. -/
theorem foldlM_takeEntry_map {change : α → α} {key : String}
    (h : ∀ f ∈ R.fields, f.name ≠ key → f.Ignores change) {fields : List (String × Json)}
    (hfields : ∀ entry ∈ fields, entry.1 ≠ key) (r : α) :
    fields.foldlM R.takeEntry (change r) = (fields.foldlM R.takeEntry r).map change := by
  induction fields generalizing r with
  | nil => rfl
  | cons entry rest ih =>
    obtain ⟨hentry, hrest⟩ := List.forall_mem_cons.1 hfields
    rw [List.foldlM_cons, List.foldlM_cons, takeEntry_map h hentry]
    cases R.takeEntry r entry with
    | error e => rfl
    | ok next => exact ih hrest next

end Record
end UiSuite.Json
