import UiSuite.Json.Basic

/-! Fields of objects.

Putting a field into an object keeps its keys in order (`ascending_insert`) and changes what
stands under its own key only (`get?_insert`), so an object built from fields
(`Json.ofFields`) is in order however they come, and fields in order stay as they are. -/
namespace UiSuite.Json

theorem get?_nil (key : String) : get? key [] = none := rfl

theorem get?_cons (key k : String) (v : Json) (fields : List (String × Json)) :
    get? key ((k, v) :: fields) = if k = key then some v else get? key fields := by
  by_cases h : k = key <;> simp [get?, h]

theorem get?_insert (key k : String) (v : Json) (fields : List (String × Json)) :
    get? key (insert k v fields) = if k = key then some v else get? key fields := by
  induction fields with
  | nil => rw [insert, get?_cons]
  | cons field rest ih =>
    obtain ⟨l, w⟩ := field
    unfold insert
    split
    · rw [get?_cons]
    split
    · next hl => subst hl; rw [get?_cons, get?_cons]; split <;> rfl
    · next hl =>
      rw [get?_cons, get?_cons, ih]
      by_cases hkey : l = key
      · rw [if_pos hkey, if_pos hkey, if_neg fun h => hl (h.trans hkey.symm)]
      · rw [if_neg hkey, if_neg hkey]

theorem mem_keys_insert {key k : String} {v : Json} {fields : List (String × Json)} :
    key ∈ (insert k v fields).map (·.1) ↔ key = k ∨ key ∈ fields.map (·.1) := by
  induction fields with
  | nil => simp [insert]
  | cons field rest ih =>
    obtain ⟨l, w⟩ := field
    unfold insert
    split
    · simp
    split
    · next h => simp [h]
    · simp only [List.map_cons, List.mem_cons, ih]
      exact or_left_comm

theorem ascending_cons {k : String} {v : Json} {fields : List (String × Json)} :
    Ascending ((k, v) :: fields) ↔ (∀ l ∈ fields.map (·.1), k < l) ∧ Ascending fields := by
  simp only [Ascending, List.map_cons, List.pairwise_cons]

theorem ascending_insert (k : String) (v : Json) {fields : List (String × Json)}
    (h : Ascending fields) : Ascending (insert k v fields) := by
  induction fields with
  | nil => exact ascending_cons.2 ⟨nofun, h⟩
  | cons field rest ih =>
    obtain ⟨l, w⟩ := field
    obtain ⟨hl, hrest⟩ := ascending_cons.1 h
    unfold insert
    split
    · next hk =>
      refine ascending_cons.2 ⟨?_, h⟩
      intro m hm
      rcases List.mem_cons.1 hm with rfl | hm
      · exact hk
      · exact String.lt_trans hk (hl m hm)
    split
    · next hk => subst hk; exact ascending_cons.2 ⟨hl, hrest⟩
    · next hk hne =>
      refine ascending_cons.2 ⟨?_, ih hrest⟩
      intro m hm
      rcases mem_keys_insert.1 hm with rfl | hm
      · exact Decidable.byContradiction fun hlt =>
          hne (String.le_antisymm (String.not_lt.1 hlt) (String.not_lt.1 hk))
      · exact hl m hm

/-- A key past all others goes to the end. -/
theorem insert_of_forall_lt {k : String} (v : Json) {fields : List (String × Json)}
    (h : ∀ l ∈ fields.map (·.1), l < k) : insert k v fields = fields ++ [(k, v)] := by
  induction fields with
  | nil => rfl
  | cons field rest ih =>
    obtain ⟨l, w⟩ := field
    have hl : l < k := h l List.mem_cons_self
    have hne : k ≠ l := fun he => String.lt_irrefl k (he ▸ hl)
    rw [insert, if_neg (String.lt_asymm hl), if_neg hne,
      ih fun m hm => h m (List.mem_cons_of_mem l hm), List.cons_append]

/-- Fields in order are kept as they are. -/
theorem foldl_insert_append (fields : List (String × Json)) {before : List (String × Json)}
    (h : Ascending (before ++ fields)) :
    fields.foldl (fun acc (k, v) => insert k v acc) before = before ++ fields := by
  induction fields generalizing before with
  | nil => rw [List.foldl_nil, List.append_nil]
  | cons field rest ih =>
    obtain ⟨k, v⟩ := field
    have hbefore : ∀ l ∈ before.map (·.1), l < k := by
      intro l hl
      have hpair := h
      rw [Ascending, List.map_append, List.pairwise_append] at hpair
      exact hpair.2.2 l hl k List.mem_cons_self
    have hnext : before ++ (k, v) :: rest = (before ++ [(k, v)]) ++ rest := by simp
    rw [hnext] at h ⊢
    rw [List.foldl_cons]
    simp only [insert_of_forall_lt v hbefore]
    exact ih h

theorem mem_insert {k : String} {v : Json} {fields : List (String × Json)} {field : String × Json}
    (h : field ∈ insert k v fields) : field = (k, v) ∨ field ∈ fields := by
  induction fields with
  | nil => exact .inl (List.mem_singleton.1 h)
  | cons first rest ih =>
    obtain ⟨l, w⟩ := first
    unfold insert at h
    split at h
    · exact List.mem_cons.1 h
    split at h
    · exact (List.mem_cons.1 h).imp_right (List.mem_cons_of_mem _)
    · rcases List.mem_cons.1 h with rfl | h
      · exact .inr List.mem_cons_self
      · exact (ih h).imp_right (List.mem_cons_of_mem _)

/-- Fields in order fall into those before a key, the one under the key if there is one, and
those after it. -/
theorem exists_split_key (key : String) {fields : List (String × Json)} (h : Ascending fields) :
    ∃ before after, (∀ field ∈ before, field.1 ≠ key) ∧ (∀ field ∈ after, field.1 ≠ key) ∧
      fields = before ++ presentField key (get? key fields) ++ after ∧
      ∀ v, insert key v fields = before ++ (key, v) :: after := by
  induction fields with
  | nil => exact ⟨[], [], nofun, nofun, rfl, fun _ => rfl⟩
  | cons field rest ih =>
    obtain ⟨k, w⟩ := field
    obtain ⟨hk, hrest⟩ := ascending_cons.1 h
    have hpast (field : String × Json) (hf : field ∈ rest) : k < field.1 :=
      hk _ (List.mem_map_of_mem hf)
    by_cases hlt : key < k
    · have hall : ∀ field ∈ (k, w) :: rest, field.1 ≠ key := by
        refine List.forall_mem_cons.2 ⟨fun he => ?_, fun field hf he => ?_⟩
        · exact String.lt_irrefl key (he ▸ hlt)
        · have hbeyond : key < field.1 := String.lt_trans hlt (hpast field hf)
          exact String.lt_irrefl key (he ▸ hbeyond)
      have hget : get? key ((k, w) :: rest) = none := by
        rw [get?, List.find?_eq_none.2 fun field hf => by simpa using hall field hf]
        rfl
      exact ⟨[], (k, w) :: rest, nofun, hall, by rw [hget]; rfl, fun v => if_pos hlt⟩
    by_cases heq : key = k
    · subst heq
      refine ⟨[], rest, nofun, fun field hf he => ?_, ?_, fun v => ?_⟩
      · exact String.lt_irrefl key (he ▸ hpast field hf)
      · rw [get?_cons, if_pos rfl]
        rfl
      · rw [insert, if_neg hlt, if_pos rfl]
        rfl
    · obtain ⟨before, after, hbefore, hafter, hsplit, hinsert⟩ := ih hrest
      have hne : k ≠ key := fun he => heq he.symm
      refine ⟨(k, w) :: before, after, List.forall_mem_cons.2 ⟨hne, hbefore⟩, hafter, ?_,
        fun v => ?_⟩
      · rw [get?_cons, if_neg hne]
        exact congrArg _ hsplit
      · rw [insert, if_neg hlt, if_neg heq, hinsert]
        rfl

/-! ### Objects from fields -/

/-- Fields put in order; of two with one key the later counts. -/
def inOrder (fields : List (String × Json)) : List (String × Json) :=
  fields.foldl (fun acc (k, v) => insert k v acc) []

theorem ofFields_of_ascending {fields : List (String × Json)} (h : Ascending fields) :
    ofFields fields = object fields := by
  have hnil : Ascending ([] ++ fields) := h
  rw [ofFields, foldl_insert_append fields hnil, List.nil_append]

theorem ascending_inOrder (fields : List (String × Json)) : Ascending (inOrder fields) :=
  List.foldlRecOn fields _ List.Pairwise.nil fun _ h field _ => ascending_insert field.1 field.2 h

theorem mem_inOrder (fields : List (String × Json)) :
    ∀ field ∈ inOrder fields, field ∈ fields := by
  apply List.foldlRecOn (motive := fun acc => ∀ field ∈ acc, field ∈ fields)
  · exact nofun
  · intro acc hacc next hnext field hf
    rcases mem_insert hf with rfl | hf
    · exact hnext
    · exact hacc field hf

end UiSuite.Json
