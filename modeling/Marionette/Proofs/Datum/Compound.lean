import Marionette.Datum.Basic

/-!
# Compounds as tables

- `Compound.get?_insert`, `Compound.get?_erase_of_ne`: looking up after a change.
- `Compound.insert_eq_self`, `Compound.insert_insert`, `Compound.insert_comm_of_contains`: changes
  after one another.
- `Compound.get?_merge`: looking up after data was merged in.
-/

namespace Marionette

namespace Compound

variable {c entries : Compound} {key k : String} {value v : Datum}

theorem get?_cons (e : String × Datum) (rest : Compound) (k : String) :
    get? (e :: rest) k = if e.1 = k then some e.2 else get? rest k := by
  unfold get?
  rw [List.find?_cons]
  by_cases h : e.1 = k
  · simp [h]
  · simp [h, beq_false_of_ne h]

theorem get?_insert (c : Compound) (key k : String) (value : Datum) :
    get? (c.insert key value) k = if key = k then some value else get? c k := by
  induction c with
  | nil => exact get?_cons (key, value) [] k
  | cons e rest ih =>
    obtain ⟨key', value'⟩ := e
    rw [insert]
    by_cases hkey : key' = key
    · rw [if_pos hkey, get?_cons, get?_cons, hkey]
      split <;> rfl
    · rw [if_neg hkey, get?_cons, get?_cons, ih]
      by_cases hk : key' = k
      · rw [if_pos hk, if_neg fun h => hkey (hk.trans h.symm), if_pos hk]
      · rw [if_neg hk, if_neg hk]

theorem get?_erase_of_ne (c : Compound) (h : k ≠ key) : get? (c.erase key) k = get? c k := by
  induction c with
  | nil => rfl
  | cons e rest ih =>
    unfold erase at ih ⊢
    rw [List.filter_cons]
    split
    · rw [get?_cons, get?_cons, ih]
    · rename_i hkey
      rw [ih, get?_cons, if_neg]
      intro hk
      exact h (hk.symm.trans (by simpa using hkey))

/-- Setting what is set already changes nothing. -/
theorem insert_eq_self (h : get? c key = some value) : c.insert key value = c := by
  induction c with
  | nil => cases h
  | cons e rest ih =>
    obtain ⟨key', value'⟩ := e
    rw [get?_cons] at h
    rw [insert]
    split
    · next heq =>
      rw [if_pos heq] at h
      obtain rfl : value' = value := Option.some.inj h
      rw [heq]
    · next hne =>
      rw [if_neg hne] at h
      rw [ih h]

/-- Of two values of a key, the later one stays. -/
theorem insert_insert (c : Compound) (key : String) (value value' : Datum) :
    (c.insert key value).insert key value' = c.insert key value' := by
  induction c with
  | nil => rw [insert, insert, insert, if_pos rfl]
  | cons e rest ih =>
    obtain ⟨key', old⟩ := e
    rw [insert]
    split
    · next heq => rw [insert, if_pos heq, insert, if_pos heq]
    · next hne => rw [insert, if_neg hne, ih, insert, if_neg hne]

/-- A key that is there keeps its place, so it does not matter when it gets another value. -/
theorem insert_comm_of_contains (hne : key ≠ k) (hkey : (get? c key).isSome = true) :
    (c.insert k v).insert key value = (c.insert key value).insert k v := by
  induction c with
  | nil => cases hkey
  | cons e rest ih =>
    obtain ⟨key', old⟩ := e
    rw [get?_cons] at hkey
    by_cases heq : key' = key
    · have hk : key' ≠ k := fun h => hne (heq.symm.trans h)
      rw [insert, if_neg hk, insert, if_pos heq, insert, if_pos heq, insert, if_neg hk]
    · rw [if_neg heq] at hkey
      by_cases hk : key' = k
      · rw [insert, if_pos hk, insert, if_neg heq, insert, if_neg heq, insert, if_pos hk]
      · rw [insert, if_neg hk, insert, if_neg heq, insert, if_neg heq, insert, if_neg hk, ih hkey]

/-- Keys that are not merged in keep their values. -/
theorem get?_merge_of_ne (c : Compound) (h : ∀ e ∈ entries, e.1 ≠ k) :
    get? (c.merge entries) k = get? c k := by
  induction entries generalizing c with
  | nil => rfl
  | cons e rest ih =>
    obtain ⟨key, value⟩ := e
    rw [merge, ih _ fun e he => h e (List.mem_cons_of_mem _ he), get?_insert,
      if_neg (h (key, value) List.mem_cons_self)]

/-- Merging more is merging it afterwards. -/
theorem merge_append (c entries more : Compound) :
    c.merge (entries ++ more) = (c.merge entries).merge more := by
  induction entries generalizing c with
  | nil => rw [List.nil_append, merge]
  | cons e rest ih =>
    obtain ⟨key, value⟩ := e
    rw [List.cons_append, merge, merge, ih]

/-- A number that is merged in replaces what was there. -/
theorem get?_merge_int (c : Compound) (k : String) (v : Int32) :
    get? (c.merge [(k, .int v)]) k = some (.int v) := by
  rw [merge, merge, get?_insert, if_pos rfl]
  rfl

/-- A list that is merged in replaces what was there. -/
theorem get?_merge_list (c : Compound) (items : List Datum) (h : ∀ e ∈ entries, e.1 ≠ k) :
    get? (c.merge ((k, .list items) :: entries)) k = some (.list items) := by
  rw [merge, get?_merge_of_ne _ h, get?_insert, if_pos rfl]
  rfl

end Compound

end Marionette
