/-
# Stores that agree on some keys

Two stores in memory agree on the keys of a kind if they answer reads of these keys alike.
Agreement lasts when the same is written to both, and when one of them is written to under
other keys.
-/

import ContractHost.Store.Basic

namespace ContractHost

/-- A key that was removed is missing. -/
theorem Table.get?_erase_self {κ α : Type} [ByteKey κ] (t : Table κ α) (k : κ) :
    (t.erase k).get? k = none := by
  simp [get?, erase, List.find?_filter]

namespace Store

/-- Two stores in memory answer reads of the keys of a kind alike. -/
def AgreeOn (P : Bytes → Prop) (s s' : Store) : Prop :=
  ∃ table table', s = .memory table ∧ s' = .memory table' ∧
    ∀ key, P key → table.get? key = table'.get? key

namespace AgreeOn

variable {P : Bytes → Prop} {s s' s'' : Store} {key : Bytes}

theorem refl (table : MemoryStore) : AgreeOn P (.memory table) (.memory table) :=
  ⟨table, table, rfl, rfl, fun _ _ => rfl⟩

theorem get? (agree : AgreeOn P s s') (kind : P key) : (s.get? key).1 = (s'.get? key).1 := by
  obtain ⟨table, table', rfl, rfl, same⟩ := agree
  exact same key kind

theorem peek? (agree : AgreeOn P s s') (kind : P key) : s.peek? key = s'.peek? key := by
  obtain ⟨table, table', rfl, rfl, same⟩ := agree
  exact same key kind

/-- Reading changes neither store. -/
theorem get?_store (agree : AgreeOn P s s') (key : Bytes) :
    (s.get? key).2 = s ∧ (s'.get? key).2 = s' := by
  obtain ⟨table, table', rfl, rfl, _⟩ := agree
  exact ⟨rfl, rfl⟩

/-- The same is written to both stores. -/
theorem put_both (agree : AgreeOn P s s') (key value : Bytes) :
    AgreeOn P (s.put key value) (s'.put key value) := by
  obtain ⟨table, table', rfl, rfl, same⟩ := agree
  refine ⟨_, _, rfl, rfl, fun other kind => ?_⟩
  by_cases here : other = key
  · rw [here, Table.get?_insert_self, Table.get?_insert_self]
  · rw [Table.get?_insert_of_ne _ here, Table.get?_insert_of_ne _ here, same other kind]

theorem delete_both (agree : AgreeOn P s s') (key : Bytes) :
    AgreeOn P (s.delete key) (s'.delete key) := by
  obtain ⟨table, table', rfl, rfl, same⟩ := agree
  refine ⟨_, _, rfl, rfl, fun other kind => ?_⟩
  by_cases here : other = key
  · rw [here, Table.get?_erase_self, Table.get?_erase_self]
  · rw [Table.get?_erase_of_ne _ here, Table.get?_erase_of_ne _ here, same other kind]

/-- One store is written to under a key of another kind. -/
theorem put (agree : AgreeOn P s s') (other : ¬ P key) (value : Bytes) :
    AgreeOn P s (s'.put key value) := by
  obtain ⟨table, table', rfl, rfl, same⟩ := agree
  refine ⟨_, _, rfl, rfl, fun key' kind => ?_⟩
  have apart : key' ≠ key := fun here => other (here ▸ kind)
  rw [Table.get?_insert_of_ne _ apart, same key' kind]

theorem delete (agree : AgreeOn P s s') (other : ¬ P key) : AgreeOn P s (s'.delete key) := by
  obtain ⟨table, table', rfl, rfl, same⟩ := agree
  refine ⟨_, _, rfl, rfl, fun key' kind => ?_⟩
  have apart : key' ≠ key := fun here => other (here ▸ kind)
  rw [Table.get?_erase_of_ne _ apart, same key' kind]

end AgreeOn

end Store

end ContractHost
