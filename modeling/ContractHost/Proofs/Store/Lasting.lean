/-
# What lasts in a store

What is written under a key stays there until the key itself is written or removed. Only a
bounded store may forget it before: writing another key may take its place. No access makes a
store one of another kind.
-/

import ContractHost.Store.Basic

namespace ContractHost

/-- Inside one logical store, different keys have different places. -/
theorem StoreKey.logical_injective {name : String} {key key' : Bytes}
    (same : logical name key = logical name key') : key = key' :=
  (List.cons.inj (List.append_cancel_left same)).2

namespace BoundedStore

variable (s : BoundedStore) {key other : Bytes}

theorem lookup_others (apart : other ≠ key) :
    (s.others key).lookup other = s.entries.lookup other := by
  unfold others
  induction s.entries with
  | nil => rfl
  | cons entry rest ih => grind

/-- What stands before others in a list is found as if they were not there. -/
theorem lookup_cons_of_ne (apart : other ≠ key) (value : Bytes) (entries : List (Bytes × Bytes)) :
    ((key, value) :: entries).lookup other = entries.lookup other := by
  rw [List.lookup_cons, beq_false_of_ne apart]

/-- Without its last entry a list may lack a key. -/
theorem lookup_dropLast (entries : List (Bytes × Bytes)) (key : Bytes) :
    entries.dropLast.lookup key = entries.lookup key ∨ entries.dropLast.lookup key = none := by
  induction entries with
  | nil => exact .inl rfl
  | cons entry rest ih =>
      cases rest with
      | nil => exact .inr rfl
      | cons => grind

theorem get?_fst (key : Bytes) : (s.get? key).1 = s.peek? key := by
  unfold get?
  cases found : s.peek? key <;> rfl

/-- A read forgets nothing. -/
theorem peek?_get? (key other : Bytes) : (s.get? key).2.peek? other = s.peek? other := by
  unfold get?
  cases found : s.peek? key with
  | none => rfl
  | some value =>
      by_cases here : other = key
      · rw [here, found]
        exact List.lookup_cons_self
      · exact (lookup_cons_of_ne here value _).trans (s.lookup_others here)

theorem peek?_put_self (key value : Bytes) : (s.put key value).peek? key = some value := by
  unfold put
  cases s.peek? key <;> exact List.lookup_cons_self

theorem peek?_put_of_ne (apart : other ≠ key) (value : Bytes) :
    (s.put key value).peek? other = s.peek? other ∨ (s.put key value).peek? other = none := by
  unfold put
  cases s.peek? key with
  | some _ => exact .inl ((lookup_cons_of_ne apart value _).trans (s.lookup_others apart))
  | none =>
      unfold peek?
      rw [lookup_cons_of_ne apart]
      split
      · exact .inl rfl
      · exact lookup_dropLast s.entries other

theorem peek?_delete_of_ne (apart : other ≠ key) : (s.delete key).peek? other = s.peek? other :=
  s.lookup_others apart

end BoundedStore

namespace Store

/-- A store with everything taken out. -/
def emptied : Store → Store
  | memory _ => memory .empty
  | bounded store => bounded { store with entries := [] }
  | logical name inner => logical name inner.emptied

/-- True of the stores that forget keys. -/
def forgets : Store → Bool
  | memory _ => false
  | bounded _ => true
  | logical _ inner => inner.forgets

@[simp]
theorem forgets_emptied (s : Store) : s.emptied.forgets = s.forgets := by
  induction s with
  | memory | bounded => rfl
  | logical name inner ih => exact ih

theorem emptied_get? (s : Store) (key : Bytes) : (s.get? key).2.emptied = s.emptied := by
  induction s generalizing key with
  | memory => rfl
  | bounded store =>
      show bounded { (store.get? key).2 with entries := [] } = _
      unfold BoundedStore.get?
      cases store.peek? key <;> rfl
  | logical name inner ih => exact congrArg (logical name) (ih _)

theorem emptied_put (s : Store) (key value : Bytes) : (s.put key value).emptied = s.emptied := by
  induction s generalizing key with
  | memory => rfl
  | bounded store =>
      show bounded { store.put key value with entries := [] } = _
      unfold BoundedStore.put
      cases store.peek? key <;> rfl
  | logical name inner ih => exact congrArg (logical name) (ih _)

theorem forgets_put (s : Store) (key value : Bytes) : (s.put key value).forgets = s.forgets := by
  rw [← forgets_emptied, emptied_put, forgets_emptied]

theorem emptied_delete (s : Store) (key : Bytes) : (s.delete key).emptied = s.emptied := by
  induction s generalizing key with
  | memory | bounded => rfl
  | logical name inner ih => exact congrArg (logical name) (ih _)

theorem get?_fst (s : Store) (key : Bytes) : (s.get? key).1 = s.peek? key := by
  induction s generalizing key with
  | memory => rfl
  | bounded store => exact store.get?_fst key
  | logical name inner ih => exact ih _

theorem peek?_get? (s : Store) (key other : Bytes) :
    (s.get? key).2.peek? other = s.peek? other := by
  induction s generalizing key other with
  | memory => rfl
  | bounded store => exact store.peek?_get? key other
  | logical name inner ih => exact ih _ _

theorem peek?_put_self (s : Store) (key value : Bytes) :
    (s.put key value).peek? key = some value := by
  induction s generalizing key with
  | memory table => exact table.get?_insert_self key value
  | bounded store => exact store.peek?_put_self key value
  | logical name inner ih => exact ih _

/-- What was written under a key is there, unless it was forgotten. -/
def Shows (s : Store) (key : Bytes) (value? : Option Bytes) : Prop :=
  s.peek? key = value? ∨ s.forgets = true ∧ s.peek? key = none

theorem Shows.peek? {s : Store} {key : Bytes} {value? : Option Bytes}
    (shows : s.Shows key value?) (lasting : s.forgets = false) : s.peek? key = value? := by
  rcases shows with same | ⟨forgets, _⟩
  · exact same
  · exact absurd (lasting.symm.trans forgets) nofun

theorem shows_put_of_ne (s : Store) {key other : Bytes} (apart : other ≠ key) (value : Bytes) :
    (s.put key value).Shows other (s.peek? other) := by
  induction s generalizing key other with
  | memory table => exact .inl (table.get?_insert_of_ne apart value)
  | bounded store => exact (store.peek?_put_of_ne apart value).imp_right fun lost => ⟨rfl, lost⟩
  | logical name inner ih => exact ih fun same => apart (StoreKey.logical_injective same)

theorem peek?_delete_of_ne (s : Store) {key other : Bytes} (apart : other ≠ key) :
    (s.delete key).peek? other = s.peek? other := by
  induction s generalizing key other with
  | memory table => exact table.get?_erase_of_ne apart
  | bounded store => exact store.peek?_delete_of_ne apart
  | logical name inner ih => exact ih fun same => apart (StoreKey.logical_injective same)

/-- From one store to the next only keys of other kinds were written or removed. -/
structure Keeps (P : Bytes → Prop) (s t : Store) : Prop where
  emptied : t.emptied = s.emptied
  shows : ∀ key, P key → t.Shows key (s.peek? key)

namespace Keeps

variable {P Q : Bytes → Prop} {s t u : Store} {key : Bytes}

theorem forgets (keeps : Keeps P s t) : t.forgets = s.forgets := by
  rw [← forgets_emptied t, keeps.emptied, forgets_emptied]

theorem refl (s : Store) : Keeps P s s := ⟨rfl, fun _ _ => .inl rfl⟩

theorem mono (keeps : Keeps P s t) (fewer : ∀ key, Q key → P key) : Keeps Q s t :=
  ⟨keeps.emptied, fun key kind => keeps.shows key (fewer key kind)⟩

/-- What a store shows, it shows later on. -/
theorem lasts (keeps : Keeps P s t) (kind : P key) {value? : Option Bytes}
    (shows : s.Shows key value?) : t.Shows key value? := by
  rcases keeps.shows key kind with same | lost
  · unfold Shows
    rw [same, keeps.forgets]
    exact shows
  · exact .inr lost

theorem trans (first : Keeps P s t) (second : Keeps P t u) : Keeps P s u :=
  ⟨second.emptied.trans first.emptied, fun key kind => second.lasts kind (first.shows key kind)⟩

theorem get? (s : Store) (key : Bytes) : Keeps P s (s.get? key).2 :=
  ⟨s.emptied_get? key, fun other _ => .inl (s.peek?_get? key other)⟩

theorem put (s : Store) (other : ¬ P key) (value : Bytes) : Keeps P s (s.put key value) where
  emptied := s.emptied_put key value
  shows := by
    intro key' kind
    have apart : key' ≠ key := fun same => other (same ▸ kind)
    exact s.shows_put_of_ne apart value

theorem delete (s : Store) (other : ¬ P key) : Keeps P s (s.delete key) where
  emptied := s.emptied_delete key
  shows := by
    intro key' kind
    have apart : key' ≠ key := fun same => other (same ▸ kind)
    exact .inl (s.peek?_delete_of_ne apart)

/-- A store in memory stays one, and forgets nothing. -/
theorem inMemory {table : MemoryStore} (keeps : Keeps P (.memory table) t) :
    ∃ table', t = .memory table' ∧ ∀ key, P key → table'.get? key = table.get? key := by
  obtain ⟨emptied, shows⟩ := keeps
  cases t with
  | memory table' =>
      refine ⟨table', rfl, fun key kind => ?_⟩
      rcases shows key kind with same | ⟨forgets, _⟩
      · exact same
      · cases forgets
  | bounded | logical => cases emptied

end Keeps

end Store

end ContractHost
