/-
# The bounded store

A store that holds at most a given number of keys and forgets the one that was used
longest ago when a new key finds it full. Reading a key that is there and writing a key
both count as use, so the entries are kept with the latest used first.
-/

import ContractHost.Error

namespace ContractHost

/-- A store that keeps the most recently used keys. -/
structure BoundedStore where
  capacity : Nat
  entries : List (Bytes × Bytes)
deriving DecidableEq, Repr

namespace BoundedStore

/-- The empty store of a capacity, which is at least one. -/
def ofCapacity (capacity : Nat) : BoundedStore := ⟨max capacity 1, []⟩

/-- The number of keys. -/
def size (s : BoundedStore) : Nat := s.entries.length

/-- The value under a key, which does not count as use. -/
def peek? (s : BoundedStore) (key : Bytes) : Option Bytes := s.entries.lookup key

/-- The entries without those of a key. -/
def others (s : BoundedStore) (key : Bytes) : List (Bytes × Bytes) :=
  s.entries.filter fun e => e.1 != key

/-- Reads a key. A key that is there becomes the latest used. -/
def get? (s : BoundedStore) (key : Bytes) : Option Bytes × BoundedStore :=
  match s.peek? key with
  | some value => (some value, { s with entries := (key, value) :: s.others key })
  | none => (none, s)

/-- Writes a key, which becomes the latest used. A new key in a full store takes the
place of the one used longest ago. -/
def put (s : BoundedStore) (key value : Bytes) : BoundedStore :=
  match s.peek? key with
  | some _ => { s with entries := (key, value) :: s.others key }
  | none =>
    let kept := if s.size < s.capacity then s.entries else s.entries.dropLast
    { s with entries := (key, value) :: kept }

/-- Removes a key. -/
def delete (s : BoundedStore) (key : Bytes) : BoundedStore :=
  { s with entries := s.others key }

/-- Raises the capacity. A capacity that is not larger is refused. -/
def enlarge (s : BoundedStore) (capacity : Nat) : Except StoreError BoundedStore :=
  if s.capacity < capacity then .ok { s with capacity }
  else .error (.capacityShrink capacity s.capacity)

end BoundedStore

end ContractHost
