/-
# Key-value stores

The store that holds code, languages and data: a table of unbounded size, a bounded
store, or a named logical store, which lives under keys of its own inside another store.
Reads answer with the store after them, because a bounded store remembers what was read.
-/

import ContractHost.Naming
import ContractHost.Store.Bounded

namespace ContractHost

/-- A store of unbounded size. -/
abbrev MemoryStore := Table Bytes Bytes

namespace MemoryStore

/-- The keys that start with the given octets, ascending. -/
def keysStarting (s : MemoryStore) (start : Bytes) : List Bytes :=
  s.keys.filter fun key => start.isPrefixOf key

end MemoryStore

/-- A key-value store of any kind. -/
inductive Store
  | memory (table : MemoryStore)
  | bounded (store : BoundedStore)
  | logical (name : String) (inner : Store)

namespace Store

instance : Inhabited Store := ⟨.memory .empty⟩

/-- The number of keys, those of other logical stores in the same place included. -/
def size : Store → Nat
  | memory table => table.size
  | bounded store => store.size
  | logical _ inner => inner.size

/-- The value under a key, without counting as use. -/
def peek? : Store → Bytes → Option Bytes
  | memory table, key => table.get? key
  | bounded store, key => store.peek? key
  | logical name inner, key => inner.peek? (StoreKey.logical name key)

/-- Reads a key. -/
def get? : Store → Bytes → Option Bytes × Store
  | memory table, key => (table.get? key, memory table)
  | bounded store, key =>
    let (value, store) := store.get? key
    (value, bounded store)
  | logical name inner, key =>
    let (value, inner) := inner.get? (StoreKey.logical name key)
    (value, logical name inner)

/-- Writes a key. -/
def put : Store → Bytes → Bytes → Store
  | memory table, key, value => memory (table.insert key value)
  | bounded store, key, value => bounded (store.put key value)
  | logical name inner, key, value => logical name (inner.put (StoreKey.logical name key) value)

/-- Removes a key; a missing one is no fault. -/
def delete : Store → Bytes → Store
  | memory table, key => memory (table.erase key)
  | bounded store, key => bounded (store.delete key)
  | logical name inner, key => logical name (inner.delete (StoreKey.logical name key))

end Store

end ContractHost
