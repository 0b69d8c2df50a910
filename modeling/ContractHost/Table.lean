/-
# Ordered tables

A finite map, kept as the list of its entries in strictly ascending order of the keys'
bytes. Two tables that answer every lookup alike are equal, so a table is its own
canonical form: what it lists is what it holds, in the only possible order.
-/

import ContractHost.Bytes

namespace ContractHost

open ByteKey (bytes)

/-- A finite map from keys that byte strings identify. -/
structure Table (κ : Type) (α : Type) [ByteKey κ] where
  entries : List (κ × α)
  ascending : entries.Pairwise fun a b => bytes a.1 < bytes b.1

namespace Table

variable {κ α : Type} [ByteKey κ]

theorem ext {s t : Table κ α} (h : s.entries = t.entries) : s = t := by
  cases s; cases t; cases h; rfl

instance [DecidableEq κ] [DecidableEq α] : DecidableEq (Table κ α) := fun s t =>
  if h : s.entries = t.entries then isTrue (ext h) else isFalse fun e => h (e ▸ rfl)

/-- The table without entries. -/
def empty : Table κ α := ⟨[], .nil⟩

instance : EmptyCollection (Table κ α) := ⟨empty⟩

instance : Inhabited (Table κ α) := ⟨empty⟩

/-- The number of keys. -/
def size (t : Table κ α) : Nat := t.entries.length

/-- The keys, ascending. -/
def keys (t : Table κ α) : List κ := t.entries.map (·.1)

/-- The value under a key. -/
def get? (t : Table κ α) (k : κ) : Option α :=
  (t.entries.find? fun e => bytes e.1 == bytes k).map (·.2)

/-- True of the keys in the table. -/
def contains (t : Table κ α) (k : κ) : Bool := (t.get? k).isSome

/-- Puts an entry at its place among ascending entries, over any entry of the same key. -/
def place (k : κ) (v : α) : List (κ × α) → List (κ × α)
  | [] => [(k, v)]
  | e :: rest =>
    if bytes k < bytes e.1 then (k, v) :: e :: rest
    else if bytes e.1 < bytes k then e :: place k v rest
    else (k, v) :: rest

theorem mem_place {k : κ} {v : α} {e : κ × α} {es : List (κ × α)} (h : e ∈ place k v es) :
    e = (k, v) ∨ e ∈ es := by
  induction es with
  | nil => simpa [place] using h
  | cons d rest ih =>
    rw [place] at h
    split at h
    · simpa using h
    · split at h
      · rcases List.mem_cons.1 h with rfl | h
        · exact .inr (List.mem_cons_self ..)
        · exact (ih h).imp_right (List.mem_cons_of_mem _)
      · exact (List.mem_cons.1 h).imp_right (List.mem_cons_of_mem _)

theorem bytes_eq_of_not_lt {a b : Bytes} (hab : ¬ a < b) (hba : ¬ b < a) : a = b :=
  List.le_antisymm (List.not_lt.1 hba) (List.not_lt.1 hab)

theorem ascending_place (k : κ) (v : α) {es : List (κ × α)}
    (h : es.Pairwise fun a b => bytes a.1 < bytes b.1) :
    (place k v es).Pairwise fun a b => bytes a.1 < bytes b.1 := by
  induction es with
  | nil => simp [place]
  | cons d rest ih =>
    obtain ⟨hd, hrest⟩ := List.pairwise_cons.1 h
    rw [place]
    split
    · next hk =>
      refine List.pairwise_cons.2 ⟨fun e he => ?_, h⟩
      rcases List.mem_cons.1 he with rfl | he
      · exact hk
      · exact List.lt_trans hk (hd e he)
    · next hk =>
      split
      · next hk' =>
        refine List.pairwise_cons.2 ⟨fun e he => ?_, ih hrest⟩
        rcases mem_place he with rfl | he
        · exact hk'
        · exact hd e he
      · next hk' =>
        refine List.pairwise_cons.2 ⟨fun e he => ?_, hrest⟩
        have same : bytes k = bytes d.1 := bytes_eq_of_not_lt hk hk'
        exact same ▸ hd e he

/-- The table with a value under a key, in place of any earlier one. -/
def insert (t : Table κ α) (k : κ) (v : α) : Table κ α :=
  ⟨place k v t.entries, ascending_place k v t.ascending⟩

theorem find?_place (k k' : κ) (v : α) (es : List (κ × α)) :
    ((place k v es).find? fun e => bytes e.1 == bytes k').map (·.2) =
      if bytes k' = bytes k then some v
      else (es.find? fun e => bytes e.1 == bytes k').map (·.2) := by
  induction es with
  | nil => grind [place]
  | cons d rest ih =>
      rw [place]
      split
      · grind
      · split
        · grind
        · next hk hk' =>
          have same : bytes k = bytes d.1 := bytes_eq_of_not_lt hk hk'
          grind

/-- The table without a key. -/
def erase (t : Table κ α) (k : κ) : Table κ α :=
  ⟨t.entries.filter fun e => bytes e.1 != bytes k, t.ascending.filter _⟩

theorem get?_insert_self (t : Table κ α) (k : κ) (v : α) : (t.insert k v).get? k = some v :=
  (find?_place k k v t.entries).trans (if_pos rfl)

theorem get?_insert_of_ne (t : Table κ α) {k k' : κ} (h : k' ≠ k) (v : α) :
    (t.insert k v).get? k' = t.get? k' :=
  (find?_place k k' v t.entries).trans (if_neg fun same => h (ByteKey.bytes_injective same))

theorem get?_erase_of_ne (t : Table κ α) {k k' : κ} (h : k' ≠ k) :
    (t.erase k).get? k' = t.get? k' := by
  have apart : bytes k' ≠ bytes k := fun same => h (ByteKey.bytes_injective same)
  simp only [get?, erase, List.find?_filter]
  congr 2
  funext e
  grind

/-- The table of a list of entries, where the last entry of a key counts. -/
def ofList (es : List (κ × α)) : Table κ α :=
  es.foldl (fun t e => t.insert e.1 e.2) empty

end Table

end ContractHost
