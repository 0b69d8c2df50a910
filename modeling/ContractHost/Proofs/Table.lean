/-
# Tables by their lookups

The entries of a table ascend strictly, so a lookup finds an entry just when it is in the table,
and a table is determined by its lookups. A table that is made from a list of entries answers
with the last entry of a key.
-/

import ContractHost.Table
import Mathlib.Data.List.Induction

namespace ContractHost

open ByteKey (bytes)

section Last

variable {κ α : Type} [DecidableEq κ]

/-- The value of the last entry with a key. -/
def lastValue? (key : κ) (entries : List (κ × α)) : Option α :=
  ((entries.filter fun entry => entry.1 = key).getLast?).map (·.2)

theorem lastValue?_append (key : κ) (entries : List (κ × α)) (entry : κ × α) :
    lastValue? key (entries ++ [entry]) =
      if entry.1 = key then some entry.2 else lastValue? key entries := by
  unfold lastValue?
  rw [List.filter_append]
  by_cases same : entry.1 = key
  · rw [List.filter_cons_of_pos (by simpa using same), List.getLast?_append, if_pos same]
    rfl
  · rw [List.filter_cons_of_neg (by simpa using same), List.filter_nil, List.append_nil,
      if_neg same]

/-- There is a last entry with a key if there is any. -/
theorem lastValue?_isSome_iff {key : κ} {entries : List (κ × α)} :
    (lastValue? key entries).isSome ↔ key ∈ entries.map (·.1) := by
  unfold lastValue?
  rw [Option.isSome_map, List.getLast?_isSome, Ne, List.filter_eq_nil_iff]
  simp

/-- Where no two entries have the same key, every entry is the last one with its key. -/
theorem lastValue?_eq_some_iff {key : κ} {value : α} {entries : List (κ × α)}
    (distinct : (entries.map (·.1)).Nodup) :
    lastValue? key entries = some value ↔ (key, value) ∈ entries := by
  induction entries using List.reverseRecOn with
  | nil => simp [lastValue?]
  | append_singleton entries entry ih =>
      rw [List.map_append, List.nodup_append] at distinct
      obtain ⟨distinct, -, apart⟩ := distinct
      rw [lastValue?_append, List.mem_append, List.mem_singleton]
      obtain ⟨other, content⟩ := entry
      by_cases same : other = key
      · subst same
        have absent : (other, value) ∉ entries := fun mem =>
          apart other (List.mem_map_of_mem mem) other (List.mem_singleton.2 rfl) rfl
        simp [absent, eq_comm]
      · simp [same, ih distinct, Ne.symm same]

end Last

namespace Table

variable {κ α : Type} [ByteKey κ]

/-- A lookup finds what is in the table. -/
theorem get?_eq_some_iff {t : Table κ α} {key : κ} {value : α} :
    t.get? key = some value ↔ (key, value) ∈ t.entries := by
  obtain ⟨entries, ascending⟩ := t
  show (entries.find? fun e => bytes e.1 == bytes key).map (·.2) = some value ↔ _
  induction entries with
  | nil => simp
  | cons entry rest ih =>
      obtain ⟨above, ascending⟩ := List.pairwise_cons.1 ascending
      by_cases same : bytes entry.1 = bytes key
      · rw [List.find?_cons_of_pos (by simpa using same), Option.map_some, List.mem_cons]
        obtain ⟨other, content⟩ := entry
        obtain rfl : other = key := ByteKey.bytes_injective same
        constructor
        · rintro ⟨⟩
          exact .inl rfl
        · rintro (here | later)
          · cases here
            rfl
          · exact absurd (above _ later) (List.lt_irrefl _)
      · rw [List.find?_cons_of_neg (by simpa using same), ih ascending, List.mem_cons]
        refine ⟨.inr, fun mem => mem.resolve_left fun here => same ?_⟩
        rw [← here]

theorem entries_nodup (t : Table κ α) : t.entries.Nodup :=
  t.ascending.imp fun {a b} less (same : a = b) => List.lt_irrefl _ (same ▸ less)

/-- A table is determined by its lookups. -/
theorem eq_of_get? {s t : Table κ α} (same : ∀ key, s.get? key = t.get? key) : s = t := by
  have perm : s.entries.Perm t.entries := by
    rw [List.perm_ext_iff_of_nodup s.entries_nodup t.entries_nodup]
    rintro ⟨key, value⟩
    rw [← get?_eq_some_iff, ← get?_eq_some_iff, same]
  exact ext (perm.eq_of_pairwise
    (fun _ _ _ _ less more => absurd (List.lt_trans less more) (List.lt_irrefl _))
    s.ascending t.ascending)

/-- Of entries that are added to a table one after another, the last one of a key counts. -/
theorem get?_foldl_insert [DecidableEq κ] (t : Table κ α) (entries : List (κ × α)) (key : κ) :
    (entries.foldl (fun t e => t.insert e.1 e.2) t).get? key =
      (lastValue? key entries).or (t.get? key) := by
  induction entries using List.reverseRecOn with
  | nil => rfl
  | append_singleton entries entry ih =>
      rw [List.foldl_append, List.foldl_cons, List.foldl_nil, lastValue?_append]
      by_cases same : entry.1 = key
      · rw [if_pos same, ← same, get?_insert_self, Option.some_or]
      · rw [if_neg same, get?_insert_of_ne _ (Ne.symm same), ih]

/-- Of the entries that a table is made from, the last one of a key counts. -/
theorem get?_ofList [DecidableEq κ] (entries : List (κ × α)) (key : κ) :
    (ofList entries).get? key = lastValue? key entries :=
  (get?_foldl_insert empty entries key).trans Option.or_none

theorem keys_nodup (t : Table κ α) : (t.entries.map (·.1)).Nodup :=
  List.pairwise_map.2 (t.ascending.imp fun {a b} less (same : a.1 = b.1) =>
    List.lt_irrefl _ (same ▸ less))

/-- A key is in a table if a lookup finds something. -/
theorem isSome_get?_iff {t : Table κ α} {key : κ} : (t.get? key).isSome ↔ key ∈ t.keys := by
  rw [Option.isSome_iff_exists, keys, List.mem_map]
  constructor
  · rintro ⟨value, found⟩
    exact ⟨(key, value), get?_eq_some_iff.1 found, rfl⟩
  · rintro ⟨⟨_, value⟩, inside, rfl⟩
    exact ⟨value, get?_eq_some_iff.2 inside⟩

/-- A table can be made from its entries in any order. -/
theorem ofList_perm [DecidableEq κ] {t : Table κ α} {entries : List (κ × α)}
    (perm : entries.Perm t.entries) : ofList entries = t := by
  have distinct : (entries.map (·.1)).Nodup := (perm.map _).nodup_iff.2 t.keys_nodup
  refine eq_of_get? fun key => Option.ext fun value => ?_
  rw [get?_ofList, lastValue?_eq_some_iff distinct, get?_eq_some_iff, perm.mem_iff]

end Table

end ContractHost
