/-
# A cache without the code of one contract

What a cache does for one contract depends on the code of no other contract, and does
nothing to it: what is found, what is dropped, and what is released by that is the same
whether or not the cache has code of some other contract.
-/

import ContractHost.Proofs.CodeCache.Ledger

namespace ContractHost.CodeCache

variable {M : Type} {cache : CodeCache M} {name other : String}

/-- The cache without the code of a contract. -/
def without (cache : CodeCache M) (name : String) : CodeCache M :=
  { cache with entries := cache.entries.filter fun code => code.name != name }

/-- The code that is cached for a contract. -/
def codeOf (cache : CodeCache M) (name : String) : List (CompiledCode M) :=
  cache.entries.filter fun code => code.name == name

theorem mem_codeOf {code : CompiledCode M} :
    code ∈ cache.codeOf name ↔ code ∈ cache.entries ∧ code.name = name := by
  rw [codeOf, List.mem_filter, beq_iff_eq]

/-- The serial numbers of the code of a contract are those of no other code. -/
def Separate (cache : CodeCache M) (name : String) : Prop :=
  ∀ own ∈ cache.codeOf name, own.serial < cache.compiled ∧
    ∀ code ∈ cache.entries, code.name ≠ name → code.serial ≠ own.serial

/-- No code of a contract has a serial number. -/
def Foreign (cache : CodeCache M) (name : String) (serial : Nat) : Prop :=
  ∀ own ∈ cache.codeOf name, own.serial ≠ serial

theorem Separate.foreign (separate : cache.Separate name) {code : CompiledCode M}
    (cached : code ∈ cache.entries) (apart : code.name ≠ name) :
    cache.Foreign name code.serial :=
  fun own mem => ((separate own mem).2 code cached apart).symm

/-- The serial number that comes next is nobody's. -/
theorem Separate.foreign_compiled (separate : cache.Separate name) :
    cache.Foreign name cache.compiled :=
  fun own mem => Nat.ne_of_lt (separate own mem).1

theorem WellFormed.separate (formed : cache.WellFormed) (name : String) : cache.Separate name := by
  intro own mem
  obtain ⟨cached, named⟩ := mem_codeOf.1 mem
  refine ⟨formed.cached own cached, fun code cached' apart same => ?_⟩
  have one := List.inj_on_of_nodup_map formed.serials cached' cached same
  exact apart (one ▸ named)

theorem find?_without (apart : other ≠ name) :
    (cache.without name).find? other = cache.find? other := by
  unfold find? without
  rw [List.find?_filter]
  congr 1
  funext code
  by_cases named : code.name = other
  · simp [named, apart]
  · simp [named]

/-- What is held apart from the code of a contract is held without it. -/
theorem holds_without {serial : Nat} (foreign : cache.Foreign name serial) :
    (cache.without name).holds serial = cache.holds serial := by
  have held (code : CompiledCode M) (mem : code ∈ cache.entries) (same : code.serial = serial) :
      code.name ≠ name := fun named => foreign code (mem_codeOf.2 ⟨mem, named⟩) same
  apply Bool.eq_iff_iff.2
  rw [holds_iff, holds_iff]
  refine or_congr_left ⟨?_, ?_⟩
  · rintro ⟨code, mem, same⟩
    exact ⟨code, (List.mem_filter.1 mem).1, same⟩
  · rintro ⟨code, mem, same⟩
    exact ⟨code, List.mem_filter.2 ⟨mem, bne_iff_ne.2 (held code mem same)⟩, same⟩

/-! ## The code of another contract is compiled -/

section Insert

variable (apart : other ≠ name) (bytecode : Bytes) (module : M)

include apart

theorem without_insert : (cache.insert other bytecode module).2.without name =
    ((cache.without name).insert other bytecode module).2 := by
  simp [insert, without, apart]

theorem codeOf_insert :
    (cache.insert other bytecode module).2.codeOf name = cache.codeOf name := by
  simp [insert, codeOf, apart]

theorem Separate.insert (separate : cache.Separate name) :
    (cache.insert other bytecode module).2.Separate name := by
  intro own mem
  rw [codeOf_insert apart] at mem
  obtain ⟨ahead, others⟩ := separate own mem
  refine ⟨Nat.lt_succ_of_lt ahead, fun code cached apart => ?_⟩
  rcases List.mem_cons.1 cached with rfl | cached
  · exact Nat.ne_of_gt ahead
  · exact others code cached apart

end Insert

/-- With fewer entries the code of a contract stays apart. -/
theorem Separate.of_subset {after : CodeCache M} (separate : cache.Separate name)
    (compiled : after.compiled = cache.compiled) (kept : after.codeOf name = cache.codeOf name)
    (fewer : after.entries ⊆ cache.entries) : after.Separate name := by
  intro own mem
  obtain ⟨ahead, others⟩ := separate own (kept ▸ mem)
  exact ⟨compiled ▸ ahead, fun code cached => others code (fewer cached)⟩

/-! ## The code of another contract is dropped -/

section Remove

variable (apart : other ≠ name)

include apart

theorem remove_without (separate : cache.Separate name) :
    (cache.without name).remove other =
      ((cache.remove other).1, (cache.remove other).2.without name) := by
  unfold remove
  rw [find?_without apart]
  cases found : cache.find? other with
  | none => rfl
  | some code =>
      obtain ⟨cached, named⟩ := find?_eq_some found
      -- what is left without the contract is the rest without the contract
      have left : ({ cache.without name with
            entries := (cache.without name).entries.filter fun code => code.name != other } :
              CodeCache M) =
          ({ cache with entries := cache.entries.filter fun code => code.name != other } :
            CodeCache M).without name := by
        simp only [without]
        congr 1
        exact List.filter_comm ..
      dsimp only
      rw [left, holds_without]
      intro own mem
      obtain ⟨mem, named'⟩ := mem_codeOf.1 mem
      have mem : own ∈ cache.entries := (List.mem_filter.1 mem).1
      exact separate.foreign cached (named ▸ apart) own (mem_codeOf.2 ⟨mem, named'⟩)

theorem codeOf_remove : (cache.remove other).2.codeOf name = cache.codeOf name := by
  unfold remove
  cases cache.find? other with
  | none => rfl
  | some _ =>
      simp only [codeOf, List.filter_filter]
      refine List.filter_congr fun code _ => ?_
      by_cases named : code.name = name
      · simp [named, apart.symm]
      · simp [named]

theorem Separate.remove (separate : cache.Separate name) :
    (cache.remove other).2.Separate name := by
  refine separate.of_subset ?_ (codeOf_remove apart) ?_
  · unfold CodeCache.remove
    cases cache.find? other <;> rfl
  · unfold CodeCache.remove
    cases cache.find? other with
    | none => exact List.Subset.refl _
    | some _ => exact List.filter_sublist.subset

end Remove

/-! ## A lease is given back -/

/-- Code that is none of a contract's is given back. -/
theorem giveBack_without {code : CompiledCode M} (foreign : cache.Foreign name code.serial) :
    (cache.without name).giveBack code =
      ((cache.giveBack code).1, (cache.giveBack code).2.without name) := by
  have left : ({ cache.without name with leases := cache.leases.erase code.serial } : CodeCache M) =
      ({ cache with leases := cache.leases.erase code.serial } : CodeCache M).without name := rfl
  show ((if CodeCache.holds { cache.without name with
      leases := cache.leases.erase code.serial } _ then none else some code), _) = _
  rw [left, holds_without]
  · rfl
  · exact foreign

end ContractHost.CodeCache
