/-
# What the code cache holds

Every compiled module has a serial number, and a module is held as long as the cache or a
lease holds it. The number of modules held is a ledger: compiling adds one, taking a
lease on cached code adds none, and dropping code or giving a lease back takes one off
just when it says that a module is released.
-/

import ContractHost.CodeCache
import Mathlib.Data.List.Nodup

namespace ContractHost.CodeCache

/-! ## Counting -/

/-- Where two tests agree, they count alike. -/
theorem countP_range_congr {p q : Nat → Bool} {n : Nat} (same : ∀ i < n, p i = q i) :
    (List.range n).countP p = (List.range n).countP q :=
  List.countP_congr fun i mem => by rw [same i (List.mem_range.1 mem)]

/-- A test that gives one number up counts one less. -/
theorem countP_range_drop {p q : Nat → Bool} {n i : Nat} (bound : i < n)
    (others : ∀ j, j ≠ i → p j = q j) (was : p i = true) (now : q i = false) :
    (List.range n).countP p = (List.range n).countP q + 1 := by
  induction n with
  | zero => omega
  | succ n ih =>
      simp only [List.range_succ, List.countP_append, List.countP_singleton]
      by_cases last : i = n
      · subst last
        have before := countP_range_congr (p := p) (q := q) fun j below =>
          others j (Nat.ne_of_lt below)
        simp [before, was, now]
      · have counted := ih (by omega)
        have kept := others n (Ne.symm last)
        rw [counted, kept]
        omega

/-- As many numbers are in a list as it is long, if none is in it twice. -/
theorem countP_range_contains {l : List Nat} {n : Nat} (once : l.Nodup) (bound : ∀ i ∈ l, i < n) :
    (List.range n).countP l.contains = l.length := by
  induction l with
  | nil => simp
  | cons i l ih =>
      obtain ⟨fresh, once⟩ := List.nodup_cons.1 once
      have dropped : (List.range n).countP (i :: l).contains =
          (List.range n).countP l.contains + 1 := by
        refine countP_range_drop (bound i List.mem_cons_self) (fun j other => ?_) ?_ ?_
        · simp [other]
        · simp
        · simpa using fresh
      rw [dropped, ih once fun j mem => bound j (List.mem_cons_of_mem _ mem), List.length_cons]

variable {M : Type} {cache : CodeCache M}

/-- The number of modules that the cache or a lease holds. -/
def heldCount (cache : CodeCache M) : Nat := (List.range cache.compiled).countP cache.holds

/-- A cache with one module for each contract, and with serial numbers that were given
out, each for one module. -/
structure WellFormed (cache : CodeCache M) : Prop where
  names : (cache.entries.map (·.name)).Nodup
  serials : (cache.entries.map (·.serial)).Nodup
  cached : ∀ code ∈ cache.entries, code.serial < cache.compiled
  leased : ∀ serial ∈ cache.leases, serial < cache.compiled

theorem holds_iff {serial : Nat} :
    cache.holds serial = true ↔
      (∃ code ∈ cache.entries, code.serial = serial) ∨ serial ∈ cache.leases := by
  simp [holds]

theorem find?_eq_some {name : String} {code : CompiledCode M}
    (found : cache.find? name = some code) : code ∈ cache.entries ∧ code.name = name :=
  ⟨List.mem_of_find?_eq_some found, by simpa using List.find?_some found⟩

theorem find?_eq_none {name : String} (missing : cache.find? name = none) :
    ∀ code ∈ cache.entries, code.name ≠ name := by
  simpa [find?] using missing

/-! ## Looking up -/

/-- A new module is found under its name. -/
theorem find?_insert (cache : CodeCache M) (name : String) (bytecode : Bytes) (module : M)
    (other : String) :
    (cache.insert name bytecode module).2.find? other =
      if other = name then some (cache.insert name bytecode module).1 else cache.find? other := by
  by_cases same : other = name
  · simp [find?, insert, same]
  · have apart : (name == other) = false := by simpa using Ne.symm same
    simp [find?, insert, same, apart]

/-- A module that is dropped is found no more, and all others are. -/
theorem find?_remove (cache : CodeCache M) (name other : String) :
    (cache.remove name).2.find? other = if other = name then none else cache.find? other := by
  unfold remove
  cases found : cache.find? name with
  | none =>
      by_cases same : other = name
      · simp [same, found]
      · simp [same]
  | some code =>
      simp only [find?, List.find?_filter]
      by_cases same : other = name
      · simp [same]
      · simp only [same, ↓reduceIte]
        congr 1
        funext code'
        by_cases named : code'.name = other
        · simp [named, same]
        · simp [named]

theorem find?_giveBack (cache : CodeCache M) (code : CompiledCode M) (name : String) :
    (cache.giveBack code).2.find? name = cache.find? name := rfl

/-! ## What is held -/

/-- Where one module at most stops being held, the change says whether it is released. -/
theorem heldCount_release {after : CodeCache M} {code : CompiledCode M}
    (compiled : after.compiled = cache.compiled) (bound : code.serial < cache.compiled)
    (was : cache.holds code.serial = true)
    (others : ∀ serial, serial ≠ code.serial → cache.holds serial = after.holds serial) :
    after.heldCount +
        (if after.holds code.serial then none else some code : Option _).toList.length =
      cache.heldCount := by
  unfold heldCount
  rw [compiled]
  cases now : after.holds code.serial with
  | true =>
      have same : cache.holds = after.holds := by
        funext serial
        by_cases this : serial = code.serial
        · rw [this, was, now]
        · exact others serial this
      rw [same]
      rfl
  | false => exact (countP_range_drop bound others was now).symm

namespace WellFormed

theorem empty : WellFormed ({} : CodeCache M) where
  names := .nil
  serials := .nil
  cached := by simp
  leased := by simp

variable (formed : cache.WellFormed)

include formed

/-- Without leases, what is held is what is cached. -/
theorem heldCount_of_leases_nil (free : cache.leases = []) : cache.heldCount = cache.size := by
  have held : cache.holds = (cache.entries.map (·.serial)).contains := by
    funext serial
    apply Bool.eq_iff_iff.2
    simp [holds_iff, free]
  unfold heldCount size
  rw [held, countP_range_contains formed.serials, List.length_map]
  intro serial mem
  obtain ⟨code, cached, rfl⟩ := List.mem_map.1 mem
  exact formed.cached code cached

/-! ## Compiling -/

theorem insert {name : String} (missing : cache.find? name = none) (bytecode : Bytes)
    (module : M) : (cache.insert name bytecode module).2.WellFormed where
  names := by
    refine List.nodup_cons.2 ⟨?_, formed.names⟩
    intro mem
    obtain ⟨code, mem, same⟩ := List.mem_map.1 mem
    exact find?_eq_none missing code mem same
  serials := by
    refine List.nodup_cons.2 ⟨?_, formed.serials⟩
    intro mem
    obtain ⟨code, mem, same⟩ := List.mem_map.1 mem
    exact Nat.ne_of_lt (formed.cached code mem) same
  cached := by
    intro code mem
    rcases List.mem_cons.1 mem with rfl | mem
    · exact Nat.lt_succ_self _
    · exact Nat.lt_succ_of_lt (formed.cached code mem)
  leased := by
    intro serial mem
    rcases List.mem_cons.1 mem with rfl | mem
    · exact Nat.lt_succ_self _
    · exact Nat.lt_succ_of_lt (formed.leased serial mem)

/-! ## Taking a lease -/

theorem lease {code : CompiledCode M} (mem : code ∈ cache.entries) :
    (cache.lease code).WellFormed where
  names := formed.names
  serials := formed.serials
  cached := formed.cached
  leased := by
    intro serial mem'
    rcases List.mem_cons.1 mem' with rfl | mem'
    · exact formed.cached code mem
    · exact formed.leased serial mem'

/-! ## Giving up -/

theorem remove (name : String) : (cache.remove name).2.WellFormed := by
  unfold CodeCache.remove
  cases cache.find? name with
  | none => exact formed
  | some code =>
      exact {
        names := formed.names.sublist (List.filter_sublist.map _)
        serials := formed.serials.sublist (List.filter_sublist.map _)
        cached := fun code mem => formed.cached code (List.mem_filter.1 mem).1
        leased := formed.leased }

theorem heldCount_remove (name : String) :
    (cache.remove name).2.heldCount + (cache.remove name).1.toList.length = cache.heldCount := by
  unfold CodeCache.remove
  cases found : cache.find? name with
  | none => rfl
  | some code =>
      obtain ⟨mem, rfl⟩ := find?_eq_some found
      refine heldCount_release rfl (formed.cached code mem) (holds_iff.2 (.inl ⟨code, mem, rfl⟩)) ?_
      intro serial other
      -- Names are told apart, so the module that goes is the only one of its name.
      have only : ∀ kept ∈ cache.entries, kept.serial = serial → kept.name ≠ code.name := by
        rintro kept mem' rfl same
        exact other (congrArg _ (List.inj_on_of_nodup_map formed.names mem' mem same))
      apply Bool.eq_iff_iff.2
      simp only [holds_iff, List.mem_filter, bne_iff_ne]
      grind

theorem giveBack (code : CompiledCode M) : (cache.giveBack code).2.WellFormed where
  names := formed.names
  serials := formed.serials
  cached := formed.cached
  leased := fun serial mem => formed.leased serial (List.mem_of_mem_erase mem)

theorem heldCount_giveBack {code : CompiledCode M} (mem : code.serial ∈ cache.leases) :
    (cache.giveBack code).2.heldCount + (cache.giveBack code).1.toList.length =
      cache.heldCount := by
  refine heldCount_release rfl (formed.leased _ mem) (holds_iff.2 (.inr mem)) ?_
  intro serial other
  apply Bool.eq_iff_iff.2
  simp only [CodeCache.giveBack, holds_iff, List.mem_erase_of_ne other]

end WellFormed

theorem heldCount_insert (cache : CodeCache M) (name : String) (bytecode : Bytes)
    (module : M) : (cache.insert name bytecode module).2.heldCount = cache.heldCount + 1 := by
  have new : (cache.insert name bytecode module).2.holds cache.compiled = true :=
    holds_iff.2 (.inl ⟨_, List.mem_cons_self, rfl⟩)
  have others : ∀ serial < cache.compiled,
      (cache.insert name bytecode module).2.holds serial = cache.holds serial := by
    intro serial below
    apply Bool.eq_iff_iff.2
    simp only [holds_iff, CodeCache.insert, List.mem_cons]
    grind
  show (List.range (cache.compiled + 1)).countP _ = _
  rw [List.range_succ, List.countP_append, countP_range_congr others, List.countP_singleton, new]
  rfl

/-- A lease on cached code holds nothing new. -/
theorem heldCount_lease {code : CompiledCode M} (mem : code ∈ cache.entries) :
    (cache.lease code).heldCount = cache.heldCount := by
  refine countP_range_congr fun serial _ => ?_
  apply Bool.eq_iff_iff.2
  simp only [holds_iff, CodeCache.lease, List.mem_cons]
  grind

end ContractHost.CodeCache
