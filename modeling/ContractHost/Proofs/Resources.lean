/-
# Sums of usage

Usage is added call by call, and every sum stays at the largest word. The order of the
additions and the places where a sum reaches the largest word make no difference: what
comes out is the sum of all amounts, cut off once.

Usages are ordered resource by resource, and what exceeds a limit exceeds every lower one.
-/

import ContractHost.Resources
import Mathlib.Algebra.BigOperators.Group.List.Basic
import Mathlib.Algebra.GroupWithZero.Nat
import Mathlib.Order.Defs.PartialOrder

namespace ContractHost

/-- An amount as a word: the largest word if it would pass it. -/
def cutOff (amount : Nat) : UInt64 := UInt64.ofNat (min maxAmount amount)

theorem toNat_cutOff (amount : Nat) : (cutOff amount).toNat = min maxAmount amount := by
  have bounded : min maxAmount amount < UInt64.size :=
    Nat.lt_of_le_of_lt (Nat.min_le_left ..) (by decide)
  unfold cutOff
  rw [UInt64.toNat_ofNat', Nat.mod_eq_of_lt bounded]

theorem cutOff_toNat (amount : UInt64) : cutOff amount.toNat = amount := by
  have bounded : amount.toNat ≤ maxAmount := Nat.le_of_lt_succ amount.toNat_lt
  rw [cutOff, Nat.min_eq_right bounded, UInt64.ofNat_toNat]

/-- Cutting off on the way changes nothing. -/
theorem addSaturating_cutOff (a b : Nat) :
    addSaturating (cutOff a) (cutOff b) = cutOff (a + b) := by
  show cutOff ((cutOff a).toNat + (cutOff b).toNat) = cutOff (a + b)
  rw [toNat_cutOff, toNat_cutOff]
  unfold cutOff
  congr 1
  omega

theorem cutOff_add (a b : Nat) : cutOff ((cutOff a).toNat + b) = cutOff (a + b) := by
  rw [toNat_cutOff]
  unfold cutOff
  congr 1
  omega

theorem le_addSaturating (a b : UInt64) : a ≤ addSaturating a b := by
  show a ≤ cutOff (a.toNat + b.toNat)
  have bounded : a.toNat ≤ maxAmount := Nat.le_of_lt_succ a.toNat_lt
  rw [UInt64.le_iff_toNat_le, toNat_cutOff]
  omega

namespace Resources

/-- The sum of usages: in every resource that of all amounts, or the largest word. -/
def total (usages : List Resources) : Resources where
  cpu := cutOff (usages.map (·.cpu.toNat)).sum
  memory := cutOff (usages.map (·.memory.toNat)).sum
  disk := cutOff (usages.map (·.disk.toNat)).sum
  fee := cutOff (usages.map (·.fee.toNat)).sum

@[simp]
theorem total_nil : total [] = {} := rfl

@[simp]
theorem total_singleton (used : Resources) : total [used] = used := by
  unfold total
  simp only [List.map_cons, List.map_nil, List.sum_cons, List.sum_nil, Nat.add_zero, cutOff_toNat]

/-- Sums are added as single usages are. -/
theorem total_append (usages later : List Resources) :
    total (usages ++ later) = (total usages).add (total later) := by
  unfold total add
  simp only [List.map_append, List.sum_append, addSaturating_cutOff]

theorem total_cons (used : Resources) (usages : List Resources) :
    total (used :: usages) = used.add (total usages) := by
  rw [← List.singleton_append, total_append, total_singleton]

/-- It does not matter in which order usages are added. -/
theorem total_perm {usages others : List Resources} (same : usages.Perm others) :
    total usages = total others := by
  unfold total
  rw [(same.map _).sum_eq, (same.map _).sum_eq, (same.map _).sum_eq, (same.map _).sum_eq]

/-- A usage is at most another one if it is so in every resource. -/
instance : Preorder Resources where
  le u v := u.cpu ≤ v.cpu ∧ u.memory ≤ v.memory ∧ u.disk ≤ v.disk ∧ u.fee ≤ v.fee
  le_refl _ := ⟨UInt64.le_refl _, UInt64.le_refl _, UInt64.le_refl _, UInt64.le_refl _⟩
  le_trans _ _ _ := fun ⟨cpu, memory, disk, fee⟩ ⟨cpu', memory', disk', fee'⟩ =>
    ⟨UInt64.le_trans cpu cpu', UInt64.le_trans memory memory', UInt64.le_trans disk disk',
      UInt64.le_trans fee fee'⟩

instance (u v : Resources) : Decidable (u ≤ v) :=
  inferInstanceAs (Decidable (u.cpu ≤ v.cpu ∧ u.memory ≤ v.memory ∧ u.disk ≤ v.disk ∧ u.fee ≤ v.fee))

theorem exceeds_eq_false {u limit : Resources} : u.exceeds limit = false ↔ u ≤ limit := by
  show _ ↔ u.cpu ≤ limit.cpu ∧ u.memory ≤ limit.memory ∧ u.disk ≤ limit.disk ∧ u.fee ≤ limit.fee
  simp only [exceeds, Bool.or_eq_false_iff, decide_eq_false_iff_not, UInt64.not_lt, and_assoc]

end Resources

end ContractHost
