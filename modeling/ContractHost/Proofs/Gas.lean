/-
# The price of usage

A usage is priced resource by resource: the amount is divided by the rate and rounded up, and
the four quotients are added. The host does so with words that stay at the largest one. The
price that it arrives at is nevertheless the exact one, cut off once.

Prices grow with the usage and fall with the rates. Rounding up makes them subadditive: calls
that are priced together never cost more than if each were priced by itself, and never less
than any of them.
-/

import ContractHost.Proofs.Resources
import Mathlib.Data.Rat.Floor

namespace ContractHost

/-! ## Single resources -/

/-- The exact price of an amount. The quotient by zero is zero, so a rate of zero makes the
amount free. -/
def exactPrice (amount rate : Nat) : Nat := ⌈(amount / rate : ℚ)⌉₊

theorem exactPrice_le_iff {amount rate price : Nat} (positive : 0 < rate) :
    exactPrice amount rate ≤ price ↔ amount ≤ price * rate := by
  have cast : (0 : ℚ) < rate := Nat.cast_pos.2 positive
  rw [exactPrice, Nat.ceil_le, div_le_iff₀ cast]
  exact_mod_cast Iff.rfl

theorem exactPrice_zero_rate (amount : Nat) : exactPrice amount 0 = 0 := by
  rw [exactPrice, Nat.cast_zero, div_zero, Nat.ceil_zero]

/-- No price is above the amount itself, so the price of a word is a word. -/
theorem exactPrice_le (amount rate : Nat) : exactPrice amount rate ≤ amount := by
  rcases Nat.eq_zero_or_pos rate with rfl | positive
  · rw [exactPrice_zero_rate]
    exact Nat.zero_le _
  · rw [exactPrice_le_iff positive]
    exact Nat.le_mul_of_pos_right amount positive

theorem toNat_priceOf (amount rate : UInt64) :
    (priceOf amount rate).toNat = exactPrice amount.toNat rate.toNat := by
  unfold priceOf
  split
  · next free =>
    rw [free]
    exact (exactPrice_zero_rate _).symm
  · next charged =>
    have positive : 0 < rate.toNat := by
      rw [Nat.pos_iff_ne_zero]
      exact fun zero => charged (UInt64.toNat_inj.1 zero)
    have same : (amount.toNat + rate.toNat - 1) / rate.toNat =
        exactPrice amount.toNat rate.toNat := by
      apply eq_of_forall_ge_iff
      intro price
      rw [exactPrice_le_iff positive, Nat.div_le_iff_le_mul_add_pred positive, Nat.mul_comm]
      omega
    have word : exactPrice amount.toNat rate.toNat < UInt64.size :=
      Nat.lt_of_le_of_lt (exactPrice_le _ _) amount.toNat_lt
    rw [same, UInt64.toNat_ofNat', Nat.mod_eq_of_lt word]

theorem exactPrice_mono {amount more : Nat} (le : amount ≤ more) (rate : Nat) :
    exactPrice amount rate ≤ exactPrice more rate := by
  apply Nat.ceil_le_ceil
  gcongr

/-- A rate in place of another one: the same, or a higher one where the resource was not free. -/
def RaisedTo (rate raised : UInt64) : Prop := raised = rate ∨ rate ≠ 0 ∧ rate ≤ raised

/-- The more of a resource one unit of gas buys, the less an amount costs. -/
theorem exactPrice_raised {rate raised : UInt64} (higher : RaisedTo rate raised) (amount : Nat) :
    exactPrice amount raised.toNat ≤ exactPrice amount rate.toNat := by
  rcases higher with rfl | ⟨charged, le⟩
  · exact le_rfl
  · have positive : 0 < rate.toNat := by
      rw [Nat.pos_iff_ne_zero]
      exact fun zero => charged (UInt64.toNat_inj.1 zero)
    have higher : rate.toNat ≤ raised.toNat := UInt64.le_iff_toNat_le.1 le
    rw [exactPrice_le_iff (Nat.lt_of_lt_of_le positive higher)]
    calc amount ≤ exactPrice amount rate.toNat * rate.toNat := (exactPrice_le_iff positive).1 le_rfl
      _ ≤ exactPrice amount rate.toNat * raised.toNat := Nat.mul_le_mul_left _ higher

/-- Two amounts rounded up together are at most the two rounded up apart. -/
theorem exactPrice_add_le (amount more rate : Nat) :
    exactPrice (amount + more) rate ≤ exactPrice amount rate + exactPrice more rate := by
  unfold exactPrice
  rw [Nat.cast_add, add_div]
  exact Nat.ceil_add_le _ _

/-- Cutting a sum off makes it no dearer. -/
theorem exactPrice_addSaturating_le (amount more : UInt64) (rate : Nat) :
    exactPrice (addSaturating amount more).toNat rate ≤
      exactPrice amount.toNat rate + exactPrice more.toNat rate := by
  have less : (addSaturating amount more).toNat ≤ amount.toNat + more.toNat := by
    show (cutOff (amount.toNat + more.toNat)).toNat ≤ _
    rw [toNat_cutOff]
    exact Nat.min_le_right ..
  exact (exactPrice_mono less rate).trans (exactPrice_add_le _ _ _)

theorem addSaturating_comm (a b : UInt64) : addSaturating a b = addSaturating b a := by
  unfold addSaturating
  rw [Nat.add_comm]

/-! ## Usages -/

/-- Rates in place of others: some of those that are not zero may be higher. -/
structure Rates.RaisedTo (rates raised : Rates) : Prop where
  cpu : ContractHost.RaisedTo rates.cpu raised.cpu
  memory : ContractHost.RaisedTo rates.memory raised.memory
  disk : ContractHost.RaisedTo rates.disk raised.disk
  fee : ContractHost.RaisedTo rates.fee raised.fee

namespace Resources

/-- The amounts of a usage, each with its rate. -/
def charges (u : Resources) (rates : Rates) : List (Nat × Nat) :=
  [(u.cpu.toNat, rates.cpu.toNat), (u.memory.toNat, rates.memory.toNat),
    (u.disk.toNat, rates.disk.toNat), (u.fee.toNat, rates.fee.toNat)]

/-- The exact price of a usage: of every resource that is not free, the amount divided by the
rate and rounded up. -/
def exactGas (u : Resources) (rates : Rates) : Nat :=
  (((u.charges rates).filter fun (_, rate) => rate ≠ 0).map
    fun (amount, rate) => ⌈(amount / rate : ℚ)⌉₊).sum

variable {u v : Resources} {rates raised : Rates}

/-- Resources that are free add nothing. -/
theorem sum_charged (charges : List (Nat × Nat)) :
    ((charges.filter fun (_, rate) => rate ≠ 0).map
      fun (amount, rate) => ⌈(amount / rate : ℚ)⌉₊).sum =
      (charges.map fun (amount, rate) => exactPrice amount rate).sum := by
  induction charges with
  | nil => rfl
  | cons charge rest ih =>
      obtain ⟨amount, rate⟩ := charge
      by_cases free : rate = 0
      · subst free
        rw [List.filter_cons_of_neg (by simp), ih, List.map_cons, List.sum_cons]
        dsimp only
        rw [exactPrice_zero_rate, Nat.zero_add]
      · rw [List.filter_cons_of_pos (by simpa using free), List.map_cons, List.sum_cons, ih]
        rfl

theorem exactGas_eq (u : Resources) (rates : Rates) :
    u.exactGas rates = exactPrice u.cpu.toNat rates.cpu.toNat +
      exactPrice u.memory.toNat rates.memory.toNat + exactPrice u.disk.toNat rates.disk.toNat +
      exactPrice u.fee.toNat rates.fee.toNat := by
  rw [exactGas, sum_charged]
  simp only [charges, List.map_cons, List.map_nil, List.sum_cons, List.sum_nil]
  omega

/-- The host cuts off four times and arrives at the exact price, cut off once. -/
theorem gas_eq_cutOff (u : Resources) (rates : Rates) :
    u.gas rates = cutOff (u.exactGas rates) := by
  have whole (amount rate : UInt64) :
      priceOf amount rate = cutOff (exactPrice amount.toNat rate.toNat) := by
    rw [← toNat_priceOf, cutOff_toNat]
  rw [gas, exactGas_eq]
  simp only [whole, addSaturating_cutOff]

theorem toNat_gas (u : Resources) (rates : Rates) :
    (u.gas rates).toNat = min maxAmount (u.exactGas rates) := by
  rw [gas_eq_cutOff, toNat_cutOff]

/-- Who uses more pays no less. -/
theorem gas_mono (le : u ≤ v) (rates : Rates) : (u.gas rates).toNat ≤ (v.gas rates).toNat := by
  obtain ⟨cpu, memory, disk, fee⟩ := le
  rw [toNat_gas, toNat_gas, exactGas_eq, exactGas_eq]
  have cpu := exactPrice_mono (UInt64.le_iff_toNat_le.1 cpu) rates.cpu.toNat
  have memory := exactPrice_mono (UInt64.le_iff_toNat_le.1 memory) rates.memory.toNat
  have disk := exactPrice_mono (UInt64.le_iff_toNat_le.1 disk) rates.disk.toNat
  have fee := exactPrice_mono (UInt64.le_iff_toNat_le.1 fee) rates.fee.toNat
  omega

/-- Higher rates make no usage dearer. -/
theorem gas_raised (u : Resources) (higher : rates.RaisedTo raised) :
    (u.gas raised).toNat ≤ (u.gas rates).toNat := by
  rw [toNat_gas, toNat_gas, exactGas_eq, exactGas_eq]
  have cpu := exactPrice_raised higher.cpu u.cpu.toNat
  have memory := exactPrice_raised higher.memory u.memory.toNat
  have disk := exactPrice_raised higher.disk u.disk.toNat
  have fee := exactPrice_raised higher.fee u.fee.toNat
  omega

theorem le_add_left (u v : Resources) : u ≤ u.add v :=
  ⟨le_addSaturating .., le_addSaturating .., le_addSaturating .., le_addSaturating ..⟩

theorem add_comm (u v : Resources) : u.add v = v.add u := by
  unfold add
  rw [addSaturating_comm u.cpu, addSaturating_comm u.memory, addSaturating_comm u.disk,
    addSaturating_comm u.fee]

/-- Two usages priced together cost at most what they cost apart. -/
theorem gas_add_le (u v : Resources) (rates : Rates) :
    ((u.add v).gas rates).toNat ≤ min maxAmount ((u.gas rates).toNat + (v.gas rates).toNat) := by
  rw [toNat_gas, toNat_gas, toNat_gas, exactGas_eq, exactGas_eq, exactGas_eq]
  have cpu := exactPrice_addSaturating_le u.cpu v.cpu rates.cpu.toNat
  have memory := exactPrice_addSaturating_le u.memory v.memory rates.memory.toNat
  have disk := exactPrice_addSaturating_le u.disk v.disk rates.disk.toNat
  have fee := exactPrice_addSaturating_le u.fee v.fee rates.fee.toNat
  dsimp only [add]
  omega

/-- Each of several usages is at most their sum. -/
theorem le_total {used : Resources} {usages : List Resources} (mem : used ∈ usages) :
    used ≤ total usages := by
  obtain ⟨before, after, rfl⟩ := List.append_of_mem mem
  rw [total_perm List.perm_middle, total_cons]
  exact le_add_left _ _

/-- However many usages are priced together, they cost at most what they cost apart. -/
theorem gas_total_le (usages : List Resources) (rates : Rates) :
    ((total usages).gas rates).toNat ≤
      min maxAmount (usages.map fun used => (used.gas rates).toNat).sum := by
  induction usages with
  | nil =>
      have nothing : ((total []).gas rates).toNat = 0 := by
        rw [total_nil, toNat_gas, exactGas_eq]
        simp [exactPrice]
      rw [nothing]
      exact Nat.zero_le _
  | cons used rest ih =>
      rw [total_cons, List.map_cons, List.sum_cons]
      have one := gas_add_le used (total rest) rates
      omega

/-- The price of a usage is the sum over the resources that are not free of the amounts divided
by their rates and rounded up, in unbounded numbers, and the largest word if that is less. More
usage costs no less, and a higher rate makes nothing dearer. The usage of two calls, or of a
call with any number of calls inside it, costs at most what the usages cost apart, and at least
what each of them costs. -/
theorem pricing_is_exact_and_subadditive (u v : Resources) (rates : Rates) :
    let gas (used : Resources) : Nat := (used.gas rates).toNat
    gas u = min (2 ^ 64 - 1) (u.exactGas rates) ∧
    (u ≤ v → gas u ≤ gas v) ∧
    (∀ raised, rates.RaisedTo raised → (u.gas raised).toNat ≤ gas u) ∧
    max (gas u) (gas v) ≤ gas (u.add v) ∧
    gas (u.add v) ≤ min (2 ^ 64 - 1) (gas u + gas v) ∧
    ∀ usages : List Resources,
      (∀ used ∈ usages, gas used ≤ gas (total usages)) ∧
      gas (total usages) ≤ min (2 ^ 64 - 1) (usages.map gas).sum := by
  intro gas
  refine ⟨toNat_gas u rates, fun le => gas_mono le rates, fun raised => gas_raised u, ?_,
    gas_add_le u v rates, fun usages => ⟨fun used mem => ?_, gas_total_le usages rates⟩⟩
  · apply max_le
    · exact gas_mono (le_add_left u v) rates
    · rw [add_comm]
      exact gas_mono (le_add_left v u) rates
  · exact gas_mono (le_total mem) rates

example : Resources.gas ⟨1500, 500000, 0, 3⟩ .standard = 6 := by decide

end Resources

end ContractHost
