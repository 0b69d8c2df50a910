/-
# Usage added up in any order

A call is charged with what the calls inside it have used, and each of these comes as a sum that
was taken elsewhere: of the call's own usage and of what the calls inside it were charged in turn.
So amounts reach a context through sums of sums, each cut off at the largest word. It makes no
difference which sums were taken on the way and in which order: the total is that of all single
usages, cut off once.

A limit may therefore be compared with any total, and what is above it stays above it. As long as
nothing was cut off, what was added can be taken away again.
-/

import ContractHost.Context
import ContractHost.Proofs.Gas

namespace ContractHost

/-- The metered resources. -/
inductive Metered
  | cpu
  | memory
  | disk
  | fee

namespace Resources

variable {u v limit : Resources}

/-- The amount of a resource. -/
def amount (u : Resources) : Metered → UInt64
  | .cpu => u.cpu
  | .memory => u.memory
  | .disk => u.disk
  | .fee => u.fee

/-- All that was used of a resource, in unbounded numbers. -/
def exactSum (usages : List Resources) (r : Metered) : Nat :=
  (usages.map fun used => (used.amount r).toNat).sum

theorem exactSum_append (usages later : List Resources) (r : Metered) :
    exactSum (usages ++ later) r = exactSum usages r + exactSum later r := by
  simp only [exactSum, List.map_append, List.sum_append]

@[simp]
theorem amount_total (usages : List Resources) (r : Metered) :
    (total usages).amount r = cutOff (exactSum usages r) := by
  cases r <;> rfl

theorem toNat_amount_total (usages : List Resources) (r : Metered) :
    ((total usages).amount r).toNat = min maxAmount (exactSum usages r) := by
  rw [amount_total, toNat_cutOff]

theorem toNat_amount_sub (u v : Resources) (r : Metered) :
    ((u.sub v).amount r).toNat = (u.amount r).toNat - (v.amount r).toNat := by
  have word (a b : UInt64) : (subSaturating a b).toNat = a.toNat - b.toNat := by
    have bounded : a.toNat - b.toNat < UInt64.size :=
      Nat.lt_of_le_of_lt (Nat.sub_le ..) a.toNat_lt
    rw [subSaturating, UInt64.toNat_ofNat', Nat.mod_eq_of_lt bounded]
  cases r <;> exact word _ _

/-- A limit is exceeded in some resource. -/
theorem exceeds_iff :
    u.exceeds limit = true ↔ ∃ r, (limit.amount r).toNat < (u.amount r).toNat := by
  simp only [exceeds, Bool.or_eq_true, decide_eq_true_eq, UInt64.lt_iff_toNat_lt]
  constructor
  · rintro (((cpu | memory) | disk) | fee)
    · exact ⟨.cpu, cpu⟩
    · exact ⟨.memory, memory⟩
    · exact ⟨.disk, disk⟩
    · exact ⟨.fee, fee⟩
  · rintro ⟨_ | _ | _ | _, above⟩
    · exact .inl (.inl (.inl above))
    · exact .inl (.inl (.inr above))
    · exact .inl (.inr above)
    · exact .inr above

/-- Adding to a usage takes it below no limit. -/
theorem exceeds_add (above : u.exceeds limit = true) (v : Resources) :
    (u.add v).exceeds limit = true := by
  by_contra within
  rw [Bool.not_eq_true, exceeds_eq_false] at within
  have below : u.exceeds limit = false := exceeds_eq_false.2 ((le_add_left u v).trans within)
  rw [below] at above
  contradiction

end Resources

/-- What a context is charged with: a usage, or the sum of several charges. -/
inductive Charge
  | usage (used : Resources)
  | sum (parts : List Charge)

namespace Charge

mutual

/-- The usages that are summed up in a charge. -/
def usages : Charge → List Resources
  | usage used => [used]
  | sum parts => usagesOf parts

/-- The usages that are summed up in charges. -/
def usagesOf : List Charge → List Resources
  | [] => []
  | part :: rest => part.usages ++ usagesOf rest

end

mutual

/-- What a charge comes to, where sums are taken part by part. -/
def worth : Charge → Resources
  | usage used => used
  | sum parts => addTo {} parts

/-- A usage with charges added to it, one after the other. -/
def addTo (u : Resources) : List Charge → Resources
  | [] => u
  | part :: rest => addTo (u.add part.worth) rest

end

/-- The charge for a call, which has used something itself and was charged for the calls inside
it. -/
def call (own : Resources) (inner : List Charge) : Charge := .sum [.usage own, .sum inner]

end Charge

namespace Context

/-- Charges a context with several charges in turn. -/
def charge (ctx : Context) (charges : List Charge) : Context :=
  charges.foldl (fun ctx part => ctx.addNestedUsage part.worth) ctx

theorem nestedUsage_charge (ctx : Context) (charges : List Charge) :
    (ctx.charge charges).nestedUsage = Charge.addTo ctx.nestedUsage charges := by
  induction charges generalizing ctx with
  | nil => rfl
  | cons part rest ih => exact ih (ctx.addNestedUsage part.worth)

end Context

namespace Charge

open Resources (total exactSum)

theorem usagesOf_append (charges more : List Charge) :
    usagesOf (charges ++ more) = usagesOf charges ++ usagesOf more := by
  induction charges with
  | nil => rw [List.nil_append, usagesOf, List.nil_append]
  | cons part rest ih => rw [List.cons_append, usagesOf, usagesOf, ih, List.append_assoc]

mutual

/-- A charge comes to the total of its usages. -/
theorem worth_eq_total : (charge : Charge) → charge.worth = total charge.usages
  | usage used => (Resources.total_singleton used).symm
  | sum parts => by
    have added := addTo_eq_total [] parts
    rw [List.nil_append] at added
    exact added

/-- What charges are added to goes on being a total. -/
theorem addTo_eq_total (usages : List Resources) :
    (charges : List Charge) → addTo (total usages) charges = total (usages ++ usagesOf charges)
  | [] => by rw [addTo, usagesOf, List.append_nil]
  | part :: rest => by
    rw [addTo, worth_eq_total part, ← Resources.total_append, addTo_eq_total _ rest, usagesOf,
      List.append_assoc]

end

theorem usagesOf_map_usage (singles : List Resources) :
    usagesOf (singles.map usage) = singles := by
  induction singles with
  | nil => rfl
  | cons used rest ih => rw [List.map_cons, usagesOf, ih, usages, List.singleton_append]

/-- What a call is charged for is what it returns to its caller: its own usage and what its
context was charged with. -/
theorem worth_call (own : Resources) (inner : List Charge) {ctx : Context}
    (fresh : ctx.nestedUsage = {}) :
    (call own inner).worth = own.add (ctx.charge inner).nestedUsage := by
  have inside := addTo_eq_total [] inner
  rw [List.nil_append] at inside
  rw [ctx.nestedUsage_charge, fresh, ← Resources.total_nil, inside, worth_eq_total, call, usages,
    usagesOf, usagesOf, usagesOf, usages, usages, List.append_nil, Resources.total_append,
    Resources.total_singleton]

/-- A usage with charges taken away from it, one after the other. -/
def takeFrom (u : Resources) (charges : List Charge) : Resources :=
  charges.foldl (fun u part => u.sub part.worth) u

/-- Charges that were not cut off take away just what they are. -/
theorem toNat_amount_takeFrom (u : Resources) {charges : List Charge} {r : Metered}
    (whole : exactSum (usagesOf charges) r ≤ maxAmount) :
    ((takeFrom u charges).amount r).toNat = (u.amount r).toNat - exactSum (usagesOf charges) r := by
  induction charges generalizing u with
  | nil => exact (Nat.sub_zero _).symm
  | cons part rest ih =>
      rw [usagesOf, Resources.exactSum_append] at whole ⊢
      have later := ih (u.sub part.worth) (by omega)
      rw [Resources.toNat_amount_sub, worth_eq_total, Resources.toNat_amount_total] at later
      show ((takeFrom (u.sub part.worth) rest).amount r).toNat = _
      rw [worth_eq_total, later]
      omega

end Charge

namespace Context

open Resources (total exactSum)

variable (ctx : Context) (charges : List Charge)

theorem nestedUsage_charge_eq_total :
    (ctx.charge charges).nestedUsage = total (ctx.nestedUsage :: Charge.usagesOf charges) := by
  rw [nestedUsage_charge]
  conv => lhs; rw [← Resources.total_singleton ctx.nestedUsage]
  rw [Charge.addTo_eq_total, List.singleton_append]

/-- What is compared with a limit when a call has ended: its own usage with that of the calls
inside it. -/
theorem add_nestedUsage_charge (own : Resources) :
    own.add (ctx.charge charges).nestedUsage =
      total (own :: ctx.nestedUsage :: Charge.usagesOf charges) := by
  rw [nestedUsage_charge_eq_total, Resources.total_cons own]

/-- Charging more adds the total of what is charged. -/
theorem add_nestedUsage_charge_append (own : Resources) (more : List Charge) :
    own.add (ctx.charge (charges ++ more)).nestedUsage =
      (own.add (ctx.charge charges).nestedUsage).add (total (Charge.usagesOf more)) := by
  rw [add_nestedUsage_charge, add_nestedUsage_charge, Charge.usagesOf_append,
    ← Resources.total_append, List.cons_append, List.cons_append]

/-- Adding up usage is free of order and grouping.

However charges are divided into sums, and in whichever order they come, a context that is charged
with them has in every resource the exact sum of all single usages, or the largest word if that is
less; what a call returns to its caller is such a sum again. With its own usage added, a call
exceeds a limit if and only if the sum cut off is above it in some resource, and for a limit below
the largest word this is so if the exact sum is above it. What exceeds a limit does so whatever is
charged later. Charges that are taken away again, in any order and grouping, leave every resource
as it was before them, unless the sum with them was cut off. -/
theorem charge_adds_up :
    let usages := ctx.nestedUsage :: Charge.usagesOf charges
    let reached := (ctx.charge charges).nestedUsage
    (∀ r, (reached.amount r).toNat = min (2 ^ 64 - 1) (exactSum usages r)) ∧
    (∀ singles : List Resources, singles.Perm (Charge.usagesOf charges) →
      (singles.foldl (fun ctx used => ctx.addNestedUsage used) ctx).nestedUsage = reached) ∧
    (∀ others, (Charge.usagesOf others).Perm (Charge.usagesOf charges) →
      (ctx.charge others).nestedUsage = reached) ∧
    (∀ own, ctx.nestedUsage = {} → (Charge.call own charges).worth = own.add reached) ∧
    (∀ own limit,
      ((own.add reached).exceeds limit = true ↔ ∃ r,
        (limit.amount r).toNat < min (2 ^ 64 - 1) (exactSum (own :: usages) r)) ∧
      (∀ r, (limit.amount r).toNat < 2 ^ 64 - 1 →
        ((limit.amount r).toNat < min (2 ^ 64 - 1) (exactSum (own :: usages) r) ↔
          (limit.amount r).toNat < exactSum (own :: usages) r)) ∧
      ((own.add reached).exceeds limit = true → ∀ more,
        (own.add (ctx.charge (charges ++ more)).nestedUsage).exceeds limit = true)) ∧
    ∀ more taken, (Charge.usagesOf taken).Perm (Charge.usagesOf more) →
      ∀ r, exactSum (usages ++ Charge.usagesOf more) r ≤ 2 ^ 64 - 1 →
        (Charge.takeFrom (ctx.charge (charges ++ more)).nestedUsage taken).amount r =
          reached.amount r := by
  intro usages reached
  have reached_eq : reached = total usages := ctx.nestedUsage_charge_eq_total charges
  have regrouped (others : List Charge)
      (same : (Charge.usagesOf others).Perm (Charge.usagesOf charges)) :
      (ctx.charge others).nestedUsage = reached := by
    rw [reached_eq, nestedUsage_charge_eq_total]
    exact Resources.total_perm (same.cons ctx.nestedUsage)
  refine ⟨fun r => ?_, fun singles same => ?_, regrouped, fun own fresh => ?_,
    fun own limit => ⟨?_, fun r below => ?_, fun above more => ?_⟩,
    fun more taken same r whole => ?_⟩
  · rw [reached_eq, Resources.toNat_amount_total]
    rfl
  · rw [← Charge.usagesOf_map_usage singles] at same
    rw [← regrouped _ same, charge, List.foldl_map]
    rfl
  · exact Charge.worth_call own charges fresh
  · rw [add_nestedUsage_charge, Resources.exceeds_iff]
    simp only [Resources.toNat_amount_total]
    rfl
  · omega
  · rw [add_nestedUsage_charge_append]
    exact Resources.exceeds_add above _
  · have less : exactSum (Charge.usagesOf taken) r = exactSum (Charge.usagesOf more) r :=
      (same.map _).sum_eq
    have split := Resources.exactSum_append usages (Charge.usagesOf more) r
    have bound : maxAmount = 2 ^ 64 - 1 := rfl
    rw [← UInt64.toNat_inj, Charge.toNat_amount_takeFrom _ (by omega), less, reached_eq,
      nestedUsage_charge_eq_total, Charge.usagesOf_append, ← List.cons_append,
      Resources.toNat_amount_total, Resources.toNat_amount_total]
    show min maxAmount (exactSum (usages ++ Charge.usagesOf more) r) - _ = _
    omega

end Context

end ContractHost
