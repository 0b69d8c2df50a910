/-
# Metered resources

A call is metered in four resources. Usage accumulates field by field and stays at the
largest word when a sum would pass it, limits are compared field by field, and gas is
the price of a usage: every field is divided by its rate, rounded up, and the four
quotients are added, again up to the largest word.
-/

namespace ContractHost

/-- The largest amount that a word holds. -/
def maxAmount : Nat := UInt64.size - 1

/-- The sum of two amounts, or the largest amount if the sum passes it. -/
def addSaturating (a b : UInt64) : UInt64 := UInt64.ofNat (min maxAmount (a.toNat + b.toNat))

/-- The difference of two amounts, or zero if it would fall below. -/
def subSaturating (a b : UInt64) : UInt64 := UInt64.ofNat (a.toNat - b.toNat)

/-- An amount divided by a rate and rounded up. A rate of zero makes the amount free. -/
def priceOf (amount rate : UInt64) : UInt64 :=
  if rate = 0 then 0 else UInt64.ofNat ((amount.toNat + rate.toNat - 1) / rate.toNat)

/-- How many units of each resource one unit of gas buys. -/
structure Rates where
  cpu : UInt64
  memory : UInt64
  disk : UInt64
  fee : UInt64
deriving DecidableEq, Repr

/-- The rates in force unless a configuration sets others. -/
def Rates.standard : Rates := ⟨1000, 1000000, 1, 1⟩

/-- An amount of each metered resource: what a call used, or the most that it may use. -/
structure Resources where
  cpu : UInt64 := 0
  memory : UInt64 := 0
  disk : UInt64 := 0
  fee : UInt64 := 0
deriving DecidableEq, Repr, Inhabited

namespace Resources

/-- The largest amount of each resource that a limit names by default. -/
def ceiling : Resources := ⟨0xFFFFFFFF, 0xFFFFFFFF, 0xFFFFFFFF, 0xFFFFFFFF⟩

/-- The usage of two calls together. -/
def add (u v : Resources) : Resources where
  cpu := addSaturating u.cpu v.cpu
  memory := addSaturating u.memory v.memory
  disk := addSaturating u.disk v.disk
  fee := addSaturating u.fee v.fee

/-- A usage less a part of it, never below zero. -/
def sub (u v : Resources) : Resources where
  cpu := subSaturating u.cpu v.cpu
  memory := subSaturating u.memory v.memory
  disk := subSaturating u.disk v.disk
  fee := subSaturating u.fee v.fee

/-- True of a usage that is above a limit in some resource. -/
def exceeds (u limit : Resources) : Bool :=
  limit.cpu < u.cpu || limit.memory < u.memory || limit.disk < u.disk || limit.fee < u.fee

/-- The price of a usage in gas. -/
def gas (u : Resources) (rates : Rates) : UInt64 :=
  addSaturating
    (addSaturating
      (addSaturating (priceOf u.cpu rates.cpu) (priceOf u.memory rates.memory))
      (priceOf u.disk rates.disk))
    (priceOf u.fee rates.fee)

end Resources

end ContractHost
