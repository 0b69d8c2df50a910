/-
# Configuration

The settings of a host: the backend that runs contracts, the limits of a call, the rates
at which usage is priced, how deep calls may nest, and the capacity of a bounded store.
Settings come from a document or from named variables; what is not set takes a default,
and settings that a host cannot run with are refused with the field at fault.
-/

import ContractHost.Error

namespace ContractHost

/-- The settings of a host. -/
structure Config where
  backend : String := "uwavm"
  gasLimit : UInt64 := 0xFFFFFFFF
  maxLimits : Resources := .ceiling
  rates : Rates := .standard
  maxCallDepth : UInt32 := 16
  storeCapacity : UInt64 := 10000
deriving DecidableEq, Repr

namespace Config

/-- The settings in force where nothing is set. -/
def standard : Config := {}

/-- Refuses settings that a host cannot run with. -/
def validate (config : Config) : Except ConfigError Unit :=
  if config.backend = "" then .error (.invalidValue "backend" "must not be empty")
  else if config.maxCallDepth = 0 then
    .error (.invalidValue "max_call_depth" "must be at least 1")
  else if config.storeCapacity = 0 then
    .error (.invalidValue "lru_capacity" "must be at least 1")
  else .ok ()

/-- A number below a bound in a variable, or a default where the variable is not set or
holds no such number. -/
def numberFrom (bound : Nat) (given? : Option String) (default : Nat) : Nat :=
  (given?.bind fun value => Decimal.read? bound value.toList).getD default

/-- The settings given by variables. The backend is taken as it is, numbers that cannot
be read are passed over, and limits and rates are never set this way. -/
def ofVariables (setting? : String → Option String) : Config where
  backend := (setting? "BACKEND").getD standard.backend
  gasLimit :=
    UInt64.ofNat (numberFrom UInt64.size (setting? "GAS_LIMIT") standard.gasLimit.toNat)
  maxCallDepth :=
    UInt32.ofNat (numberFrom UInt32.size (setting? "MAX_CALL_DEPTH") standard.maxCallDepth.toNat)
  storeCapacity :=
    UInt64.ofNat (numberFrom UInt64.size (setting? "LRU_CAPACITY") standard.storeCapacity.toNat)

end Config

end ContractHost
