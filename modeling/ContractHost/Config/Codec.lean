/-
# Configuration documents

The document of a configuration lists its fields; a reader takes the default for each
field that a document leaves out and then refuses what a host cannot run with.
-/

import ContractHost.Config
import ContractHost.Json.Reader
import ContractHost.Message.Codec

namespace ContractHost.Config

open Json (Fields)

/-- The names of the fields in their order. -/
def fieldNames : List String :=
  ["backend", "gas_limit", "max_limits", "rates", "max_call_depth", "lru_capacity"]

/-- The document of a configuration. -/
def toJson (config : Config) : Json :=
  .record [("backend", .text config.backend), ("gas_limit", .natural config.gasLimit.toNat),
    ("max_limits", config.maxLimits.toJson), ("rates", config.rates.toJson),
    ("max_call_depth", .natural config.maxCallDepth.toNat),
    ("lru_capacity", .natural config.storeCapacity.toNat)]

/-- The configuration of a document, usable or not. -/
def ofJson? (j : Json) : Option Config := do
  let fields ← Fields.ofJson? fieldNames j
  return {
    backend := ← fields.defaulted "backend" standard.backend Json.text?
    gasLimit := ← fields.defaulted "gas_limit" standard.gasLimit Json.word?
    maxLimits := ← fields.defaulted "max_limits" standard.maxLimits Resources.ofJson?
    rates := ← fields.defaulted "rates" standard.rates Rates.ofJson?
    maxCallDepth := ← fields.defaulted "max_call_depth" standard.maxCallDepth Json.halfWord?
    storeCapacity := ← fields.defaulted "lru_capacity" standard.storeCapacity Json.word? }

/-- Why a document is refused before its values are looked at. -/
def notAConfiguration : String := "not a configuration document"

/-- Reads a configuration that a host can run with. -/
def read (document : Bytes) : Except ConfigError Config :=
  match (Json.read? document).bind ofJson? with
  | none => .error (.parse notAConfiguration)
  | some config => config.validate.map fun _ => config

end ContractHost.Config
