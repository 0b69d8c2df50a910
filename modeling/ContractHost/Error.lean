/-
# Errors

Every failure is a value that names its cause; the wording is kept apart in one function
for each family. The class of an error decides what the host does about it: the compiled
code of a contract is dropped after infrastructure failures and traps, and kept after
refused requests, failures that a contract reports itself, and missing things.
-/

import ContractHost.Message
import ContractHost.Trap
import ContractHost.Text.Decimal
import ContractHost.Text.Quoted

namespace ContractHost

/-- Failures of a key-value store. -/
inductive StoreError
  | io (reason : String)
  | unavailable
  | capacityShrink (requested current : Nat)
deriving DecidableEq, Repr

/-- The wording of a store failure. -/
def StoreError.message : StoreError → String
  | io reason => "storage I/O error: " ++ reason
  | unavailable => "storage unavailable"
  | capacityShrink requested current =>
    "new capacity " ++ Decimal.print requested ++ " must be larger than current "
      ++ Decimal.print current

/-- Faults of a configuration. -/
inductive ConfigError
  | invalidValue (field reason : String)
  | parse (reason : String)
deriving DecidableEq, Repr

/-- The wording of a configuration fault. -/
def ConfigError.message : ConfigError → String
  | invalidValue field reason => "invalid config value for " ++ field ++ ": " ++ reason
  | parse reason => "config parse error: " ++ reason

/-- What decides how the host reacts to an error. -/
inductive ErrorClass
  | validation
  | contract
  | infrastructure
  | trap
  | notFound
deriving DecidableEq, Repr

/-- Failures that a caller of the host sees. -/
inductive HostError
  | missingField (field : String)
  | malformedArgs (reason : String)
  | invalidName (name : String)
  | contract (response : Response) (resources : Resources) (gas : UInt64)
  | missingOutput (contract : String)
  | storage (error : StoreError)
  | unknownBackend (name : String)
  | missingCode (contract : String)
  | emptyCode (contract : String)
  | staleCode (contract : String)
  | unsupportedLanguage (tag : String)
  | engine (reason : String)
  | nilValue (key : String)
  | depthExceeded (depth limit : Nat)
  | unsupportedModule (module : String)
  | config (error : ConfigError)
  | trap (trap : Trap)
  | unknownContext (id : ContextId)
  | objectNotFound (key : String)
deriving DecidableEq, Repr

namespace HostError

/-- The wording of an error. -/
def message : HostError → String
  | missingField field => "missing required field: " ++ field
  | malformedArgs reason => "malformed args: " ++ reason
  | invalidName name => "invalid contract name: " ++ Quoted.quote name
  | contract response _ _ =>
    "contract error status:" ++ Decimal.printInt response.status.toInt ++ " message:"
      ++ response.message
  | missingOutput name => "internal error: contract " ++ name ++ " produced no output"
  | storage error => "storage error: " ++ error.message
  | unknownBackend name => "driver " ++ name ++ " not found"
  | missingCode name => "get contract code for '" ++ name ++ "' error: code not found"
  | emptyCode name => "empty wasm code for contract '" ++ name ++ "'"
  | staleCode name => "old contract code not purged: " ++ name
  | unsupportedLanguage tag => "bad runtime: unsupported language '" ++ tag ++ "'"
  | engine reason => "engine error: " ++ reason
  | nilValue key => "put nil value for key " ++ Quoted.quote key
  | depthExceeded depth limit =>
    "call depth exceeded: " ++ Decimal.print depth ++ " > " ++ Decimal.print limit
  | unsupportedModule module => "unsupported module: " ++ module
  | config error => "configuration error: " ++ error.message
  | trap cause => cause.message
  | unknownContext id => "bad ctx id: " ++ Decimal.printInt id.number
  | objectNotFound key => "object not found for key: " ++ Quoted.quote key

/-- The class of an error. -/
def errorClass : HostError → ErrorClass
  | missingField _ | malformedArgs _ | invalidName _ => .validation
  | contract .. | missingOutput _ => .contract
  | trap _ => .trap
  | unknownContext _ | objectNotFound _ => .notFound
  | storage _ | unknownBackend _ | missingCode _ | emptyCode _ | staleCode _
  | unsupportedLanguage _ | engine _ | nilValue _ | depthExceeded .. | unsupportedModule _
  | config _ => .infrastructure

/-- True of the errors after which a contract's compiled code is dropped. -/
def evictsCode (e : HostError) : Bool :=
  match e.errorClass with
  | .infrastructure | .trap => true
  | .validation | .contract | .notFound => false

/-- The status reported when no contract chose one. -/
def internalStatus : Int32 := 500

/-- The status to report for an error. -/
def status : HostError → Int32
  | contract response _ _ => response.status
  | _ => internalStatus

/-- The gas charged for a call that failed; only a call that ran to its end is charged. -/
def billedGas : HostError → UInt64
  | contract _ _ gas => gas
  | _ => 0

end HostError

/-- Failures of an execution engine. -/
inductive EngineError
  | invalidModule (reason : String)
  | trap (trap : Trap)
  | host (error : HostError)
  | other (reason : String)
deriving DecidableEq, Repr

namespace EngineError

/-- The wording of an engine failure. -/
def message : EngineError → String
  | invalidModule reason => "invalid module: " ++ reason
  | trap cause => cause.message
  | host error => error.message
  | other reason => reason

/-- An engine failure as the host reports it. Traps and errors of the host itself pass
through unchanged. -/
def toHostError : EngineError → HostError
  | trap cause => .trap cause
  | host error => error
  | failure => .engine failure.message

end EngineError

end ContractHost
