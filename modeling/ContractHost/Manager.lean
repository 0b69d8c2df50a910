/-
# Deploying and calling contracts

A manager runs each call in a context of its own: it obtains an instance, runs the
function that the call enters, and turns output and usage into an outcome, or the reason
why there is none into an error. Whatever happens, the context, the running call and the
instance are gone when the call ends. Errors that cast doubt on a contract's compiled
code drop it from the cache; refused requests touch nothing.

A contract that calls another one is served by the same manager. How deep such calls may
still nest is a number that each level counts down, so a run of contracts that call each
other always ends.
-/

import ContractHost.Backends
import ContractHost.Config
import ContractHost.Request

namespace ContractHost

/-- A host's settings, with the backend that they name. -/
structure Manager (M P : Type) where
  config : Config
  backend : Backend M P

namespace Stats

/-- Counts the result of a call. -/
def count (result : Except HostError Outcome) (s : Stats) : Stats :=
  match result with
  | .ok outcome =>
    { s with successes := s.successes + 1, totalGas := addSaturating s.totalGas outcome.gas }
  | .error e =>
    { s with
      failures := s.failures + 1
      totalGas := addSaturating s.totalGas e.billedGas
      evictions := s.evictions + if e.evictsCode then 1 else 0 }

end Stats

namespace Manager

variable {M P : Type}

/-- Opens a manager on the backend that its settings name. Settings that a host cannot
run with are refused first. -/
def build (config : Config) (backends : Backends M P) : Except HostError (Manager M P) := do
  match config.validate with
  | .error e => throw (.config e)
  | .ok () =>
    let backend ← backends.build config.backend config.gasLimit
    return { config, backend }

variable (manager : Manager M P)

/-- Turns what a call left behind into its outcome: its own usage, and what the registry
knows of its context by now. -/
def settle (created : Context) (own : Resources) : HostM M HostError Outcome := do
  let ctx := ((← get).contexts.held? created.id).getD created
  let used := own.add ctx.nestedUsage
  if used.exceeds manager.config.maxLimits then
    throw (.trap .gasExhausted)
  modify fun h => { h with contexts := h.contexts.update ctx.id Context.dropOutput }
  match ctx.output with
  | none => throw (.missingOutput ctx.setup.contract)
  | some response =>
    let outcome := Outcome.priced response used manager.config.rates
    if response.isError then
      throw (.contract response outcome.resources outcome.gas)
    else return outcome

/-- Runs the program of an instance and gives the instance up. -/
def runInstance (nested : Invoker M) (inst : Instance M P) :
    StateM (Host M) (Except HostError Unit × Resources) := do
  let engine := manager.backend.engine
  let (result, inst) ← match inst.entryPoint with
    | .ok entry => inst.exec engine (Syscall.serve (some nested)) entry
    | .error e => pure (.error e, inst)
  let used := inst.used engine
  modify (·.note (.measured inst.context result used))
  inst.discard engine
  return (result, used)

/-- Runs a call in the context made for it. -/
def runIn (nested : Invoker M) (load : CodeLoad) (ctx : Context) :
    HostM M HostError Outcome := do
  let inst ← manager.backend.createInstance load ctx
  modify (·.addRunning
    { context := ctx.id, contract := ctx.setup.contract, signal := inst.signal })
  let (result, used) ← manager.runInstance nested inst
  let _ ← result
  manager.settle ctx used

/-- Creates the context of a call. -/
def beginCall (setup : CallSetup) (h : Host M) : Host M :=
  { h with contexts := h.contexts.create setup }.note
    (.began h.contexts.next (h.store.peek? (StoreKey.description setup.contract)))

/-- Removes what the host kept for a call. -/
def endCall (id : ContextId) (result : Except HostError Outcome) (h : Host M) : Host M :=
  { h.note (.ended id result) with
    running := h.running.filter fun call => call.context != id
    contexts := h.contexts.destroy id }

/-- Runs a call in a new context, which does not outlive it. -/
def runCall (nested : Invoker M) (load : CodeLoad) (setup : CallSetup) :
    HostM M HostError Outcome := do
  let id := (← get).contexts.next
  modify (beginCall setup)
  let result ← (manager.runIn nested load { id, setup }).attempt
  modify (endCall id result)
  return ← result

/-- Counts a result, and drops the contract's compiled code where the result calls for
it. -/
def finish (contract : String) (result : Except HostError Outcome) (h : Host M) : Host M :=
  let counted := { h.note (.finished contract result) with stats := h.stats.count result }
  match result with
  | .ok _ => counted
  | .error e => if e.evictsCode then counted.evict contract else counted

/-- Runs a call on code that may be compiled already. -/
def invoke (nested : Invoker M) (setup : CallSetup) : HostM M HostError Outcome := do
  modify fun h =>
    { h.note (.started setup.contract) with stats.invocations := h.stats.invocations + 1 }
  let result ← (manager.runCall nested .reuse setup).attempt
  modify (finish setup.contract result)
  return ← result

/-- Calls a contract on behalf of a context, where calls may nest the given number of
levels deeper. A failure that the called contract reports itself is an answer like any
other. -/
def nestedCall : Nat → Invoker M
  | 0, caller, _, _, _ =>
    throw (.depthExceeded (caller.setup.depth + 1) manager.config.maxCallDepth.toNat)
  | room + 1, caller, contract, method, args => do
    let depth := caller.setup.depth + 1
    if manager.config.maxCallDepth.toNat < depth then
      throw (.depthExceeded depth manager.config.maxCallDepth.toNat)
    Naming.validate contract
    let language ← HostM.contractLanguage contract
    let setup : CallSetup :=
      { contract, method, args, language, caller := caller.setup.contract, depth }
    match ← (manager.invoke (nestedCall room) setup).attempt with
    | .ok outcome => return (outcome.response, outcome.resources)
    | .error (.contract response resources _) => return (response, resources)
    | .error e => throw e

/-- Who serves the calls of a context at a depth. -/
def invokerAt (depth : Nat) : Invoker M :=
  manager.nestedCall (manager.config.maxCallDepth.toNat - depth)

/-- Stores the code of a contract and calls its initial method. -/
def deployAccepted (request : CallRequest) : HostM M HostError Outcome := do
  (HostM.putKey (StoreKey.code request.contract) request.code).mapError .storage
  (HostM.putKey (StoreKey.description request.contract) (Utf8.encode request.language)).mapError
    .storage
  manager.runCall (manager.invokerAt 0) .compile
    { contract := request.contract, method := initMethod, args := request.args
      language := request.language, caller := request.caller, depth := 0 }

/-- Deploys a contract. -/
def deploy (fields : RequestFields) : HostM M HostError Outcome := do
  let request ← CallRequest.parse fields true
  modify fun h =>
    { h.note (.started request.contract) with stats.deploys := h.stats.deploys + 1 }
  let result ← (manager.deployAccepted request).attempt
  modify (finish request.contract result)
  return ← result

/-- Invokes a method of a deployed contract. -/
def invokeContract (method : String) (fields : RequestFields) : HostM M HostError Outcome := do
  let request ← CallRequest.parse fields false
  manager.invoke (manager.invokerAt 0)
    { contract := request.contract, method, args := request.args
      language := request.language, caller := request.caller, depth := 0 }

end Manager

end ContractHost
