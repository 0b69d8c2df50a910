/-
# Contract instances

An instance is one call made ready to run: a machine of the contract's module, prepared
for the call's context, with a signal of its own. It holds a lease on its module, so
dropping the module from the cache does not take it away from under a running call. An
abort that arrives before or during a run decides the result, whatever the program did.
-/

import ContractHost.Engine

namespace ContractHost

/-- How an instance comes by its module: compiled for it, or taken from the cache where
there is one. -/
inductive CodeLoad
  | compile
  | reuse
deriving DecidableEq, Repr

/-- An engine with the settings of its machines. -/
structure Backend (M P : Type) where
  engine : Engine M P
  gasLimit : UInt64

/-- One call made ready to run. -/
structure Instance (M P : Type) where
  context : ContextId
  setup : CallSetup
  machine : P
  signal : SignalId
  closed : Bool := false
  code : CompiledCode M

namespace Backend

variable {M P : Type} (backend : Backend M P)

/-- Fetches the bytecode of a contract and compiles it against the standard imports. -/
def compileContract : CodeFactory (StateM (Host M)) M := fun contract =>
  ExceptT.run (m := StateM (Host M)) do
    let bytecode ← HostM.fetchCode contract
    let module ← (backend.engine.compileModule .standard bytecode).mapError EngineError.toHostError
    return (bytecode, module)

/-- Obtains a lease on the module of a context's contract. -/
def obtainCode (load : CodeLoad) (ctx : Context) : HostM M HostError (CompiledCode M) := do
  let cache := (← get).cache
  let contract := ctx.setup.contract
  let (result, cache) ← match load with
    | .compile => (cache.compileFresh backend.compileContract contract : StateM (Host M) _)
    | .reuse => (cache.acquire backend.compileContract contract : StateM (Host M) _)
  modify fun h => { h with cache }
  let code ← result
  HostM.note (.obtained ctx.id contract code.digest)
  return code

/-- Installs the runtime of a context's language. An unknown language is passed over
here, and refused when the instance is entered. -/
def installLanguage (ctx : Context) (machine : P) : HostM M EngineError P :=
  match Language.ofTag? ctx.setup.language with
  | some language => backend.engine.install language machine
  | none => return machine

/-- Boots a machine of a module and prepares it for a context. A machine that cannot be
prepared is closed. -/
def bootFor (ctx : Context) (code : CompiledCode M) : HostM M HostError (Instance M P) := do
  let machine ← (backend.engine.bootMachine code.module backend.gasLimit).mapError EngineError.toHostError
  match ← (backend.installLanguage ctx machine).attempt with
  | .error e =>
    let _ ← backend.engine.closeMachine machine
    throw e.toHostError
  | .ok machine =>
    let signal := (← get).signals.next
    modify fun h => { h with signals := h.signals.issue }
    let machine ← backend.engine.prepare ctx.id ctx.setup.contract signal machine
    return { context := ctx.id, setup := ctx.setup, machine, signal, code }

/-- Makes a call ready to run. If that fails nothing of it is left but the module in the
cache. -/
def createInstance (load : CodeLoad) (ctx : Context) : HostM M HostError (Instance M P) := do
  let code ← backend.obtainCode load ctx
  match ← (backend.bootFor ctx code).attempt with
  | .ok inst => return inst
  | .error e =>
    modify (·.giveBack code)
    throw e

end Backend

namespace Instance

variable {M P : Type} (engine : Engine M P)

/-- The function that the call enters. -/
def entryPoint (inst : Instance M P) : Except HostError String := do
  let language ← Language.ofTag inst.setup.language
  return language.entryPoint inst.setup.method

/-- The arguments that the entered function is given. -/
def entryParams (inst : Instance M P) : List Int :=
  match Language.ofTag? inst.setup.language with
  | some language => language.entryParams
  | none => []

/-- Runs a function of the instance's module. -/
def exec (handler : SyscallHandler M) (inst : Instance M P) (entry : String) :
    StateM (Host M) (Except HostError Unit × Instance M P) := do
  match (← get).signals.trap? inst.signal with
  | some trap => return (.error (.trap trap), inst)
  | none =>
    if (engine.memorySize inst.machine).isNone then
      return (.error (.engine "bad contract, no memory"), inst)
    else
      let (result, machine) ← engine.run handler inst.machine entry inst.entryParams
      let inst := { inst with machine }
      match (← get).signals.trap? inst.signal with
      | some trap => return (.error (.trap trap), inst)
      | none =>
        match result with
        | .ok _ => return (.ok (), inst)
        | .error e => return (.error e.toHostError, inst)

/-- What the instance has used so far. -/
def used (inst : Instance M P) : Resources where
  cpu := engine.gasUsed inst.machine
  memory := (engine.memorySize inst.machine).getD 0

/-- Closes the instance's machine, once. -/
def close (inst : Instance M P) : StateM (Host M) (Instance M P) := do
  if inst.closed then return inst
  else
    let machine ← engine.closeMachine inst.machine
    modify (·.note (.released inst.context))
    return { inst with machine, closed := true }

/-- Asks the instance to end. -/
def abort (inst : Instance M P) (reason : String) (h : Host M) : Host M :=
  { h with signals := h.signals.raise inst.signal reason }

/-- Gives the instance up: its machine is closed and its lease given back. -/
def discard (inst : Instance M P) : StateM (Host M) Unit := do
  let inst ← inst.close engine
  modify (·.giveBack inst.code)

end Instance

end ContractHost
