/-
# Execution engines

What a host needs from an engine: it compiles bytecode to modules, boots machines from
modules, and runs the functions that a machine exports. A machine is prepared before it
runs: a language runtime is installed, it is bound to a context, and it is given a
writer for debug output and a signal by which it can be asked to end. The host asks for
each of these through this module, which counts what the engine made and gave up and
enters it into the journal.
-/

import ContractHost.Syscall

namespace ContractHost

/-- An engine with modules and machines of given types. -/
structure Engine (M P : Type) where
  compile : Resolver → Bytes → Except EngineError M
  boot : M → UInt64 → Except EngineError P
  installRuntime : Language → P → Except EngineError P
  bind : ContextId → P → P
  attachWriter : DebugWriter → P → P
  attachSignal : SignalId → P → P
  gasUsed : P → UInt64
  memorySize : P → Option UInt64
  exec : SyscallHandler M → P → String → List Int → StateM (Host M) (Except EngineError Int × P)
  close : P → List LogLine × P

namespace Engine

variable {M P : Type} (engine : Engine M P)

/-- Compiles bytecode against the given imports. -/
def compileModule (resolver : Resolver) (bytecode : Bytes) : HostM M EngineError M := do
  let module ← engine.compile resolver bytecode
  modify fun h =>
    { h with engineUse.modulesCompiled := h.engineUse.modulesCompiled + 1 }
  return module

/-- Boots a machine with a gas limit. -/
def bootMachine (module : M) (gasLimit : UInt64) : HostM M EngineError P := do
  let machine ← engine.boot module gasLimit
  modify fun h =>
    { h with engineUse.machinesBooted := h.engineUse.machinesBooted + 1 }
  return machine

/-- Installs the runtime of a language. -/
def install (language : Language) (machine : P) : HostM M EngineError P := do
  HostM.note (.engine (.installRuntime language))
  engine.installRuntime language machine

/-- Prepares a machine for a call of a context. -/
def prepare (id : ContextId) (contract : String) (signal : SignalId) (machine : P) :
    StateM (Host M) P := do
  modify (·.note (.engine (.bind id)))
  modify (·.note (.engine .attachWriter))
  modify (·.note (.engine .attachSignal))
  let writer : DebugWriter := { contract, context := id }
  return engine.attachSignal signal (engine.attachWriter writer (engine.bind id machine))

/-- Runs a function that a machine exports. -/
def run (handler : SyscallHandler M) (machine : P) (entry : String) (params : List Int) :
    StateM (Host M) (Except EngineError Int × P) := do
  modify (·.note (.engine (.exec entry params)))
  engine.exec handler machine entry params

/-- Closes a machine. -/
def closeMachine (machine : P) : StateM (Host M) P := do
  let (lines, machine) := engine.close machine
  modify fun h =>
    { (h.addLines lines).note (.engine .closeMachine) with
      engineUse.machinesClosed := h.engineUse.machinesClosed + 1 }
  return machine

end Engine

namespace Host

variable {M : Type}

/-- Counts a module that is given up. -/
def releaseModule (h : Host M) : Host M :=
  { h.note (.engine .releaseModule) with
    engineUse.modulesReleased := h.engineUse.modulesReleased + 1 }

/-- Counts what a change of the code cache gave up. -/
def settle (change : Option (CompiledCode M) × CodeCache M) (h : Host M) : Host M :=
  let changed := { h with cache := change.2 }
  match change.1 with
  | some _ => changed.releaseModule
  | none => changed

/-- Drops the module cached for a contract. -/
def evict (contract : String) (h : Host M) : Host M := h.settle (h.cache.remove contract)

/-- Gives a lease on a module back. -/
def giveBack (code : CompiledCode M) (h : Host M) : Host M := h.settle (h.cache.giveBack code)

end Host

end ContractHost
