/-
# The host

Everything that a host remembers, in one record: its store and how the outside world
interferes with it, the contexts of all calls, the code cache, the signals of running
calls, statistics, and, both latest first, debug output and the journal. Host actions
are functions on this record that may fail; a failure keeps what was changed before it.
-/

import ContractHost.CodeCache
import ContractHost.Context
import ContractHost.DebugLog
import ContractHost.Signal
import ContractHost.Store.Basic
import ContractHost.Surroundings

namespace ContractHost

/-- How many modules and machines an engine made and gave up. -/
structure EngineUse where
  modulesCompiled : Nat := 0
  modulesReleased : Nat := 0
  machinesBooted : Nat := 0
  machinesClosed : Nat := 0
deriving DecidableEq, Repr

/-- A call whose program can be asked to end. -/
structure RunningCall where
  context : ContextId
  contract : String
  signal : SignalId
deriving DecidableEq, Repr

/-- What a host counts. -/
structure Stats where
  deploys : Nat := 0
  invocations : Nat := 0
  successes : Nat := 0
  failures : Nat := 0
  evictions : Nat := 0
  totalGas : UInt64 := 0
deriving DecidableEq, Repr

/-- The state of a host whose engine compiles to modules of a type. -/
structure Host (M : Type) where
  store : Store := .memory .empty
  surroundings : Surroundings := {}
  accesses : Nat := 0
  contexts : Contexts := {}
  cache : CodeCache M := {}
  engineUse : EngineUse := {}
  signals : Signals := {}
  running : List RunningCall := []
  stats : Stats := {}
  log : List LogLine := []
  journal : List Event := []

instance {M : Type} : Inhabited (Host M) := ⟨{}⟩

/-- An action on a host that may fail. -/
abbrev HostM (M ε : Type) := ExceptT ε (StateM (Host M))

namespace Host

variable {M : Type}

/-- Enters an event into the journal. -/
def note (event : Event) (h : Host M) : Host M := { h with journal := event :: h.journal }

/-- Adds lines of debug output. -/
def addLines (lines : List LogLine) (h : Host M) : Host M :=
  { h with log := lines.reverse ++ h.log }

/-- Adds a call that can be asked to end. -/
def addRunning (call : RunningCall) (h : Host M) : Host M :=
  { h with running := call :: h.running }

/-- The running calls of a contract. -/
def runningOf (h : Host M) (contract : String) : List RunningCall :=
  h.running.filter fun call => call.contract == contract

/-- Asks every running call of a contract to end. -/
def abortRunning (contract message : String) (h : Host M) : Host M :=
  { h with
    signals := (h.runningOf contract).foldl (fun s call => s.raise call.signal message) h.signals }

/-- Lets an abort arrive from outside. -/
def receiveAbort (h : Host M) : String × String → Host M
  | (contract, message) =>
    (h.abortRunning contract message).note
      (.abort contract message (h.runningOf contract).length h.contexts.size)

/-- What happens before an access of the store: it is counted, and the aborts of its
moment arrive. -/
def beforeAccess (op : StoreOp) (key : Bytes) (h : Host M) : Host M :=
  let arriving := h.surroundings.aborts h.accesses op key
  let counted := { h.note (.access op key) with accesses := h.accesses + 1 }
  arriving.foldl receiveAbort counted

end Host

namespace HostM

variable {M ε α : Type}

/-- Renames the failures of an action. -/
def mapError {ε' : Type} (f : ε → ε') (action : HostM M ε α) : HostM M ε' α :=
  ExceptT.adapt f action

/-- Runs an action and hands out its failure as a value. -/
def attempt {ε' : Type} (action : HostM M ε α) : HostM M ε' (Except ε α) :=
  ExceptT.lift action.run

/-- Enters an event into the journal. -/
def note (event : Event) : HostM M ε Unit := modify (·.note event)

/-- Accesses the store, or fails as the surroundings say. -/
def access (op : StoreOp) (key : Bytes) (use : Store → α × Store) : HostM M StoreError α := do
  let fault? := (← get).surroundings.fault? (← get).accesses op key
  modify (·.beforeAccess op key)
  match fault? with
  | some fault => throw fault
  | none => modifyGet fun h =>
    let (answer, store) := use h.store
    (answer, { h with store })

/-- Reads a key of the store. -/
def getKey (key : Bytes) : HostM M StoreError (Option Bytes) :=
  access .get key fun store => store.get? key

/-- Writes a key of the store. -/
def putKey (key value : Bytes) : HostM M StoreError Unit :=
  access .put key fun store => ((), store.put key value)

/-- Removes a key of the store. -/
def deleteKey (key : Bytes) : HostM M StoreError Unit :=
  access .delete key fun store => ((), store.delete key)

/-- Says whether the store has a key, which is an access like reading it. -/
def hasKey (key : Bytes) : HostM M StoreError Bool := do return (← getKey key).isSome

/-- Reads the bytecode of a contract. Bytecode that is missing and bytecode that is empty
are different faults. -/
def fetchCode (contract : String) : HostM M HostError Bytes := do
  match ← (getKey (StoreKey.code contract)).mapError .storage with
  | none => throw (.missingCode contract)
  | some bytecode =>
    if bytecode.isEmpty then throw (.emptyCode contract) else return bytecode

/-- Reads the language that a contract was deployed with. -/
def contractLanguage (contract : String) : HostM M HostError String := do
  match ← (getKey (StoreKey.description contract)).mapError .storage with
  | none => throw (.missingCode contract)
  | some tag =>
    match Utf8.decode tag with
    | .ok tag => return tag
    | .error fault => throw (.unsupportedLanguage fault.message)

end HostM

end ContractHost
