/-
# Running scripts

A machine runs the operations of a function one after another. Before each operation it
looks at its signal and pays a fixed price in gas; an operation then computes with the
variables of the run, asks for services, or decides what runs next. The price of an
operation and the gas that a program burns are all that a machine is charged with, and
a machine that passes its limit stays above it.
-/

import ContractHost.Engine
import ContractHost.Script.Module
import ContractHost.Script.Template

namespace ContractHost.Script

/-- One execution of a module. -/
structure Machine where
  module : Module
  gasLimit : UInt64
  gasUsed : UInt64 := 0
  memory : Option UInt64
  language : Option Language := none
  context : Option ContextId := none
  writer : Option DebugWriter := none
  signal : Option SignalId := none

/-- A machine in the middle of a run, with its host. -/
structure Task where
  machine : Machine
  vars : Variables := .empty
  host : Host Module

/-- A step of a run. -/
abbrev Run := ExceptT EngineError (StateM Task)

/-- What follows an operation: the next one, or nothing more in this run. -/
inductive Flow
  | next
  | stop
deriving DecidableEq, Repr

namespace Run

/-- The price of an operation. -/
def operationPrice : UInt64 := 100

/-- Fails with a trap if there is one. -/
def orTrap {α : Type} : Except Trap α → Run α
  | .ok a => return a
  | .error trap => throw (.trap trap)

/-- Fills a template in. -/
def expand (template : String) : Run String := do
  orTrap (Template.expand (← get).vars template)

/-- The number that a filled-in template denotes. -/
def expandNumber (template : String) : Run Nat := do
  orTrap (Template.expandNumber (← get).vars template)

/-- Sets a variable. -/
def assign (name value : String) : Run Unit :=
  modify fun task => { task with vars := task.vars.insert name value }

/-- Does something on the host. -/
def onHost {α : Type} (action : HostM Module EngineError α) : Run α :=
  ExceptT.mk fun task =>
    let (result, host) := action.run task.host
    (result, { task with host })

/-- Traps if the machine was asked to end. -/
def checkSignal : Run Unit := do
  let task ← get
  match task.machine.signal.bind task.host.signals.trap? with
  | some trap => throw (.trap trap)
  | none => return

/-- Charges gas, and traps if the limit is passed. -/
def charge (gas : UInt64) : Run Unit := do
  modify fun task =>
    { task with machine.gasUsed := addSaturating task.machine.gasUsed gas }
  let machine := (← get).machine
  if machine.gasLimit < machine.gasUsed then
    throw (.trap .gasExhausted)

/-- Starts an operation. -/
def start (op : Op) : Run Unit := do
  checkSignal
  charge operationPrice
  let machine := (← get).machine
  onHost (HostM.note (.operation machine.context op))

/-- Asks for a service. -/
def syscall (handler : SyscallHandler Module) (request : SyscallRequest) : Run SyscallResponse := do
  let machine := (← get).machine
  match machine.context with
  | none => throw (.other "context id not bound")
  | some id =>
    match machine.module.binding? request.kind with
    | none => throw (.trap (.symbolNotFound Resolver.syscallModule request.kind.name))
    | some bound => onHost (Syscall.callBound handler bound id request)

/-- Asks for a service whose answer does not matter. -/
def request (handler : SyscallHandler Module) (request : SyscallRequest) : Run Unit := do
  let _ ← syscall handler request

/-- Writes a line of debug output. Without a writer it is lost. -/
def writeLine (line : String) : Run Unit :=
  modify fun task =>
    match task.machine.writer with
    | none => task
    | some writer =>
      let (lines, writer) := writer.write (Utf8.encode line ++ [DebugWriter.newline])
      { task with machine.writer := some writer, host := task.host.addLines lines }

/-- Learns about the call: its method, its caller, and its arguments. -/
def learn (call : CallArgs) : Run Unit := do
  assign "method" call.method
  assign "caller" call.caller
  for pair in call.args do
    assign ("arg." ++ pair.key) (Utf8.lossy pair.value)

/-- Reads an object. A fallback takes the place of a missing object, and of no other
failure. -/
def readObject (handler : SyscallHandler Module) (key : Bytes) (fallback : Option String) :
    Run String := do
  let answer ← ExceptT.lift (syscall handler (.getObject key)).run
  match answer, fallback with
  | .ok (.value value), _ => return Utf8.lossy value
  | .ok _, _ => return ""
  | .error (.host (.objectNotFound _)), some fallback => expand fallback
  | .error e, _ => throw e

/-- Fills in the arguments of a call. -/
def expandArgs (args : List (String × String)) : Run (List ArgPair) :=
  args.mapM fun (key, template) => do
    let value ← expand template
    return ⟨key, Utf8.encode value⟩

/-- The variables that hold the answer of a call. -/
def receive (into : Option String) (answer : SyscallResponse) : Run Unit :=
  match answer, into with
  | .response response, some into => do
    assign (into ++ ".status") (Decimal.printInt response.status.toInt)
    assign into (Utf8.lossy response.body)
  | _, _ => return

/-- Does what an instruction says. -/
def perform (handler : SyscallHandler Module) : Instruction → Run Flow
  | .getCallArgs => do
    match ← syscall handler .getCallArgs with
    | .callArgs call => learn call
    | _ => pure ()
    return .next
  | .put key value => do
    let key ← expand key
    let value ← expand value
    request handler (.putObject (Utf8.encode key) (some (Utf8.encode value)))
    return .next
  | .putNil key => do
    let key ← expand key
    request handler (.putObject (Utf8.encode key) none)
    return .next
  | .get key into fallback => do
    let key ← expand key
    let value ← readObject handler (Utf8.encode key) fallback
    assign into value
    return .next
  | .delete key => do
    let key ← expand key
    request handler (.deleteObject (Utf8.encode key))
    return .next
  | .output status message body => do
    let message ← expand message
    let body ← expand body
    request handler (.setOutput ⟨status, message, Utf8.encode body⟩)
    return .next
  | .requireAtLeast left right status message => do
    let left ← expandNumber left
    let right ← expandNumber right
    if left < right then
      let message ← expand message
      request handler (.setOutput (.failure status message))
      return .stop
    else return .next
  | .add into left right => do
    let left ← expandNumber left
    let right ← expandNumber right
    if left + right < Template.numberBound then
      assign into (Decimal.print (left + right))
      return .next
    else throw (.trap .integerOverflow)
  | .sub into left right => do
    let left ← expandNumber left
    let right ← expandNumber right
    if left < right then throw (.trap .integerOverflow)
    else
      assign into (Decimal.print (left - right))
      return .next
  | .call module contract method args into => do
    let args ← expandArgs args
    let contract ← expand contract
    let method ← expand method
    let answer ← syscall handler (.contractCall module contract method args)
    receive into answer
    return .next
  | .transfer payer payee amount => do
    let payer ← expand payer
    let payee ← expand payee
    let amount ← expand amount
    request handler (.transfer payer payee amount)
    return .next
  | .log message => do
    let line ← expand message
    writeLine line
    return .next
  | .burn gas => do
    charge gas
    return .next
  | .grow octets => do
    modify fun task =>
      { task with machine.memory := task.machine.memory.map (addSaturating · octets) }
    return .next
  | .trap cause => throw (.trap cause)
  | .spin millis => do
    if millis ≠ 0 then checkSignal
    return .next
  | .stop => return .stop

mutual

/-- Runs operations until one stops the run. -/
def operations (handler : SyscallHandler Module) : List Op → Run Flow
  | [] => return .next
  | op :: rest => do
    start op
    match ← operation handler op with
    | .stop => return .stop
    | .next => operations handler rest

/-- Does what an operation says. -/
def operation (handler : SyscallHandler Module) : Op → Run Flow
  | .single instruction => perform handler instruction
  | .branch selector cases otherwise => do
    let selected ← expand selector
    oneOf handler selected cases (operations handler otherwise)

/-- Runs the case of a label, or what is to run without one. -/
def oneOf (handler : SyscallHandler Module) (selected : String) :
    List (String × List Op) → Run Flow → Run Flow
  | [], otherwise => otherwise
  | (label, ops) :: rest, otherwise =>
    if label = selected then operations handler ops else oneOf handler selected rest otherwise

end

end Run

namespace Machine

/-- A machine of a module, before anything is prepared. -/
def ofModule (module : Module) (gasLimit : UInt64) : Machine where
  module
  gasLimit
  memory := module.program.memory

/-- How many parameters an entered function expects. Without a language it is none. -/
def expectedParams (machine : Machine) : Nat :=
  match machine.language with
  | some language => language.entryParams.length
  | none => 0

/-- Runs a function that a machine exports. -/
def exec (handler : SyscallHandler Module) (machine : Machine) (entry : String)
    (params : List Int) : StateM (Host Module) (Except EngineError Int × Machine) := fun host =>
  if params.length ≠ machine.expectedParams then
    ((.error (.trap .invalidArgument), machine), host)
  else
    match machine.module.program.exports.get? entry with
    | none => ((.error (.other ("export " ++ entry ++ " not found")), machine), host)
    | some ops =>
      let (result, task) := (Run.operations handler ops).run { machine, host }
      ((result.map fun _ => 0, task.machine), task.host)

/-- Closes a machine: its writer gives up what it has gathered. -/
def close (machine : Machine) : List LogLine × Machine :=
  match machine.writer with
  | some writer => (writer.flush.1, { machine with writer := none })
  | none => ([], machine)

end Machine

/-- The engine that runs scripts. -/
def engine : Engine Module Machine where
  compile := Module.compile
  boot module gasLimit := .ok (Machine.ofModule module gasLimit)
  installRuntime language machine := .ok { machine with language := some language }
  bind id machine := { machine with context := some id }
  attachWriter writer machine := { machine with writer := some writer }
  attachSignal signal machine := { machine with signal := some signal }
  gasUsed machine := machine.gasUsed
  memorySize machine := machine.memory
  exec := Machine.exec
  close := Machine.close

end ContractHost.Script
