/-
# Serving syscalls

The services that a running program may ask for. Every service first looks up the
context that asks, and its contract's name is a part of every key that it touches. A
call of another contract is handed to an invoker, if there is one; what the call used is
charged to the context that asked for it.
-/

import ContractHost.Host
import ContractHost.Linking

namespace ContractHost

/-- Serves the syscalls of a context. -/
abbrev SyscallHandler (M : Type) :=
  ContextId → SyscallRequest → HostM M HostError SyscallResponse

/-- Calls a contract on behalf of a context: the contract, the method and the arguments.
Answers with the response, also one by which the contract reports a failure, and with
what the call used. -/
abbrev Invoker (M : Type) :=
  Context → String → String → Arguments → HostM M HostError (Response × Resources)

/-- Where a dispatcher finds its invoker. The first invoker stays, and once it is gone
nothing takes its place. -/
inductive InvokerSlot (M : Type)
  | vacant
  | serving (invoker : Invoker M)
  | gone

namespace InvokerSlot

variable {M : Type}

/-- Offers an invoker, which is taken if there never was one. -/
def install (slot : InvokerSlot M) (invoker : Invoker M) : InvokerSlot M :=
  match slot with
  | vacant => serving invoker
  | slot => slot

/-- The slot after its invoker ceased to exist. -/
def retire : InvokerSlot M → InvokerSlot M
  | serving _ => gone
  | slot => slot

/-- The invoker that serves. -/
def invoker? : InvokerSlot M → Option (Invoker M)
  | serving invoker => some invoker
  | vacant | gone => none

end InvokerSlot

namespace Syscall

variable {M : Type}

/-- The context of a number. -/
def requireContext (id : ContextId) : HostM M HostError Context := do
  match (← get).contexts.find? id with
  | some ctx => return ctx
  | none => throw (.unknownContext id)

/-- Writes an object. No value at all is refused before the store is touched. -/
def putObject (id : ContextId) (key : Bytes) (value : Option Bytes) : HostM M HostError Unit := do
  let ctx ← requireContext id
  match value with
  | none => throw (.nilValue (Utf8.lossy key))
  | some value =>
    (HostM.putKey (StoreKey.object ctx.setup.contract key) value).mapError .storage

/-- Reads an object, which has to be there. -/
def getObject (id : ContextId) (key : Bytes) : HostM M HostError Bytes := do
  let ctx ← requireContext id
  let composite := StoreKey.object ctx.setup.contract key
  match ← (HostM.getKey composite).mapError .storage with
  | some value => return value
  | none => throw (.objectNotFound (Utf8.lossy composite))

/-- Removes an object; a missing one is no fault. -/
def deleteObject (id : ContextId) (key : Bytes) : HostM M HostError Unit := do
  let ctx ← requireContext id
  (HostM.deleteKey (StoreKey.object ctx.setup.contract key)).mapError .storage

/-- What a program may learn about its call. -/
def getCallArgs (id : ContextId) : HostM M HostError CallArgs := do
  let ctx ← requireContext id
  return ctx.callArgs

/-- Sets the output of a call in place of any earlier one. -/
def setOutput (id : ContextId) (response : Response) : HostM M HostError Unit := do
  let _ ← requireContext id
  modify fun h => { h with contexts := h.contexts.update id (Context.setOutput response) }

/-- Reserved: moves nothing. -/
def transfer (id : ContextId) : HostM M HostError Unit := do
  let _ ← requireContext id

/-- Calls another contract, with the calling contract as the caller. -/
def contractCall (invoker? : Option (Invoker M)) (id : ContextId)
    (module contract method : String) (args : List ArgPair) : HostM M HostError Response := do
  let ctx ← requireContext id
  if module ≠ SyscallRequest.contractModule then
    throw (.unsupportedModule module)
  match invoker? with
  | none => throw (.engine "contract calls are not available")
  | some invoker =>
    let (response, used) ← invoker ctx contract method (Arguments.ofPairs args)
    modify fun h => { h with contexts := h.contexts.update id (Context.addNestedUsage used) }
    return response

/-- Answers a request, given who serves calls of other contracts. -/
def answer (invoker? : Option (Invoker M)) (id : ContextId) :
    SyscallRequest → HostM M HostError SyscallResponse
  | .putObject key value => do
    putObject id key value
    return .empty
  | .getObject key => return .value (← getObject id key)
  | .deleteObject key => do
    deleteObject id key
    return .empty
  | .getCallArgs => return .callArgs (← getCallArgs id)
  | .setOutput response => do
    setOutput id response
    return .empty
  | .transfer .. => do
    transfer id
    return .empty
  | .contractCall module contract method args =>
    return .response (← contractCall invoker? id module contract method args)

/-- Serves a request: enters it into the journal and answers it. The answer is entered as
well. -/
def serve (invoker? : Option (Invoker M)) : SyscallHandler M := fun id request => do
  HostM.note (.syscall id request (← get).contexts.live)
  let result ← (answer invoker? id request).attempt
  HostM.note (.answered id request result)
  return ← result

/-- Asks for a service through an import that is bound to a service. A request for
another service than the one bound does not match its signature. -/
def callBound (handler : SyscallHandler M) (bound : SyscallKind) (id : ContextId)
    (request : SyscallRequest) : HostM M EngineError SyscallResponse :=
  if request.kind ≠ bound then
    throw (.trap (.signatureMismatch Resolver.syscallModule bound.name))
  else (handler id request).mapError .host

end Syscall

end ContractHost
