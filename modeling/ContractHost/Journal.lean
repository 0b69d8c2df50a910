/-
# The journal of a host

A host keeps a journal of what happened, latest first. It says in which order the host
touched its store, ran operations, served syscalls and began and ended calls, so that
statements about a whole run, with all calls inside it, can be read off one list.
-/

import ContractHost.Language
import ContractHost.Script.Program

namespace ContractHost

/-- The ways in which a store is accessed. -/
inductive StoreOp
  | get
  | put
  | delete
deriving DecidableEq, Repr

/-- What a host asks of an execution engine. -/
inductive EngineCall
  | installRuntime (language : Language)
  | bind (context : ContextId)
  | attachWriter
  | attachSignal
  | exec (entry : String) (params : List Int)
  | closeMachine
  | releaseModule
deriving DecidableEq, Repr

/-- One thing that happened. -/
inductive Event
  /-- The store was accessed, or was about to be when the access failed. -/
  | access (op : StoreOp) (key : Bytes)
  /-- The calls of a contract were asked to end: how many were, and how many contexts
  were live. -/
  | abort (contract message : String) (signalled live : Nat)
  /-- A call was begun; the description stored for its contract at that time. -/
  | began (context : ContextId) (description : Option Bytes)
  /-- A call obtained the compiled code of its contract; the digest of the bytecode that
  the code was compiled from. -/
  | obtained (context : ContextId) (contract digest : String)
  /-- The engine was asked for something. -/
  | engine (call : EngineCall)
  /-- A program started an operation. -/
  | operation (context : Option ContextId) (op : Script.Op)
  /-- A syscall was dispatched while the given contexts were live, latest first. -/
  | syscall (context : ContextId) (request : SyscallRequest) (live : List ContextId)
  /-- A syscall was answered, or failed. -/
  | answered (context : ContextId) (request : SyscallRequest)
      (result : Except HostError SyscallResponse)
  /-- The program of a call was done: how it ended, and what it used by itself. -/
  | measured (context : ContextId) (result : Except HostError Unit) (used : Resources)
  /-- The instance of a call gave up its machine. -/
  | released (context : ContextId)
  /-- A call ended. -/
  | ended (context : ContextId) (result : Except HostError Outcome)
  /-- A deployment or invocation was counted. -/
  | started (contract : String)
  /-- The result of a deployment or invocation was counted. -/
  | finished (contract : String) (result : Except HostError Outcome)

end ContractHost
