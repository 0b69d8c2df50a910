/-
# Compiling scripts

A script is compiled by reading its program and resolving what it imports: everything
that it lists, and every service that one of its operations asks for, wherever the
operation stands. A module therefore never lacks a binding when it runs.
-/

import ContractHost.Error
import ContractHost.Linking
import ContractHost.Script.Reader

namespace ContractHost.Script

/-- A program with its services bound. -/
structure Module where
  program : Program
  bindings : List (SyscallKind × SyscallKind)

namespace Module

/-- Resolves an import. -/
def link (resolver : Resolver) (module name : String) : Except EngineError HostFunction :=
  match resolver.function module name with
  | some function => .ok function
  | none => .error (.trap (.symbolNotFound module name))

/-- Binds a service. A support function under the name of a service does not match its
signature. -/
def bindSyscall (resolver : Resolver) (kind : SyscallKind) :
    Except EngineError (SyscallKind × SyscallKind) := do
  match ← link resolver Resolver.syscallModule kind.name with
  | .syscall bound => return (kind, bound)
  | .runtime _ => throw (.trap (.signatureMismatch Resolver.syscallModule kind.name))

/-- Links a program. -/
def ofProgram (resolver : Resolver) (program : Program) : Except EngineError Module := do
  for (module, name) in program.imports do
    let _ ← link resolver module name
  let bindings ← program.syscalls.mapM (bindSyscall resolver)
  return { program, bindings }

/-- Why bytecode is no module. -/
def notAProgram : String := "not a script program"

/-- Compiles bytecode. -/
def compile (resolver : Resolver) (bytecode : Bytes) : Except EngineError Module :=
  match Program.read? bytecode with
  | some program => ofProgram resolver program
  | none => .error (.invalidModule notAProgram)

/-- What a service is bound to. -/
def binding? (module : Module) (kind : SyscallKind) : Option SyscallKind :=
  module.bindings.lookup kind

end Module

end ContractHost.Script
