/-
# Linking

A program imports functions by module and name, and imports are resolved once, when the
program is compiled. What an import resolves to is either a service of the host or a
support function of a language, each of a fixed number of parameters; resolvers are
asked in turn and the first that knows a name decides.
-/

import ContractHost.Message

namespace ContractHost

/-- Support functions that a language runtime imports. -/
inductive RuntimeFunction
  | exit
  | write
  | resetMemoryView
  | nanotime
  | walltime
  | scheduleTimeout
  | clearTimeout
  | randomData
  | debug
deriving DecidableEq, Repr

namespace RuntimeFunction

/-- Every support function. -/
def all : List RuntimeFunction :=
  [exit, write, resetMemoryView, nanotime, walltime, scheduleTimeout, clearTimeout, randomData,
    debug]

/-- The name under which a support function is imported. -/
def name : RuntimeFunction → String
  | exit => "runtime.wasmExit"
  | write => "runtime.wasmWrite"
  | resetMemoryView => "runtime.resetMemoryDataView"
  | nanotime => "runtime.nanotime1"
  | walltime => "runtime.walltime1"
  | scheduleTimeout => "runtime.scheduleTimeoutEvent"
  | clearTimeout => "runtime.clearTimeoutEvent"
  | randomData => "runtime.getRandomData"
  | debug => "debug"

/-- The support function of a name. -/
def ofName? (name : String) : Option RuntimeFunction := all.find? fun f => f.name == name

end RuntimeFunction

/-- What an import resolves to. -/
inductive HostFunction
  | syscall (kind : SyscallKind)
  | runtime (function : RuntimeFunction)
deriving DecidableEq, Repr

/-- How many parameters a program passes: the place and length of a request, or its
stack pointer. -/
def HostFunction.arity : HostFunction → Nat
  | syscall _ => 2
  | runtime _ => 1

/-- What the imports of a program mean. -/
structure Resolver where
  function : String → String → Option HostFunction := fun _ _ => none
  global : String → String → Option Int := fun _ _ => none

namespace Resolver

/-- The module from which services are imported. -/
def syscallModule : String := "env"

/-- The module from which the support functions of Go are imported. -/
def goModule : String := "go"

/-- Resolves the services of the host. -/
def syscalls : Resolver where
  function module name :=
    if module = syscallModule then (SyscallKind.ofName? name).map .syscall else none

/-- Resolves the support functions of Go. -/
def goRuntime : Resolver where
  function module name :=
    if module = goModule then (RuntimeFunction.ofName? name).map .runtime else none

/-- Asks resolvers in turn. -/
def chain (resolvers : List Resolver) : Resolver where
  function module name := resolvers.findSome? fun r => r.function module name
  global module name := resolvers.findSome? fun r => r.global module name

/-- What contracts are linked against. -/
def standard : Resolver := chain [goRuntime, syscalls]

end Resolver

end ContractHost
