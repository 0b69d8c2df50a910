/-
# Script programs

The programs of the script engine: a memory size, a list of imports, and exported
functions that are lists of operations. An operation is an instruction or a branch, and
branches are the only place where operations stand inside operations. The texts inside
an operation are templates, filled in when the operation runs, apart from the names of
the variables that it binds.
-/

import ContractHost.Message
import ContractHost.Trap

namespace ContractHost.Script

/-- What an operation does that runs no other operations. -/
inductive Instruction
  | getCallArgs
  | put (key value : String)
  | putNil (key : String)
  | get (key into : String) (fallback : Option String)
  | delete (key : String)
  | output (status : Int32) (message body : String)
  | requireAtLeast (left right : String) (status : Int32) (message : String)
  | add (into left right : String)
  | sub (into left right : String)
  | call (module contract method : String) (args : List (String × String)) (into : Option String)
  | transfer (payer payee amount : String)
  | log (message : String)
  | burn (gas : UInt64)
  | grow (octets : UInt64)
  | trap (cause : Trap)
  | spin (millis : UInt64)
  | stop
deriving DecidableEq, Repr

/-- The service that an instruction asks for. -/
def Instruction.syscall? : Instruction → Option SyscallKind
  | getCallArgs => some .getCallArgs
  | put .. | putNil _ => some .putObject
  | get .. => some .getObject
  | delete _ => some .deleteObject
  | output .. | requireAtLeast .. => some .setOutput
  | call .. => some .contractCall
  | transfer .. => some .transfer
  | add .. | sub .. | log _ | burn _ | grow _ | trap _ | spin _ | stop => none

/-- One operation of a program: an instruction, or a choice of the operations to run by
what a template denotes. -/
inductive Op
  | single (instruction : Instruction)
  | branch (selector : String) (cases : List (String × List Op)) (otherwise : List Op)
deriving Repr

namespace Op

mutual

/-- The services that an operation asks for, those inside its cases included, in the
order in which they stand. -/
def syscalls : Op → List SyscallKind
  | single instruction => instruction.syscall?.toList
  | branch _ cases otherwise => syscallsOfCases cases ++ syscallsOfAll otherwise

/-- The services that a list of operations asks for. -/
def syscallsOfAll : List Op → List SyscallKind
  | [] => []
  | op :: rest => op.syscalls ++ syscallsOfAll rest

/-- The services that the cases of a branch ask for. -/
def syscallsOfCases : List (String × List Op) → List SyscallKind
  | [] => []
  | (_, ops) :: rest => syscallsOfAll ops ++ syscallsOfCases rest

end

end Op

/-- A program. A program without memory cannot be run as a contract. -/
structure Program where
  memory : Option UInt64
  imports : List (String × String)
  exports : Table String (List Op)

namespace Program

/-- The memory of a program that does not say otherwise. -/
def standardMemory : UInt64 := 65536

/-- The services that a program asks for anywhere. -/
def syscalls (p : Program) : List SyscallKind :=
  p.exports.entries.flatMap fun (_, ops) => Op.syscallsOfAll ops

end Program

end ContractHost.Script
