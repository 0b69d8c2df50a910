/-
# Traps

The closed set of faults that end a running program. A trap is a value like any other
error; every surfaced error that stems from one carries its reason.
-/

namespace ContractHost

/-- Why a program was stopped. -/
inductive Trap
  | outOfBounds
  | integerOverflow
  | divideByZero
  | invalidConversion
  | unreachable
  | invalidIndirectCall
  | callStackExhausted
  | gasExhausted
  | invalidArgument
  | symbolNotFound (module name : String)
  | signatureMismatch (module name : String)
  | aborted (reason : String)
deriving DecidableEq, Repr

namespace Trap

/-- The reason in words. An abort gives the reason of whoever asked for it. -/
def reason : Trap → String
  | outOfBounds => "memory access out of bound"
  | integerOverflow => "integer overflow on divide or truncation"
  | divideByZero => "integer divide by zero"
  | invalidConversion => "conversion from NaN to integer"
  | unreachable => "unreachable instruction executed"
  | invalidIndirectCall => "invalid call_indirect"
  | callStackExhausted => "call stack exhausted"
  | gasExhausted => "run out of gas limit"
  | invalidArgument => "invalid function argument"
  | symbolNotFound module name => module ++ "." ++ name ++ " can't be resolved"
  | signatureMismatch module name => module ++ "." ++ name ++ " not match with host signature"
  | aborted reason => reason

/-- The message of a trap. -/
def message (trap : Trap) : String := "trap error: " ++ trap.reason

end Trap

end ContractHost
