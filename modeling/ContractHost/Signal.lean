/-
# Abort signals

A signal asks a running call to end. It is known by a number that every party to the
call shares, so raising it through one of them raises it for all. Raising is for good:
the first reason stays and the signal never clears.
-/

import ContractHost.Trap

namespace ContractHost

/-- The number of a signal. -/
abbrev SignalId := Nat

/-- All signals handed out so far, each with the reason that it was raised for, if it
was. The number of a signal is its place. -/
structure Signals where
  reasons : Array (Option String) := #[]
deriving DecidableEq, Repr, Inhabited

namespace Signals

/-- The number of the next signal. -/
def next (s : Signals) : SignalId := s.reasons.size

/-- Hands out a new signal. -/
def issue (s : Signals) : Signals := ⟨s.reasons.push none⟩

/-- Why a signal was raised. -/
def reason? (s : Signals) (id : SignalId) : Option String := (s.reasons[id]?).join

/-- True once a signal is raised. -/
def isRaised (s : Signals) (id : SignalId) : Bool := (s.reason? id).isSome

/-- The trap of a raised signal. -/
def trap? (s : Signals) (id : SignalId) : Option Trap := (s.reason? id).map Trap.aborted

/-- Raises a signal. A signal that is raised already keeps its reason. -/
def raise (s : Signals) (id : SignalId) (reason : String) : Signals :=
  ⟨s.reasons.modify id fun earlier => earlier.or (some reason)⟩

end Signals

end ContractHost
