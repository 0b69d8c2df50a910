/-
# Backends by name

A host is opened on one of several backends, chosen by name. A name may also stand for a
backend that cannot be built, whose failure is then reported.
-/

import ContractHost.Instance

namespace ContractHost

/-- Builds a backend whose machines have a gas limit. -/
abbrev BackendBuilder (M P : Type) := UInt64 → Except HostError (Backend M P)

/-- The backends that a host can be opened on, by name. -/
structure Backends (M P : Type) where
  builders : Table String (BackendBuilder M P) := .empty

namespace Backends

variable {M P : Type}

/-- Registers a backend in place of any earlier one of the name. -/
def register (backends : Backends M P) (name : String) (build : BackendBuilder M P) :
    Backends M P := ⟨backends.builders.insert name build⟩

/-- Registers an engine. -/
def registerEngine (backends : Backends M P) (name : String) (engine : Engine M P) :
    Backends M P := backends.register name fun gasLimit => .ok { engine, gasLimit }

/-- The names of the backends, ascending. -/
def names (backends : Backends M P) : List String := backends.builders.keys

/-- True of the names that are registered. -/
def contains (backends : Backends M P) (name : String) : Bool := backends.builders.contains name

/-- Builds the backend of a name. -/
def build (backends : Backends M P) (name : String) (gasLimit : UInt64) :
    Except HostError (Backend M P) :=
  match backends.builders.get? name with
  | some builder => builder gasLimit
  | none => .error (.unknownBackend name)

end Backends

end ContractHost
