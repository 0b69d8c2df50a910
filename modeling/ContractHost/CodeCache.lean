/-
# Compiled code

At most one compiled module is kept for each contract. Whoever runs a module holds a
lease on it, so a module that the cache has dropped stays until its last lease is given
back. A module is told apart from all others by a serial number, and it is released in
the one step after which neither the cache nor any lease holds it.
-/

import ContractHost.Error
import ContractHost.Digest

namespace ContractHost

/-- A compiled module, and where it came from. -/
structure CompiledCode (M : Type) where
  serial : Nat
  name : String
  digest : String
  module : M

/-- The cached modules, and the serial number of each lease that is out. -/
structure CodeCache (M : Type) where
  compiled : Nat := 0
  entries : List (CompiledCode M) := []
  leases : List Nat := []

/-- Compiles the code of a contract: answers with the bytecode and its module. -/
abbrev CodeFactory (μ : Type → Type) (M : Type) := String → μ (Except HostError (Bytes × M))

namespace CodeCache

variable {M : Type}

instance : Inhabited (CodeCache M) := ⟨{}⟩

/-- The module cached for a contract. -/
def find? (cache : CodeCache M) (name : String) : Option (CompiledCode M) :=
  cache.entries.find? fun code => code.name == name

/-- True of contracts with a cached module. -/
def contains (cache : CodeCache M) (name : String) : Bool := (cache.find? name).isSome

/-- The number of cached modules. -/
def size (cache : CodeCache M) : Nat := cache.entries.length

/-- True of the modules that the cache or a lease holds. -/
def holds (cache : CodeCache M) (serial : Nat) : Bool :=
  (cache.entries.any fun code => code.serial == serial) || cache.leases.contains serial

/-- The cache with one more lease on a module. -/
def lease (cache : CodeCache M) (code : CompiledCode M) : CodeCache M :=
  { cache with leases := code.serial :: cache.leases }

/-- The cache with a new module, and a lease on it. -/
def insert (cache : CodeCache M) (name : String) (bytecode : Bytes) (module : M) :
    CompiledCode M × CodeCache M :=
  let code : CompiledCode M :=
    { serial := cache.compiled, name, digest := Digest.hexSha256 bytecode, module }
  (code, { compiled := cache.compiled + 1
           entries := code :: cache.entries
           leases := code.serial :: cache.leases })

section Obtain

variable {μ : Type → Type} [Monad μ]

/-- Compiles a contract and caches the module. A failure to compile caches nothing. -/
def compileInto (factory : CodeFactory μ M) (cache : CodeCache M) (name : String) :
    μ (Except HostError (CompiledCode M) × CodeCache M) := do
  match ← factory name with
  | .ok (bytecode, module) =>
    let (code, cache) := cache.insert name bytecode module
    return (.ok code, cache)
  | .error e => return (.error e, cache)

/-- A lease on a freshly compiled module. A module that is cached already was never
dropped, and that is refused. -/
def compileFresh (factory : CodeFactory μ M) (cache : CodeCache M) (name : String) :
    μ (Except HostError (CompiledCode M) × CodeCache M) :=
  if cache.contains name then return (.error (.staleCode name), cache)
  else compileInto factory cache name

/-- A lease on the cached module, compiled if there is none. -/
def acquire (factory : CodeFactory μ M) (cache : CodeCache M) (name : String) :
    μ (Except HostError (CompiledCode M) × CodeCache M) :=
  match cache.find? name with
  | some code => return (.ok code, cache.lease code)
  | none => compileInto factory cache name

end Obtain

/-- Drops the module cached for a contract, and says which module is released by that. -/
def remove (cache : CodeCache M) (name : String) : Option (CompiledCode M) × CodeCache M :=
  match cache.find? name with
  | none => (none, cache)
  | some code =>
    let cache := { cache with entries := cache.entries.filter fun other => other.name != name }
    (if cache.holds code.serial then none else some code, cache)

/-- Gives a lease back, and says which module is released by that. -/
def giveBack (cache : CodeCache M) (code : CompiledCode M) :
    Option (CompiledCode M) × CodeCache M :=
  let cache := { cache with leases := cache.leases.erase code.serial }
  (if cache.holds code.serial then none else some code, cache)

end CodeCache

end ContractHost
