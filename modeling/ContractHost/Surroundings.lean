/-
# What happens around a host

The outside world is a function, not a part of the program: it says for the n-th access
of the store which aborts arrive with it and whether it fails. What holds for every such
function holds whatever happens around the host. Rules and hooks are a way to write some
of these functions down: accesses of chosen keys fail, or come with an abort.
-/

import ContractHost.Journal

namespace ContractHost

/-- What happens around the accesses of a store, by how many came before. -/
structure Surroundings where
  /-- The aborts that arrive just before an access: contracts, each with a message. -/
  aborts : Nat → StoreOp → Bytes → List (String × String) := fun _ _ _ => []
  /-- The fault by which an access fails without touching the store. -/
  fault? : Nat → StoreOp → Bytes → Option StoreError := fun _ _ _ => none

/-- A fault of all accesses of one kind to the keys that start with the given octets. -/
structure FaultRule where
  op : StoreOp
  start : Bytes
  fault : StoreError

/-- An abort that arrives with the accesses of one kind to one key. -/
structure AbortHook where
  op : StoreOp
  key : Bytes
  contract : String
  message : String

namespace Surroundings

/-- The surroundings where accesses fail by the first rule that applies, and by no other
cause. -/
def withRules (s : Surroundings) (rules : List FaultRule) : Surroundings :=
  { s with fault? := fun _ op key =>
      (rules.find? fun rule => rule.op == op && rule.start.isPrefixOf key).map (·.fault) }

/-- The surroundings where the aborts of all hooks that apply arrive, and no others. -/
def withHooks (s : Surroundings) (hooks : List AbortHook) : Surroundings :=
  { s with aborts := fun _ op key =>
      (hooks.filter fun hook => hook.op == op && hook.key == key).map fun hook =>
        (hook.contract, hook.message) }

end Surroundings

end ContractHost
