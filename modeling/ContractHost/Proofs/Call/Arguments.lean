/-
# What a call is told of its arguments

The pairs that a program gives when it calls a contract may repeat keys and come in any order.
On their way they become the arguments of a call, of which the last pair of a key counts, and
the called program learns them as a list in the order of the keys. So every distinct key is
listed once, and programs that give the same last values make the same call.
-/

import ContractHost.Proofs.Call.Answers
import ContractHost.Proofs.CallArgs

namespace ContractHost

variable {Module : Type}

/-- A program that calls a contract learns nothing of the pairs that it gives but their last
values: with other pairs that agree on them, the call goes the same way. -/
theorem Syscall.contractCall_congr (invoker? : Option (Invoker Module)) (id : ContextId)
    (module contract method : String) {pairs pairs' : List ArgPair}
    (agree : ∀ key, ArgPair.last? key pairs = ArgPair.last? key pairs') :
    contractCall invoker? id module contract method pairs =
      contractCall invoker? id module contract method pairs' := by
  unfold contractCall
  rw [Arguments.ofPairs_eq agree]

/-- A call was made with the last values of the pairs that its maker gave, and is told so. -/
theorem CallSetup.MadeFor.mem_callArgs {setup : CallSetup} {cs : Contexts} {caller : ContextId}
    {contract method : String} {pairs : List ArgPair}
    (made : setup.MadeFor cs caller contract method pairs) (key : String) (value : Bytes) :
    ⟨key, value⟩ ∈ setup.callArgs.args ↔ ArgPair.last? key pairs = some value := by
  rw [callArgs, CallArgs.mem_ofArguments, made.args, Arguments.get?_ofPairs]

/-- Call arguments are canonical, and lookups in them are faithful.

What a call is told of given arguments lists every one of them once, in strictly ascending order
of the octets of the keys, and in whatever order the entries come, they are sorted into the same
list. A search by halves then finds the value of every key that there is, and no other.

When a program calls a contract, only the last value of each key counts among the pairs that it
gives. Under every request and in every state of a host, whenever a called program asks about its
call it is told at once of each distinct key with its last value, in ascending order. Other pairs
with the same last values would have made the same call and the same list. -/
theorem call_args_are_canonical (config : Config) :
    (∀ (method : String) (args : Arguments) (caller : String),
      let call := CallArgs.ofArguments method args caller
      call.method = method ∧ call.caller = caller ∧ CallArgs.Ascending call.args ∧
      (∀ key value, ⟨key, value⟩ ∈ call.args ↔ args.get? key = some value) ∧
      (∀ entries : List (String × Bytes), entries.Perm args.entries →
        CallArgs.ofEntries method entries caller = call) ∧
      ∀ key, call.get? key = args.get? key) ∧
    (∀ (invoker? : Option (Invoker Script.Module)) (id : ContextId)
      (module contract method : String) (pairs pairs' : List ArgPair),
      (∀ key, ArgPair.last? key pairs = ArgPair.last? key pairs') →
      Syscall.contractCall invoker? id module contract method pairs =
        Syscall.contractCall invoker? id module contract method pairs') ∧
    ∀ (h : Host Script.Module) (request : HostRequest),
      let p := (Manager.scripted config).serve h request
      ∃ events, p.2.journal = events ++ h.journal ∧
        ∀ callee description early, (.began callee description :: early) <:+ events →
          begunIn early ≠ [] →
          ∃ caller contract method pairs live behind before,
            early = .started contract :: (behind ++ .syscall caller
              (.contractCall SyscallRequest.contractModule contract method pairs) live ::
                before) ∧
            (∀ event ∈ behind, event.isBackstage) ∧
            ∀ late live early, events = late ++ .syscall callee .getCallArgs live :: early →
              ∃ call,
                late.getLast? = some (.answered callee .getCallArgs (.ok (.callArgs call))) ∧
                call.method = method ∧ CallArgs.Ascending call.args ∧
                (∀ key value, ⟨key, value⟩ ∈ call.args ↔ ArgPair.last? key pairs = some value) ∧
                ∀ pairs', (∀ key, ArgPair.last? key pairs = ArgPair.last? key pairs') →
                  call = .ofArguments method (Arguments.ofPairs pairs') call.caller := by
  refine ⟨fun method args caller => ?_, ?_, fun h request => ?_⟩
  · exact ⟨rfl, rfl, CallArgs.ascending_ofArguments method args caller,
      fun key value => CallArgs.mem_ofArguments method args caller,
      fun entries => CallArgs.ofEntries_perm method args caller,
      CallArgs.get?_ofArguments method args caller⟩
  · intro invoker? id module contract method pairs pairs' agree
    exact Syscall.contractCall_congr invoker? id module contract method agree
  · intro p
    obtain ⟨events, journal, truthful, _⟩ := Call.answered_serve config h request
    refine ⟨events, journal, fun callee description early suffix inner => ?_⟩
    obtain ⟨setup, caller, contract, method, pairs, live, behind, before, held, made, shape,
      backstage⟩ := (truthful.summoned callee description early suffix).resolve_left inner
    refine ⟨caller, contract, method, pairs, live, behind, before, shape, backstage,
      fun late live early asked => ?_⟩
    obtain ⟨told, known, answer⟩ := truthful.informed late callee live early asked
    obtain rfl : setup = told := Option.some.inj (held.symm.trans known)
    refine ⟨setup.callArgs, answer, made.method, CallArgs.ascending_ofArguments .., ?_, ?_⟩
    · exact made.mem_callArgs
    · intro pairs' agree
      rw [← Arguments.ofPairs_eq agree, ← made.args, ← made.method]
      rfl

end ContractHost
