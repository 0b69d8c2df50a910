/-
# Requests to stores

A store is read, written and removed from under keys. Asking whether a key is there is a read
of which only the outcome is told, so whatever can be accessed in these three ways serves all
requests. What a table of values by keys would answer to a request, and what it would become
by it, says how a store is to behave: a store that forgets nothing behaves like that.
-/

import ContractHost.Proofs.Store.Agreement
import ContractHost.Proofs.Store.Lasting
import Mathlib.Logic.Function.Basic

namespace ContractHost

/-- What is asked of a store. -/
inductive StoreRequest
  | get (key : Bytes)
  | has (key : Bytes)
  | put (key value : Bytes)
  | delete (key : Bytes)
deriving DecidableEq, Repr

/-- What a store answers. -/
inductive StoreAnswer
  | value (value? : Option Bytes)
  | presence (there : Bool)
  | done
deriving DecidableEq, Repr

/-- What requests are answered one after the other. -/
def answersTo {σ ρ α : Type} (serve : σ → ρ → α × σ) (s : σ) : List ρ → List α
  | [] => []
  | request :: rest => (serve s request).1 :: answersTo serve (serve s request).2 rest

/-- The ways in which stores of a kind are accessed. -/
structure StoreAccess (σ : Type) where
  get? : σ → Bytes → Option Bytes × σ
  put : σ → Bytes → Bytes → σ
  delete : σ → Bytes → σ

/-- Serves a request. -/
def StoreAccess.serve {σ : Type} (access : StoreAccess σ) (s : σ) :
    StoreRequest → StoreAnswer × σ
  | .get key => (.value (access.get? s key).1, (access.get? s key).2)
  | .has key => (.presence (access.get? s key).1.isSome, (access.get? s key).2)
  | .put key value => (.done, access.put s key value)
  | .delete key => (.done, access.delete s key)

namespace StoreRequest

/-- The answer to a request where the values are as given. -/
def answer (held : Bytes → Option Bytes) : StoreRequest → StoreAnswer
  | get key => .value (held key)
  | has key => .presence (held key).isSome
  | put .. | delete _ => .done

/-- What becomes of the values by a request. -/
def effect (held : Bytes → Option Bytes) : StoreRequest → Bytes → Option Bytes
  | get _ | has _ => held
  | put key value => Function.update held key (some value)
  | delete key => Function.update held key none

end StoreRequest

theorem BoundedStore.peek?_delete_self (s : BoundedStore) (key : Bytes) :
    (s.delete key).peek? key = none := by
  refine List.lookup_eq_none_iff.2 fun entry mem => ?_
  have apart : entry.1 ≠ key := by simpa using (List.mem_filter.1 mem).2
  simpa using apart.symm

namespace Store

/-- How stores are accessed. -/
def access : StoreAccess Store := ⟨get?, put, delete⟩

/-- A key that was removed is missing. -/
theorem peek?_delete_self (s : Store) (key : Bytes) : (s.delete key).peek? key = none := by
  induction s generalizing key with
  | memory table => exact table.get?_erase_self key
  | bounded store => exact store.peek?_delete_self key
  | logical name inner ih => exact ih _

/-- A store answers by the values that it holds. -/
theorem serve_fst (s : Store) (request : StoreRequest) :
    (access.serve s request).1 = request.answer s.peek? := by
  cases request with
  | get key => exact congrArg StoreAnswer.value (s.get?_fst key)
  | has key => exact congrArg (fun value? => StoreAnswer.presence value?.isSome) (s.get?_fst key)
  | put | delete => rfl

/-- A store that forgets nothing holds afterwards what it should. -/
theorem peek?_serve {s : Store} (lasting : s.forgets = false) (request : StoreRequest) :
    (access.serve s request).2.peek? = request.effect s.peek? := by
  cases request with
  | get key => exact funext (s.peek?_get? key)
  | has key => exact funext (s.peek?_get? key)
  | put key value =>
      refine Function.eq_update_iff.2 ⟨s.peek?_put_self key value, fun other apart => ?_⟩
      exact (s.shows_put_of_ne apart value).peek? ((s.forgets_put key value).trans lasting)
  | delete key =>
      refine Function.eq_update_iff.2 ⟨s.peek?_delete_self key, fun other apart => ?_⟩
      exact peek?_delete_of_ne s apart

theorem forgets_serve (s : Store) (request : StoreRequest) :
    (access.serve s request).2.forgets = s.forgets := by
  have same : (access.serve s request).2.emptied = s.emptied := by
    cases request with
    | get key => exact s.emptied_get? key
    | has key => exact s.emptied_get? key
    | put key value => exact s.emptied_put key value
    | delete key => exact s.emptied_delete key
  rw [← forgets_emptied, same, forgets_emptied]

end Store

end ContractHost
