/-
# The objects of contracts

The syscalls of all contexts are served over one store. To a program it looks as if its
contract had a map of objects of its own: what it reads under a key is what any call of the
contract last put there, unless that was removed. The store holds these maps and nothing
else, each object under a key that tells its contract, whatever contexts come and go, and
whatever accesses of the store fail.
-/

import ContractHost.Proofs.Host.Acts
import ContractHost.Proofs.Store.Agreement
import ContractHost.Proofs.Store.Keys

namespace ContractHost

/-- What is done at a dispatcher: contexts are created for contracts that may exist, and are
destroyed, and requests are served in the name of a context. -/
inductive DispatchStep
  | create (setup : CallSetup) (named : Naming.validate setup.contract = .ok ())
  | destroy (id : ContextId)
  | serve (id : ContextId) (request : SyscallRequest)

/-- A request that was served: the contract of the context in whose name, if there was one,
and the result. -/
structure ServedRequest where
  contract? : Option String
  request : SyscallRequest
  result : Except HostError SyscallResponse

/-- A dispatcher that nobody serves calls of contracts for, and the requests that it served,
latest first. -/
structure Dispatch (M : Type) where
  host : Host M
  served : List ServedRequest := []

/-- What a request made of an object of a contract: it has a value, or is removed. -/
def ServedRequest.made? (contract : String) (key : Bytes) (served : ServedRequest) :
    Option (Option Bytes) :=
  match served.contract?, served.request, served.result with
  | some owner, .putObject place (some value), .ok _ =>
    if owner = contract ∧ place = key then some (some value) else none
  | some owner, .deleteObject place, .ok _ =>
    if owner = contract ∧ place = key then some none else none
  | _, _, _ => none

/-- An object of a contract, by the requests that succeeded. -/
def objectIn (served : List ServedRequest) (contract : String) (key : Bytes) : Option Bytes :=
  (served.findSome? (·.made? contract key)).join

section ObjectIn

variable {served : List ServedRequest} {latest : ServedRequest}

/-- What the latest request did not make is as it was before. -/
theorem objectIn_cons (contract : String) (key : Bytes) :
    objectIn (latest :: served) contract key =
      (latest.made? contract key).getD (objectIn served contract key) := by
  unfold objectIn
  rw [List.findSome?_cons]
  cases latest.made? contract key <;> rfl

theorem objectIn_cons_of_idle (idle : ∀ contract key, latest.made? contract key = none) :
    objectIn (latest :: served) = objectIn served := by
  funext contract key
  rw [objectIn_cons, idle]
  rfl

theorem objectIn_put (owner : String) (place value : Bytes) (answer : SyscallResponse) :
    objectIn (⟨some owner, .putObject place (some value), .ok answer⟩ :: served) =
      fun contract key =>
        if owner = contract ∧ place = key then some value else objectIn served contract key := by
  funext contract key
  rw [objectIn_cons]
  show (if owner = contract ∧ place = key then some (some value) else none).getD _ = _
  split <;> rfl

theorem objectIn_delete (owner : String) (place : Bytes) (answer : SyscallResponse) :
    objectIn (⟨some owner, .deleteObject place, .ok answer⟩ :: served) =
      fun contract key =>
        if owner = contract ∧ place = key then none else objectIn served contract key := by
  funext contract key
  rw [objectIn_cons]
  show (if owner = contract ∧ place = key then some none else none).getD _ = _
  split <;> rfl

/-- A request that failed made nothing. -/
theorem ServedRequest.made?_of_error {contract? : Option String} {request : SyscallRequest}
    {e : HostError} (contract : String) (key : Bytes) :
    made? contract key { contract?, request, result := .error e } = none := by
  cases contract? with
  | none => rfl
  | some _ =>
      cases request with
      | putObject _ value => cases value <;> rfl
      | _ => rfl

end ObjectIn

/-- What a request that accesses the store comes to. -/
def unlessFault (fault? : Option StoreError) (result : Except HostError SyscallResponse) :
    Except HostError SyscallResponse :=
  match fault? with
  | some fault => .error (.storage fault)
  | none => result

/-- What a request of a contract comes to, by what it may learn about its call, by its
objects, and by the faults of the store. -/
def SyscallRequest.due (contract : String) (told : CallArgs) (object? : Bytes → Option Bytes)
    (fault? : StoreOp → Bytes → Option StoreError) :
    SyscallRequest → Except HostError SyscallResponse
  | putObject key none => .error (.nilValue (Utf8.lossy key))
  | putObject key (some _) => unlessFault (fault? .put (StoreKey.object contract key)) (.ok .empty)
  | getObject key =>
    unlessFault (fault? .get (StoreKey.object contract key)) <|
      match object? key with
      | some value => .ok (.value value)
      | none => .error (.objectNotFound (Utf8.lossy (StoreKey.object contract key)))
  | deleteObject key =>
    unlessFault (fault? .delete (StoreKey.object contract key)) (.ok .empty)
  | getCallArgs => .ok (.callArgs told)
  | setOutput _ | transfer .. => .ok .empty
  | contractCall module .. =>
    if module = contractModule then .error (.engine "contract calls are not available")
    else .error (.unsupportedModule module)

namespace Dispatch

variable {M : Type}

/-- Takes a step. -/
def step (d : Dispatch M) : DispatchStep → Dispatch M
  | .create setup _ => { d with host.contexts := d.host.contexts.create setup }
  | .destroy id => { d with host.contexts := d.host.contexts.destroy id }
  | .serve id request =>
    let (result, host) := (Syscall.serve none id request).run d.host
    let contract? := (d.host.contexts.find? id).map (·.setup.contract)
    { host, served := { contract?, request, result } :: d.served }

/-- Takes steps in turn. -/
def run (d : Dispatch M) (steps : List DispatchStep) : Dispatch M := steps.foldl step d

end Dispatch

/-! ## A store of objects -/

/-- A store in memory holds the objects of contracts, and nothing else. -/
def Store.HoldsObjects (object? : String → Bytes → Option Bytes) (s : Store) : Prop :=
  ∃ table, s = .memory table ∧
    (∀ contract key, Naming.validate contract = .ok () →
      table.get? (StoreKey.object contract key) = object? contract key) ∧
    ∀ place value, table.get? place = some value →
      ∃ contract key, Naming.validate contract = .ok () ∧ place = StoreKey.object contract key

namespace Store.HoldsObjects

variable {object? : String → Bytes → Option Bytes} {s : Store} {contract : String} {key : Bytes}

theorem empty : (Store.memory .empty).HoldsObjects fun _ _ => none :=
  ⟨.empty, rfl, fun _ _ _ => rfl, nofun⟩

/-- Reading changes nothing. -/
theorem get? (holds : s.HoldsObjects object?) (place : Bytes) : (s.get? place).2 = s := by
  obtain ⟨table, rfl, -⟩ := holds
  rfl

theorem get?_object (holds : s.HoldsObjects object?)
    (named : Naming.validate contract = .ok ()) (key : Bytes) :
    (s.get? (StoreKey.object contract key)).1 = object? contract key := by
  obtain ⟨table, rfl, shows, -⟩ := holds
  exact shows contract key named

/-- One object changes, and nothing else in the store. -/
theorem change {table table' : MemoryStore} (holds : (memory table).HoldsObjects object?)
    (named : Naming.validate contract = .ok ()) {value? : Option Bytes}
    (here : table'.get? (StoreKey.object contract key) = value?)
    (others : ∀ place, place ≠ StoreKey.object contract key →
      table'.get? place = table.get? place) :
    (memory table').HoldsObjects fun owner place =>
      if contract = owner ∧ key = place then value? else object? owner place := by
  obtain ⟨_, ⟨⟩, shows, only⟩ := holds
  refine ⟨table', rfl, fun owner place named' => ?_, fun place value there => ?_⟩
  · dsimp only
    by_cases same : contract = owner ∧ key = place
    · obtain ⟨rfl, rfl⟩ := same
      rw [here, if_pos (And.intro rfl rfl)]
    · rw [if_neg same, others, shows owner place named']
      intro meets
      obtain ⟨rfl, rfl⟩ := StoreKey.object_injective named' named meets
      exact same ⟨rfl, rfl⟩
  · by_cases same : place = StoreKey.object contract key
    · exact ⟨contract, key, named, same⟩
    · exact only place value (others place same ▸ there)

theorem put (holds : s.HoldsObjects object?) (named : Naming.validate contract = .ok ())
    (key value : Bytes) :
    (s.put (StoreKey.object contract key) value).HoldsObjects fun owner place =>
      if contract = owner ∧ key = place then some value else object? owner place := by
  obtain ⟨table, rfl, -⟩ := id holds
  exact holds.change named (table.get?_insert_self _ _) fun _ apart =>
    table.get?_insert_of_ne apart value

theorem delete (holds : s.HoldsObjects object?) (named : Naming.validate contract = .ok ())
    (key : Bytes) :
    (s.delete (StoreKey.object contract key)).HoldsObjects fun owner place =>
      if contract = owner ∧ key = place then none else object? owner place := by
  obtain ⟨table, rfl, -⟩ := id holds
  exact holds.change named (table.get?_erase_self _) fun _ apart => table.get?_erase_of_ne apart

end Store.HoldsObjects

/-! ## Services without an invoker -/

namespace Host

variable {M : Type}

@[simp]
theorem beforeAccess_contexts (op : StoreOp) (key : Bytes) (h : Host M) :
    (h.beforeAccess op key).contexts = h.contexts :=
  (backstage_beforeAccess op key h).contexts

/-- An access in the name of a contract fails as the surroundings say. -/
theorem runFrom_access_storage {α : Type} (op : StoreOp) (key : Bytes) (use : Store → α × Store)
    (h : Host M) :
    runFrom ((HostM.access op key use).mapError HostError.storage) h =
      match h.surroundings.fault? h.accesses op key with
      | some fault => (.error (.storage fault), h.beforeAccess op key)
      | none =>
        (.ok (use h.store).1, { h.beforeAccess op key with store := (use h.store).2 }) := by
  rw [runFrom_mapError, runFrom_access]
  cases h.surroundings.fault? h.accesses op key <;> rfl

/-- How a request of a live context is answered that is not handed on: its result is the one
due, the store then holds the objects as the request made them, and a refused request
changes neither store nor contexts. -/
structure AnsweredAlone (served : List ServedRequest) (ctx : Context) (request : SyscallRequest)
    (h : Host M) (p : Except HostError SyscallResponse × Host M) : Prop where
  due : p.1 = request.due ctx.setup.contract ctx.callArgs (objectIn served ctx.setup.contract)
    (h.surroundings.fault? h.accesses)
  holds : p.2.store.HoldsObjects
    (objectIn ({ contract? := some ctx.setup.contract, request, result := p.1 } :: served))
  refused : ∀ e, p.1 = .error e → p.2.store = h.store ∧ p.2.contexts = h.contexts
  spared : request.kind ≠ .putObject → request.kind ≠ .deleteObject → p.2.store = h.store

namespace AnsweredAlone

variable {served : List ServedRequest} {ctx : Context} {request : SyscallRequest}
  {h g : Host M} {result : Except HostError SyscallResponse}

/-- A request that makes nothing. -/
theorem of_idle (holds : h.store.HoldsObjects (objectIn served))
    (due : result = request.due ctx.setup.contract ctx.callArgs
      (objectIn served ctx.setup.contract) (h.surroundings.fault? h.accesses))
    (idle : ∀ contract key, ServedRequest.made? contract key
      { contract? := some ctx.setup.contract, request, result } = none)
    (store : g.store = h.store) (contexts : ∀ e, result = .error e → g.contexts = h.contexts) :
    AnsweredAlone served ctx request h (result, g) where
  due := due
  holds := by
    rw [objectIn_cons_of_idle idle, store]
    exact holds
  refused e failed := ⟨store, contexts e failed⟩
  spared _ _ := store

/-- A request that the store fails. -/
theorem of_fault (holds : h.store.HoldsObjects (objectIn served)) {op : StoreOp} {place : Bytes}
    {fault : StoreError} {otherwise : Except HostError SyscallResponse}
    (faulty : h.surroundings.fault? h.accesses op place = some fault)
    (due : request.due ctx.setup.contract ctx.callArgs (objectIn served ctx.setup.contract)
      (h.surroundings.fault? h.accesses) =
        unlessFault (h.surroundings.fault? h.accesses op place) otherwise) :
    AnsweredAlone served ctx request h (.error (.storage fault), h.beforeAccess op place) := by
  refine .of_idle holds ?_ ServedRequest.made?_of_error (h.beforeAccess_store ..) fun _ _ =>
    h.beforeAccess_contexts ..
  rw [due, faulty]
  rfl

/-- An object is put. -/
theorem of_put (holds : h.store.HoldsObjects (objectIn served))
    (named : Naming.validate ctx.setup.contract = .ok ()) {key value : Bytes}
    (unharmed : h.surroundings.fault? h.accesses .put
      (StoreKey.object ctx.setup.contract key) = none)
    (store : g.store = h.store.put (StoreKey.object ctx.setup.contract key) value) :
    AnsweredAlone served ctx (.putObject key (some value)) h (.ok .empty, g) where
  due := by
    rw [SyscallRequest.due, unharmed]
    rfl
  holds := by
    rw [objectIn_put, store]
    exact holds.put named key value
  refused := nofun
  spared other := absurd rfl other

/-- An object is removed. -/
theorem of_delete (holds : h.store.HoldsObjects (objectIn served))
    (named : Naming.validate ctx.setup.contract = .ok ()) {key : Bytes}
    (unharmed : h.surroundings.fault? h.accesses .delete
      (StoreKey.object ctx.setup.contract key) = none)
    (store : g.store = h.store.delete (StoreKey.object ctx.setup.contract key)) :
    AnsweredAlone served ctx (.deleteObject key) h (.ok .empty, g) where
  due := by
    rw [SyscallRequest.due, unharmed]
    rfl
  holds := by
    rw [objectIn_delete, store]
    exact holds.delete named key
  refused := nofun
  spared _ other := absurd rfl other

/-- An object is read, or is missing. -/
theorem of_get (holds : h.store.HoldsObjects (objectIn served))
    {key : Bytes}
    (unharmed : h.surroundings.fault? h.accesses .get
      (StoreKey.object ctx.setup.contract key) = none)
    (store : g.store = h.store) (contexts : g.contexts = h.contexts)
    (read : result =
      match objectIn served ctx.setup.contract key with
      | some value => .ok (.value value)
      | none => .error (.objectNotFound (Utf8.lossy (StoreKey.object ctx.setup.contract key)))) :
    AnsweredAlone served ctx (.getObject key) h (result, g) := by
  refine .of_idle holds ?_ ?_ store fun _ _ => contexts
  · rw [SyscallRequest.due, unharmed]
    exact read
  · intro contract key
    rfl

end AnsweredAlone

theorem answer_alone {served : List ServedRequest} {id : ContextId} {h : Host M} {ctx : Context}
    (found : h.contexts.find? id = some ctx)
    (named : Naming.validate ctx.setup.contract = .ok ())
    (holds : h.store.HoldsObjects (objectIn served)) (request : SyscallRequest) :
    AnsweredAlone served ctx request h (runFrom (Syscall.answer none id request) h) := by
  cases request with
  | putObject key value =>
      unfold Syscall.answer Syscall.putObject
      rw [runFrom_bind, runFrom_withContext found]
      cases value with
      | none => exact .of_idle holds rfl (fun _ _ => rfl) rfl fun _ _ => rfl
      | some value =>
          simp only [HostM.putKey, runFrom_access_storage]
          cases faulty : h.surroundings.fault? h.accesses .put
              (StoreKey.object ctx.setup.contract key) with
          | some fault => exact .of_fault holds faulty rfl
          | none => exact .of_put holds named faulty rfl
  | getObject key =>
      unfold Syscall.answer Syscall.getObject
      rw [runFrom_bind, runFrom_withContext found]
      simp only [HostM.getKey, runFrom_bind, runFrom_access_storage]
      cases faulty : h.surroundings.fault? h.accesses .get
          (StoreKey.object ctx.setup.contract key) with
      | some fault => exact .of_fault holds faulty rfl
      | none =>
          rw [holds.get?, holds.get?_object named]
          cases there : objectIn served ctx.setup.contract key with
          | some value =>
              exact .of_get holds faulty rfl (h.beforeAccess_contexts ..) (by rw [there])
          | none =>
              exact .of_get holds faulty rfl (h.beforeAccess_contexts ..) (by rw [there])
  | deleteObject key =>
      unfold Syscall.answer Syscall.deleteObject
      rw [runFrom_bind, runFrom_withContext found]
      simp only [HostM.deleteKey, runFrom_access_storage]
      cases faulty : h.surroundings.fault? h.accesses .delete
          (StoreKey.object ctx.setup.contract key) with
      | some fault => exact .of_fault holds faulty rfl
      | none => exact .of_delete holds named faulty rfl
  | getCallArgs =>
      unfold Syscall.answer Syscall.getCallArgs
      rw [runFrom_bind, runFrom_withContext found]
      exact .of_idle holds rfl (fun _ _ => rfl) rfl fun _ _ => rfl
  | setOutput response =>
      unfold Syscall.answer Syscall.setOutput
      rw [runFrom_bind, runFrom_withContext found]
      exact .of_idle holds rfl (fun _ _ => rfl) rfl nofun
  | transfer payer payee amount =>
      unfold Syscall.answer Syscall.transfer
      rw [runFrom_bind, runFrom_withContext found]
      exact .of_idle holds rfl (fun _ _ => rfl) rfl nofun
  | contractCall module contract method args =>
      by_cases known : module = SyscallRequest.contractModule
      · subst known
        rw [runFrom_answer_uninvoked found]
        refine .of_idle holds ?_ (fun _ _ => rfl) rfl fun _ _ => rfl
        rw [SyscallRequest.due, if_pos rfl]
      · rw [runFrom_answer_foreign found known]
        exact .of_idle holds (if_neg known).symm (fun _ _ => rfl) rfl fun _ _ => rfl

end Host

/-! ## Contexts of contracts that may exist -/

/-- Every live context is known, and is one of a contract that may exist. -/
def Contexts.Named (cs : Contexts) : Prop :=
  ∀ id ∈ cs.live, ∃ ctx, cs.find? id = some ctx ∧ Naming.validate ctx.setup.contract = .ok ()

namespace Contexts.Named

variable {cs : Contexts} (contexts : cs.Named)

include contexts

theorem find {id : ContextId} {ctx : Context} (found : cs.find? id = some ctx) :
    Naming.validate ctx.setup.contract = .ok () := by
  obtain ⟨_, found', named⟩ := contexts id (mem_live_of_find? found)
  cases found.symm.trans found'
  exact named

theorem create {setup : CallSetup} (named : Naming.validate setup.contract = .ok ()) :
    (cs.create setup).Named := by
  intro id mem
  rcases List.mem_cons.1 mem with rfl | mem
  · exact ⟨_, find?_create_next .., named⟩
  · obtain ⟨ctx, found, named⟩ := contexts id mem
    exact ⟨ctx, find?_create found setup, named⟩

theorem destroy (gone : ContextId) : (cs.destroy gone).Named := by
  intro id mem
  obtain ⟨mem, apart⟩ := List.mem_filter.1 mem
  obtain ⟨ctx, found, named⟩ := contexts id mem
  exact ⟨ctx, (find?_destroy_of_ne cs (bne_iff_ne.1 apart)).trans found, named⟩

omit contexts in
/-- A program does not change what its context, or any other, is about. -/
theorem acts {M : Type} {h g : Host M} {id : ContextId} (contexts : h.contexts.Named)
    (acts : Host.Acts id h g) : g.contexts.Named := by
  intro other mem
  obtain ⟨ctx, found, named⟩ := contexts other (acts.live ▸ mem)
  obtain ⟨output, found⟩ := acts.find? found
  exact ⟨_, found, named⟩

end Contexts.Named

/-- A request in the name of a live context leaves all contexts those of their contracts. -/
theorem Host.named_answer {M : Type} {served : List ServedRequest} {id : ContextId} {h : Host M}
    {ctx : Context} (contexts : h.contexts.Named) {request : SyscallRequest}
    (answered : AnsweredAlone served ctx request h (runFrom (Syscall.answer none id request) h)) :
    (runFrom (Syscall.answer none id request) h).2.contexts.Named := by
  by_cases plain : request.kind = .contractCall
  · -- without an invoker the call of another contract is refused
    obtain ⟨e, failed⟩ : ∃ e, (runFrom (Syscall.answer none id request) h).1 = .error e := by
      rw [answered.due]
      cases request with
      | contractCall module contract method args =>
          rw [SyscallRequest.due]
          split <;> exact ⟨_, rfl⟩
      | _ => cases plain
    rw [(answered.refused e failed).2]
    exact contexts
  · exact contexts.acts (Ends.state ((modest_answer id none plain h).mono (fun _ _ acts => acts)
      fun _ _ modest => modest.2))

/-! ## A dispatcher in use -/

namespace Dispatch

variable {M : Type}

/-- What holds of a dispatcher whatever it has served. -/
structure Faithful (d : Dispatch M) : Prop where
  named : d.host.contexts.Named
  holds : d.host.store.HoldsObjects (objectIn d.served)

variable {d : Dispatch M}

theorem Faithful.opened (surroundings : Surroundings) :
    Faithful ({ host := { surroundings } } : Dispatch M) where
  named := nofun
  holds := .empty

/-- How a request is served: between two entries in the journal. -/
theorem step_serve (d : Dispatch M) (id : ContextId) (request : SyscallRequest) :
    d.step (.serve id request) =
      let p := runFrom (Syscall.answer none id request)
        (d.host.note (.syscall id request d.host.contexts.live))
      { host := p.2.note (.answered id request p.1)
        served := { contract? := (d.host.contexts.find? id).map (·.setup.contract)
                    request, result := p.1 } :: d.served } := rfl

/-- A request in the name of nobody is refused, and has changed nothing. -/
theorem step_serve_unknown {id : ContextId} (unknown : d.host.contexts.find? id = none)
    (request : SyscallRequest) :
    ∃ journal, d.step (.serve id request) =
      { host := { d.host with journal }
        served := { contract? := none, request, result := .error (.unknownContext id) } ::
          d.served } := by
  rw [step_serve, Host.runFrom_answer_unknown (by exact unknown), unknown]
  exact ⟨_, rfl⟩

namespace Faithful

variable (faithful : d.Faithful)

include faithful

/-- A request in the name of a live context. -/
theorem answered {id : ContextId} {ctx : Context} (found : d.host.contexts.find? id = some ctx)
    (request : SyscallRequest) :
    Host.AnsweredAlone d.served ctx request (d.host.note (.syscall id request d.host.contexts.live))
      (runFrom (Syscall.answer none id request)
        (d.host.note (.syscall id request d.host.contexts.live))) :=
  Host.answer_alone (h := d.host.note _) found (faithful.named.find found) faithful.holds request

theorem step (step : DispatchStep) : (d.step step).Faithful := by
  cases step with
  | create setup named => exact ⟨faithful.named.create named, faithful.holds⟩
  | destroy gone => exact ⟨faithful.named.destroy gone, faithful.holds⟩
  | serve id request =>
      cases found : d.host.contexts.find? id with
      | none =>
          obtain ⟨journal, same⟩ := step_serve_unknown found request
          rw [same]
          refine ⟨faithful.named, ?_⟩
          rw [objectIn_cons_of_idle ServedRequest.made?_of_error]
          exact faithful.holds
      | some ctx =>
          have answered := faithful.answered found request
          rw [step_serve, found]
          exact ⟨Host.named_answer (h := d.host.note _) faithful.named answered, answered.holds⟩

theorem run (steps : List DispatchStep) : (d.run steps).Faithful := by
  induction steps generalizing d with
  | nil => exact faithful
  | cons step steps ih => exact ih (faithful.step step)

end Faithful

/-- Contracts have maps of objects, whatever contexts come and go and whatever accesses of
the store fail. The store holds just these maps, each object under the key that tells its
contract and the key, none of them under a key of code or descriptions. A request in the
name of a live context, which is always one of a contract that may exist, comes to what is due
by these maps, and a request in any other name is refused. What fails changes neither the
store nor any context, and only writes and removals change the store. -/
theorem run_keeps_objects (surroundings : Surroundings) (steps : List DispatchStep) :
    let d : Dispatch M := Dispatch.run { host := { surroundings } } steps
    (∃ table, d.host.store = .memory table ∧
      (∀ place value, table.get? place = some value ↔
        ∃ contract key, Naming.validate contract = .ok () ∧
          place = StoreKey.object contract key ∧ objectIn d.served contract key = some value) ∧
      ∀ place value, table.get? place = some value → place.head? ≠ some 0x00) ∧
    ∀ id request, let next := d.step (.serve id request)
      ∃ contract? result, next.served = { contract?, request, result } :: d.served ∧
        (id ∉ d.host.contexts.live → contract? = none ∧ result = .error (.unknownContext id)) ∧
        (id ∈ d.host.contexts.live → ∃ ctx, d.host.contexts.find? id = some ctx ∧
          Naming.validate ctx.setup.contract = .ok () ∧ contract? = some ctx.setup.contract ∧
          result = request.due ctx.setup.contract ctx.callArgs
            (objectIn d.served ctx.setup.contract)
            (d.host.surroundings.fault? d.host.accesses)) ∧
        (∀ e, result = .error e →
          next.host.store = d.host.store ∧ next.host.contexts = d.host.contexts) ∧
        (request.kind ≠ .putObject → request.kind ≠ .deleteObject →
          next.host.store = d.host.store) := by
  intro d
  have faithful : d.Faithful := (Faithful.opened surroundings).run steps
  constructor
  · obtain ⟨table, stored, shows, only⟩ := faithful.holds
    refine ⟨table, stored, fun place value => ⟨fun there => ?_, ?_⟩, fun place value there => ?_⟩
    · obtain ⟨contract, key, named, rfl⟩ := only place value there
      exact ⟨contract, key, named, rfl, (shows contract key named).symm.trans there⟩
    · rintro ⟨contract, key, named, rfl, object⟩
      exact (shows contract key named).trans object
    · obtain ⟨contract, key, named, rfl⟩ := only place value there
      exact StoreKey.head?_object_ne named key
  · intro id request
    by_cases live : id ∈ d.host.contexts.live
    · obtain ⟨ctx, found, named⟩ := faithful.named id live
      have answered := faithful.answered found request
      refine ⟨some ctx.setup.contract, _, by rw [step_serve, found]; rfl, absurd live,
        fun _ => ⟨ctx, found, named, rfl, answered.due⟩, answered.refused, answered.spared⟩
    · have unknown : d.host.contexts.find? id = none := by
        rw [Contexts.find?, if_neg (by simpa using live)]
      obtain ⟨journal, same⟩ := step_serve_unknown unknown request
      refine ⟨none, .error (.unknownContext id), by rw [same], fun _ => ⟨rfl, rfl⟩,
        fun mem => absurd mem live, fun _ _ => ?_, fun _ _ => ?_⟩
      · rw [same]
        exact ⟨rfl, rfl⟩
      · rw [same]

end Dispatch

end ContractHost
