/-
# Quiet changes of a host

Most of what a program makes its host do touches neither the code cache nor the books of
the host: it reads and writes data of the contracts whose calls were begun, sets outputs,
charges usage, writes debug output, lets aborts arrive. Such a change is called quiet.
Whatever is said in terms of the other fields of a host alone survives all of it, so
invariants of whole runs have to be looked at only where calls begin and end.
-/

import ContractHost.Proofs.Lockstep
import ContractHost.Proofs.Store.Lasting
import ContractHost.Syscall

namespace ContractHost

/-- True of the events inside a call, as opposed to those by which calls begin, obtain
and give up what they need, and end. -/
def Event.isInner : Event → Bool
  | .access .. | .abort .. | .operation .. | .syscall .. | .answered ..
  | .engine (.exec ..) => true
  | .began .. | .obtained .. | .engine _ | .measured .. | .released _ | .ended ..
  | .started _ | .finished .. => false

/-- What the contexts of a registry were created with, in order of their numbers. -/
def Contexts.setups (cs : Contexts) : Array CallSetup := cs.created.map (·.setup)

namespace Contexts

@[simp]
theorem setups_update (cs : Contexts) (id : ContextId) {change : Context → Context}
    (keeps : ∀ ctx, (change ctx).setup = ctx.setup) :
    (cs.update id change).setups = cs.setups := by
  apply Array.ext
  · simp [setups, update]
  · intro i hi hi'
    simp only [setups, update, Array.getElem_map, Array.getElem_modify]
    split
    · split
      · exact keeps _
      · rfl
    · rfl

@[simp]
theorem setups_create (cs : Contexts) (setup : CallSetup) :
    (cs.create setup).setups = cs.setups.push setup :=
  Array.map_push

theorem setup_mem_setups {cs : Contexts} {id : ContextId} {ctx : Context}
    (held : cs.held? id = some ctx) : ctx.setup ∈ cs.setups := by
  obtain ⟨found, _⟩ := Option.filter_eq_some_iff.1 held
  exact Array.mem_map_of_mem (Array.mem_of_getElem? found)

end Contexts

namespace Host

variable {M : Type}

/-- True of the keys under which contracts with a context keep their data. -/
def OwnsKey (h : Host M) (key : Bytes) : Prop :=
  ∃ setup ∈ h.contexts.setups, ∃ rest, key = StoreKey.object setup.contract rest

/-- What happens before an access of the store: only aborts arrive. -/
theorem beforeAccess_eq (op : StoreOp) (key : Bytes) (h : Host M) :
    ∃ signals events, h.beforeAccess op key =
        { h with accesses := h.accesses + 1, signals, journal := events ++ h.journal } ∧
      ∀ event ∈ events, event.isInner := by
  have arrive (aborts : List (String × String)) (signals : Signals) (events : List Event)
      (inner : ∀ event ∈ events, event.isInner) :
      ∃ signals' events', aborts.foldl receiveAbort
          { h with accesses := h.accesses + 1, signals, journal := events ++ h.journal } =
            { h with
              accesses := h.accesses + 1, signals := signals'
              journal := events' ++ h.journal } ∧
        ∀ event ∈ events', event.isInner := by
    induction aborts generalizing signals events with
    | nil => exact ⟨signals, events, rfl, inner⟩
    | cons abort rest ih => exact ih _ (_ :: events) (List.forall_mem_cons.2 ⟨rfl, inner⟩)
  exact arrive _ h.signals [.access op key] (by simp [Event.isInner])

section BeforeAccess

variable (op : StoreOp) (key : Bytes) (h : Host M)

@[simp]
theorem beforeAccess_store : (h.beforeAccess op key).store = h.store := by
  obtain ⟨signals, events, same, _⟩ := h.beforeAccess_eq op key
  rw [same]

@[simp]
theorem beforeAccess_surroundings : (h.beforeAccess op key).surroundings = h.surroundings := by
  obtain ⟨signals, events, same, _⟩ := h.beforeAccess_eq op key
  rw [same]

@[simp]
theorem beforeAccess_accesses : (h.beforeAccess op key).accesses = h.accesses + 1 := by
  obtain ⟨signals, events, same, _⟩ := h.beforeAccess_eq op key
  rw [same]

end BeforeAccess

/-- A change that leaves alone the code cache, the books of the host, and every key of the
store that is not a data key, as far as the store forgets none. -/
structure Quiet (h g : Host M) : Prop where
  surroundings : g.surroundings = h.surroundings
  cache : g.cache = h.cache
  engineUse : g.engineUse = h.engineUse
  running : g.running = h.running
  stats : g.stats = h.stats
  live : g.contexts.live = h.contexts.live
  setups : g.contexts.setups = h.contexts.setups
  store : h.store.Keeps (fun key => ¬ h.OwnsKey key) g.store
  journal : ∃ events, g.journal = events ++ h.journal ∧ ∀ event ∈ events, event.isInner

namespace Quiet

variable {h g f : Host M}

theorem refl (h : Host M) : Quiet h h :=
  ⟨rfl, rfl, rfl, rfl, rfl, rfl, rfl, .refl h.store, [], rfl, by simp⟩

theorem ownsKey_iff (quiet : Quiet h g) (key : Bytes) : g.OwnsKey key ↔ h.OwnsKey key := by
  unfold OwnsKey
  rw [quiet.setups]

theorem trans (first : Quiet h g) (second : Quiet g f) : Quiet h f where
  surroundings := second.surroundings.trans first.surroundings
  cache := second.cache.trans first.cache
  engineUse := second.engineUse.trans first.engineUse
  running := second.running.trans first.running
  stats := second.stats.trans first.stats
  live := second.live.trans first.live
  setups := second.setups.trans first.setups
  store := first.store.trans (second.store.mono fun key => mt (first.ownsKey_iff key).1)
  journal := by
    obtain ⟨events, journal, inner⟩ := first.journal
    obtain ⟨events', journal', inner'⟩ := second.journal
    exact ⟨events' ++ events, by rw [journal', journal, List.append_assoc],
      List.forall_mem_append.2 ⟨inner', inner⟩⟩

/-- A change of fields that no quiet change has to leave alone. -/
theorem of_eq (surroundings : g.surroundings = h.surroundings)
    (cache : g.cache = h.cache) (engineUse : g.engineUse = h.engineUse)
    (running : g.running = h.running) (stats : g.stats = h.stats)
    (contexts : g.contexts = h.contexts) (store : g.store = h.store)
    (journal : g.journal = h.journal) : Quiet h g where
  surroundings; cache; engineUse; running; stats
  live := congrArg _ contexts
  setups := congrArg _ contexts
  store := by
    rw [store]
    exact .refl h.store
  journal := ⟨[], journal, by simp⟩

/-- In a store in memory every key that is not a data key is as it was. -/
theorem inMemory (quiet : Quiet h g) {table : MemoryStore} (stored : h.store = .memory table) :
    ∃ table', g.store = .memory table' ∧
      ∀ key, ¬ h.OwnsKey key → table'.get? key = table.get? key :=
  (stored ▸ quiet.store).inMemory

theorem note (h : Host M) {event : Event} (inner : event.isInner) : Quiet h (h.note event) :=
  { refl h with journal := ⟨[event], rfl, by simpa using inner⟩ }

theorem addLines (h : Host M) (lines : List LogLine) : Quiet h (h.addLines lines) :=
  of_eq rfl rfl rfl rfl rfl rfl rfl rfl

theorem beforeAccess (op : StoreOp) (key : Bytes) (h : Host M) :
    Quiet h (h.beforeAccess op key) := by
  obtain ⟨signals, events, same, inner⟩ := h.beforeAccess_eq op key
  rw [same]
  exact { refl h with journal := ⟨events, rfl, inner⟩ }

/-- A change of the context of a number that keeps what it was created with. -/
theorem update (h : Host M) (id : ContextId) {change : Context → Context}
    (keeps : ∀ ctx, (change ctx).setup = ctx.setup) :
    Quiet h { h with contexts := h.contexts.update id change } :=
  { refl h with setups := h.contexts.setups_update id keeps }

end Quiet

/-! ## Accesses of the store -/

section Access

variable {α : Type} {op : StoreOp} {key : Bytes} {use : Store → α × Store}

/-- An access fails as the surroundings say, and otherwise uses the store. -/
theorem runFrom_access (op : StoreOp) (key : Bytes) (use : Store → α × Store) (h : Host M) :
    runFrom (HostM.access op key use) h =
      match h.surroundings.fault? h.accesses op key with
      | some fault => (.error fault, h.beforeAccess op key)
      | none =>
        (.ok (use h.store).1, { h.beforeAccess op key with store := (use h.store).2 }) := by
  obtain ⟨signals, events, same, _⟩ := h.beforeAccess_eq op key
  simp only [HostM.access, runFrom_bind, runFrom_get, runFrom_modify]
  cases h.surroundings.fault? h.accesses op key with
  | some fault => rfl
  | none => simp only [runFrom_modifyGet, same]

/-- What an access leaves behind if the surroundings let it through. -/
theorem access_ends {Ok : α → Host M → Prop} {Fail : StoreError → Host M → Prop} {h : Host M}
    (fail : ∀ fault, Fail fault (h.beforeAccess op key))
    (ok : Ok (use h.store).1 { h.beforeAccess op key with store := (use h.store).2 }) :
    Ends Ok Fail (runFrom (HostM.access op key use) h) := by
  rw [runFrom_access]
  split
  · exact fail _
  · exact ok

/-- An access is quiet if it changes the store at data keys only. -/
theorem access_quiet {h : Host M}
    (touches : h.store.Keeps (fun key => ¬ h.OwnsKey key) (use h.store).2) :
    Ends (fun _ => Quiet h) (fun _ => Quiet h) (runFrom (HostM.access op key use) h) :=
  access_ends (fun _ => .beforeAccess op key h)
    { Quiet.beforeAccess op key h with store := touches }

end Access

theorem getKey_quiet (key : Bytes) (h : Host M) :
    Ends (fun _ => Quiet h) (fun _ => Quiet h) (runFrom (HostM.getKey key) h) :=
  access_quiet (.get? h.store key)

/-- The host after a key was written. -/
def wrote (key value : Bytes) (h : Host M) : Host M :=
  { h.beforeAccess .put key with store := h.store.put key value }

section Wrote

variable (key value : Bytes) (h : Host M)

@[simp]
theorem wrote_cache : (h.wrote key value).cache = h.cache :=
  (Quiet.beforeAccess .put key h).cache

@[simp]
theorem wrote_engineUse : (h.wrote key value).engineUse = h.engineUse :=
  (Quiet.beforeAccess .put key h).engineUse

@[simp]
theorem wrote_surroundings : (h.wrote key value).surroundings = h.surroundings :=
  beforeAccess_surroundings .put key h

@[simp]
theorem wrote_accesses : (h.wrote key value).accesses = h.accesses + 1 :=
  beforeAccess_accesses .put key h

theorem runFrom_putKey :
    runFrom (HostM.putKey key value) h =
      match h.surroundings.fault? h.accesses .put key with
      | some fault => (.error fault, h.beforeAccess .put key)
      | none => (.ok (), h.wrote key value) :=
  runFrom_access .put key _ h

end Wrote

/-- A key was written, and nothing else happened that is not quiet. -/
def Stored (key value : Bytes) (h g : Host M) : Prop :=
  ∃ f, h.Quiet f ∧ g = { f with store := h.store.put key value }

/-- Any key can be written, if the surroundings let it happen. -/
theorem putKey_ends (key value : Bytes) (h : Host M) :
    Ends (fun _ => h.Stored key value) (fun _ => Quiet h) (runFrom (HostM.putKey key value) h) :=
  access_ends (fun _ => .beforeAccess .put key h) ⟨_, .beforeAccess .put key h, rfl⟩

theorem putKey_quiet {h : Host M} {key : Bytes} (owned : h.OwnsKey key) (value : Bytes) :
    Ends (fun _ => Quiet h) (fun _ => Quiet h) (runFrom (HostM.putKey key value) h) :=
  access_quiet (.put h.store (not_not_intro owned) value)

theorem deleteKey_quiet {h : Host M} {key : Bytes} (owned : h.OwnsKey key) :
    Ends (fun _ => Quiet h) (fun _ => Quiet h) (runFrom (HostM.deleteKey key) h) :=
  access_quiet (.delete h.store (not_not_intro owned))

/-! ## Syscalls -/

section Syscall

variable {id : ContextId}

theorem ownsKey_of_find? {h : Host M} {ctx : Context} (found : h.contexts.find? id = some ctx)
    (key : Bytes) : h.OwnsKey (StoreKey.object ctx.setup.contract key) := by
  unfold Contexts.find? at found
  split at found
  · exact ⟨ctx.setup, Contexts.setup_mem_setups found, key, rfl⟩
  · cases found

/-- A request is answered between two entries in the journal. -/
theorem runFrom_serve (invoker? : Option (Invoker M)) (id : ContextId)
    (request : SyscallRequest) (h : Host M) :
    runFrom (Syscall.serve invoker? id request) h =
      let p := runFrom (Syscall.answer invoker? id request)
        (h.note (.syscall id request h.contexts.live))
      (p.1, p.2.note (.answered id request p.1)) := rfl

section Known

variable {h : Host M} {ctx : Context} (found : h.contexts.find? id = some ctx)

include found

/-- Whoever asks is looked up first. -/
theorem runFrom_withContext {α : Type} (rest : Context → HostM M HostError α) :
    runFrom (Syscall.requireContext id >>= rest) h = runFrom (rest ctx) h := by
  unfold Syscall.requireContext
  simp only [runFrom_bind, runFrom_get, found, runFrom_pure]

/-- A call of a contract is handed to the invoker, and charged to the context that asks. -/
theorem runFrom_answer_call (invoker : Invoker M) (contract method : String)
    (args : List ArgPair) :
    runFrom (Syscall.answer (some invoker) id
        (.contractCall SyscallRequest.contractModule contract method args)) h =
      runFrom (do
        let (response, used) ← invoker ctx contract method (Arguments.ofPairs args)
        modify fun h => { h with contexts := h.contexts.update id (Context.addNestedUsage used) }
        return .response response) h := by
  unfold Syscall.answer Syscall.contractCall
  rw [runFrom_bind, runFrom_withContext found, if_neg (not_not_intro rfl)]
  simp only [runFrom_bind]
  rcases runFrom (invoker ctx contract method (Arguments.ofPairs args)) h with ⟨e | answer, g⟩
  · rfl
  · rfl

/-- There are no calls of anything else. -/
theorem runFrom_answer_foreign {module : String} (foreign : module ≠ SyscallRequest.contractModule)
    (invoker? : Option (Invoker M)) (contract method : String) (args : List ArgPair) :
    runFrom (Syscall.answer invoker? id (.contractCall module contract method args)) h =
      (.error (.unsupportedModule module), h) := by
  unfold Syscall.answer Syscall.contractCall
  rw [runFrom_bind, runFrom_withContext found, if_pos foreign]
  rfl

/-- Without an invoker there are no calls of contracts. -/
theorem runFrom_answer_uninvoked (contract method : String) (args : List ArgPair) :
    runFrom (Syscall.answer none id
        (.contractCall SyscallRequest.contractModule contract method args)) h =
      (.error (.engine "contract calls are not available"), h) := by
  unfold Syscall.answer Syscall.contractCall
  rw [runFrom_bind, runFrom_withContext found, if_neg (not_not_intro rfl)]
  rfl

end Known

/-- Whoever is unknown is refused, and nothing has happened. -/
theorem runFrom_withoutContext {h : Host M} (unknown : h.contexts.find? id = none) {α : Type}
    (rest : Context → HostM M HostError α) :
    runFrom (Syscall.requireContext id >>= rest) h = (.error (.unknownContext id), h) := by
  unfold Syscall.requireContext
  simp only [runFrom_bind, runFrom_get, unknown, runFrom_throw]

theorem runFrom_answer_unknown {h : Host M} (unknown : h.contexts.find? id = none)
    (invoker? : Option (Invoker M)) (request : SyscallRequest) :
    runFrom (Syscall.answer invoker? id request) h = (.error (.unknownContext id), h) := by
  cases request
  all_goals
    unfold Syscall.answer
    rw [runFrom_bind]
    first
      | simp only [Syscall.putObject, runFrom_withoutContext unknown]
      | simp only [Syscall.getObject, runFrom_withoutContext unknown]
      | simp only [Syscall.deleteObject, runFrom_withoutContext unknown]
      | simp only [Syscall.getCallArgs, runFrom_withoutContext unknown]
      | simp only [Syscall.setOutput, runFrom_withoutContext unknown]
      | simp only [Syscall.transfer, runFrom_withoutContext unknown]
      | simp only [Syscall.contractCall, runFrom_withoutContext unknown]

/-- Without an invoker every call of a contract is refused, and has changed nothing. -/
theorem answer_uninvoked_fails (id : ContextId) (module contract method : String)
    (args : List ArgPair) (h : Host M) :
    ∃ e, runFrom (Syscall.answer none id (.contractCall module contract method args)) h =
      (.error e, h) := by
  cases found : h.contexts.find? id with
  | none => exact ⟨_, runFrom_answer_unknown found none _⟩
  | some ctx =>
      by_cases known : module = SyscallRequest.contractModule
      · subst known
        exact ⟨_, runFrom_answer_uninvoked found contract method args⟩
      · exact ⟨_, runFrom_answer_foreign found known none contract method args⟩

end Syscall

end Host

end ContractHost
