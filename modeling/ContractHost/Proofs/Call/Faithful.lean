/-
# Cached code is never stale

Over a store in memory, what is cached for a contract is what compiling the bytecode that
is stored for it yields. No call can change that: a program writes data keys, and no data
key is the key of code. Only a deployment writes bytecode, and one that finds old code in
the cache fails and drops it, whichever way it fails.
-/

import ContractHost.Proofs.Call.Invariant
import ContractHost.Proofs.Call.Runs
import ContractHost.Proofs.Journal.Calls
import ContractHost.Proofs.Store.Keys

namespace ContractHost

open Script (Machine Module)

/-- Compiled code is what compiling the bytecode stored for a contract yields. -/
structure CompiledCode.IsBuildOf (code : CompiledCode Module) (store : Store)
    (contract : String) : Prop where
  name : code.name = contract
  built : ∃ bytecode, store.build contract = .ok (bytecode, code.module) ∧
    code.digest = Digest.hexSha256 bytecode

theorem CompiledCode.IsBuildOf.congr {code : CompiledCode Module} {store store' : Store}
    {contract : String} (built : code.IsBuildOf store contract)
    (same : (store'.get? (StoreKey.code contract)).1 = (store.get? (StoreKey.code contract)).1) :
    code.IsBuildOf store' contract :=
  ⟨built.name, Store.build_congr same ▸ built.built⟩

namespace Host

/-- The cache agrees with a store in memory, but for one contract perhaps, and all contexts
are those of contracts with valid names. -/
structure FaithfulBut (stale : Option String) (h : Host Module) : Prop where
  inMemory : ∃ table, h.store = .memory table
  named : ∀ setup ∈ h.contexts.setups, Naming.validate setup.contract = .ok ()
  current : ∀ contract code, stale ≠ some contract → h.cache.find? contract = some code →
    code.IsBuildOf h.store contract

/-- The cache agrees with a store in memory, contract by contract. -/
abbrev Faithful (h : Host Module) : Prop := FaithfulBut none h

/-- Since an earlier moment no bytecode in the store has changed, and calls obtained only
code of the bytecode in the store. -/
structure RanStored (base h : Host Module) : Prop where
  code : ∀ contract, (h.store.get? (StoreKey.code contract)).1 =
    (base.store.get? (StoreKey.code contract)).1
  ran : ∃ events, h.journal = events ++ base.journal ∧
    ∀ contract digest, (contract, digest) ∈ events.filterMap Event.obtained? →
      ∃ bytecode, (base.store.get? (StoreKey.code contract)).1 = some bytecode ∧
        digest = Digest.hexSha256 bytecode

/-- The cache agrees with the store, and so did all code obtained since an earlier moment. -/
structure FaithfulSince (base h : Host Module) : Prop where
  faithful : Faithful h
  ran : RanStored base h

variable {base h g : Host Module}

namespace FaithfulBut

variable {stale : Option String}

/-- A read of a store in memory changes nothing. -/
theorem get?_store (faithful : FaithfulBut stale h) (key : Bytes) :
    (h.store.get? key).2 = h.store := by
  obtain ⟨table, stored⟩ := faithful.inMemory
  rw [stored]
  rfl

/-- A quiet change writes no bytecode. -/
theorem code_quiet (faithful : FaithfulBut stale h) (quiet : Quiet h g) (contract : String) :
    (g.store.get? (StoreKey.code contract)).1 = (h.store.get? (StoreKey.code contract)).1 := by
  obtain ⟨table, stored⟩ := faithful.inMemory
  obtain ⟨table', stored', kept⟩ := quiet.inMemory stored
  have free : ¬ h.OwnsKey (StoreKey.code contract) := by
    rintro ⟨setup, mem, key, same⟩
    exact StoreKey.object_ne_code (faithful.named setup mem) key contract same.symm
  rw [stored, stored']
  exact kept _ free

/-- Agreement is a matter of the store, of what is found in the cache, and of the
contexts. -/
theorem congr (faithful : FaithfulBut stale h) (store : g.store = h.store)
    (setups : g.contexts.setups = h.contexts.setups)
    (found : ∀ contract code, g.cache.find? contract = some code →
      h.cache.find? contract = some code) : FaithfulBut stale g where
  inMemory := store ▸ faithful.inMemory
  named := setups ▸ faithful.named
  current contract code other cached :=
    store ▸ faithful.current contract code other (found contract code cached)

theorem quiet (faithful : FaithfulBut stale h) (quiet : Quiet h g) : FaithfulBut stale g where
  inMemory := by
    obtain ⟨table, stored⟩ := faithful.inMemory
    obtain ⟨table', stored', _⟩ := quiet.inMemory stored
    exact ⟨table', stored'⟩
  named := quiet.setups ▸ faithful.named
  current contract code other cached :=
    (faithful.current contract code other (quiet.cache ▸ cached)).congr
      (faithful.code_quiet quiet contract)

theorem beginCall (faithful : FaithfulBut stale h) {setup : CallSetup}
    (valid : Naming.validate setup.contract = .ok ()) :
    FaithfulBut stale (Manager.beginCall setup h) := by
  refine { faithful with named := fun other mem => ?_ }
  have mem : other ∈ h.contexts.setups.push setup := by
    rw [← Contexts.setups_create]
    exact mem
  rcases Array.mem_push.1 mem with mem | rfl
  · exact faithful.named other mem
  · exact valid

theorem endCall (faithful : FaithfulBut stale h) (id : ContextId)
    (outcome : Except HostError Outcome) : FaithfulBut stale (Manager.endCall id outcome h) :=
  faithful.congr rfl rfl fun _ _ cached => cached

theorem finish (faithful : FaithfulBut stale h) (contract : String)
    (result : Except HostError Outcome) : FaithfulBut stale (Manager.finish contract result h) := by
  refine faithful.congr (Manager.finish_store ..) ?_ fun name code cached => ?_
  · rw [Manager.finish_contexts]
  · rw [Manager.finish_find?] at cached
    split at cached
    · cases cached
    · exact cached

/-! ## Writing bytecode -/

/-- A write under another key leaves the bytecode of a contract alone. -/
theorem code_stored (faithful : FaithfulBut stale h) {key value : Bytes}
    (stored : h.Stored key value g) {contract : String} (other : key ≠ StoreKey.code contract) :
    (g.store.get? (StoreKey.code contract)).1 = (h.store.get? (StoreKey.code contract)).1 := by
  obtain ⟨table, same⟩ := faithful.inMemory
  obtain ⟨f, quiet, rfl⟩ := stored
  rw [same]
  exact Table.get?_insert_of_ne table other.symm value

/-- Writing the bytecode of a contract puts in doubt what is cached for it only. -/
theorem stored (faithful : FaithfulBut stale h) {key value : Bytes} (stored : h.Stored key value g)
    {doubt : Option String} (covers : ∀ contract, doubt ≠ some contract → stale ≠ some contract)
    (others : ∀ contract, doubt ≠ some contract → key ≠ StoreKey.code contract) :
    FaithfulBut doubt g := by
  have code := fun contract (trusted : doubt ≠ some contract) =>
    faithful.code_stored stored (others contract trusted)
  obtain ⟨table, same⟩ := faithful.inMemory
  obtain ⟨f, quiet, rfl⟩ := stored
  exact {
    inMemory := ⟨table.insert key value, by rw [same]; rfl⟩
    named := (faithful.quiet quiet).named
    current := fun contract compiled trusted cached =>
      (faithful.current contract compiled (covers contract trusted) (quiet.cache ▸ cached)).congr
        (code contract trusted) }

/-- Code that is not cached is not stale. -/
theorem of_missing {contract : String} (faithful : FaithfulBut (some contract) h)
    (missing : h.cache.find? contract = none) : Faithful h :=
  { faithful with
    current := fun other code _ cached => by
      refine faithful.current other code (fun same => ?_) cached
      rw [← Option.some.inj same, missing] at cached
      cases cached }

/-- An error that costs a contract its code settles all doubt about it. -/
theorem finish_evicting {contract : String} (faithful : FaithfulBut (some contract) h)
    {result : Except HostError Outcome} (evicting : Manager.evicts result = true) :
    Faithful (Manager.finish contract result h) := by
  refine (faithful.finish contract result).of_missing ?_
  rw [Manager.finish_find?, if_pos ⟨evicting, rfl⟩]

end FaithfulBut

theorem RanStored.refl (h : Host Module) : RanStored h h :=
  ⟨fun _ => rfl, [], rfl, by simp⟩

/-- What is entered into the journal says nothing about code. -/
theorem RanStored.extend (ran : RanStored base h) {events : List Event}
    (same : g.journal = events ++ h.journal) (plain : events.filterMap Event.obtained? = [])
    (code : ∀ contract, (g.store.get? (StoreKey.code contract)).1 =
      (h.store.get? (StoreKey.code contract)).1) : RanStored base g where
  code contract := (code contract).trans (ran.code contract)
  ran := by
    obtain ⟨earlier, journal, stored⟩ := ran.ran
    refine ⟨events ++ earlier, by rw [same, journal, List.append_assoc], ?_⟩
    intro contract digest mem
    rw [List.filterMap_append, plain] at mem
    exact stored contract digest mem

theorem RanStored.quiet (ran : RanStored base h) (faithful : Faithful h) (quiet : Quiet h g) :
    RanStored base g := by
  obtain ⟨events, same, inner⟩ := quiet.journal
  refine ran.extend same ?_ (faithful.code_quiet quiet)
  exact List.filterMap_eq_nil_iff.2 fun event mem =>
    Event.obtained?_of_unmarked (Event.unmarked_of_isInner (inner event mem))

/-- A call obtained code of the bytecode in the store. -/
theorem RanStored.obtained (ran : RanStored base h) {id : ContextId} {contract : String}
    {code : CompiledCode Module} (current : code.IsBuildOf h.store contract)
    (same : g.journal = .obtained id contract code.digest :: h.journal)
    (store : g.store = h.store) : RanStored base g where
  code := store ▸ ran.code
  ran := by
    obtain ⟨earlier, journal, stored⟩ := ran.ran
    refine ⟨.obtained id contract code.digest :: earlier, by rw [same, journal]; rfl, ?_⟩
    intro other digest mem
    rcases List.mem_cons.1 mem with same | mem
    · obtain ⟨rfl, rfl⟩ := Prod.mk.inj same
      obtain ⟨bytecode, built, digest⟩ := current.built
      refine ⟨bytecode, ?_, digest⟩
      rw [← ran.code]
      exact (Store.build_eq_ok built).1
    · exact stored other digest mem

theorem FaithfulSince.refl (faithful : Faithful h) : FaithfulSince h h := ⟨faithful, .refl h⟩

theorem FaithfulSince.quiet (holds : FaithfulSince base h) (quiet : Quiet h g) :
    FaithfulSince base g :=
  ⟨holds.faithful.quiet quiet, holds.ran.quiet holds.faithful quiet⟩

end Host

namespace Call

open Host (Faithful FaithfulSince RanStored)

variable {base h : Host Module}

/-- Inside a call and after it, the cache agrees with the store and code was obtained from
it. -/
def faithful (base : Host Module) : Condition ContextId where
  context id := id
  Holds _ h := FaithfulSince base h
  Broken _ _ h := FaithfulSince base h

theorem faithful_invoked (holds : FaithfulSince base h) (contract : String) :
    FaithfulSince base (invoked contract h) := by
  obtain ⟨faithful, ran⟩ := holds
  have journal : (invoked contract h).journal = [_] ++ h.journal := rfl
  exact ⟨faithful.congr rfl rfl fun _ _ cached => cached, ran.extend journal rfl fun _ => rfl⟩

theorem faithful_beginCall (holds : FaithfulSince base h) {setup : CallSetup}
    (valid : Naming.validate setup.contract = .ok ()) :
    FaithfulSince base (Manager.beginCall setup h) := by
  obtain ⟨faithful, ran⟩ := holds
  have journal : (Manager.beginCall setup h).journal = [_] ++ h.journal := rfl
  exact ⟨faithful.beginCall valid, ran.extend journal rfl fun _ => rfl⟩

theorem faithful_lent (holds : FaithfulSince base h) {ctx : Context}
    {code : CompiledCode Module} (found : h.cache.find? ctx.setup.contract = some code) :
    FaithfulSince base (lent ctx code h) := by
  obtain ⟨faithful, ran⟩ := holds
  refine ⟨faithful.congr rfl rfl fun _ _ cached => cached, ?_⟩
  exact ran.obtained (faithful.current _ code nofun found) rfl rfl

theorem faithful_kept (holds : FaithfulSince base h) {ctx : Context} {bytecode : Bytes}
    {module : Module} (built : h.store.build ctx.setup.contract = .ok (bytecode, module)) :
    FaithfulSince base (kept ctx bytecode module h) := by
  obtain ⟨faithful, ran⟩ := holds
  have quiet := fetched_quiet ctx.setup.contract h
  have store : (fetched ctx.setup.contract h).store = h.store := faithful.get?_store _
  have current : (newCode ctx.setup.contract bytecode module h).IsBuildOf h.store
      ctx.setup.contract := ⟨rfl, bytecode, built, rfl⟩
  constructor
  · refine { faithful.quiet quiet with current := fun contract code _ cached => ?_ }
    have cached : (h.cache.insert ctx.setup.contract bytecode module).2.find? contract = some code :=
      cached
    show code.IsBuildOf (fetched ctx.setup.contract h).store contract
    rw [CodeCache.find?_insert] at cached
    rw [store]
    split at cached
    · next same =>
      cases cached
      exact same ▸ current
    · exact faithful.current contract code nofun cached
  · exact (ran.quiet faithful quiet).obtained (store ▸ current) rfl rfl

theorem faithful_ready (holds : FaithfulSince base h) (ctx : Context) :
    FaithfulSince base (ready ctx h) := by
  obtain ⟨faithful, ran⟩ := holds
  refine ⟨faithful.congr rfl rfl fun _ _ cached => cached, ?_⟩
  have journal : (ready ctx h).journal = preparations ctx ++ h.journal := rfl
  refine ran.extend journal ?_ fun _ => rfl
  unfold preparations
  cases Language.ofTag? ctx.setup.language <;> rfl

theorem faithful_endCall (holds : FaithfulSince base h) (id : ContextId)
    (outcome : Except HostError Outcome) : FaithfulSince base (Manager.endCall id outcome h) := by
  obtain ⟨faithful, ran⟩ := holds
  have journal : (Manager.endCall id outcome h).journal = [_] ++ h.journal := rfl
  exact ⟨faithful.endCall id outcome, ran.extend journal rfl fun _ => rfl⟩

theorem faithful_conclude (holds : FaithfulSince base h) (config : Config) (ctx : Context)
    (code : CompiledCode Module) (result : Except HostError Unit) (m : Machine) :
    FaithfulSince base (conclude config ctx code result m h).2 := by
  obtain ⟨faithful, ran⟩ := holds
  obtain ⟨contexts, concluded, _, setups⟩ := conclude_eq config ctx code result m h
  have store := part_store ctx.id result m code h
  have found (name : String) :
      (part ctx.id result m code h).cache.find? name = h.cache.find? name := by
    rw [part_cache, CodeCache.find?_giveBack]
  rw [concluded]
  constructor
  · exact faithful.congr store setups fun name _ cached => (found name).symm.trans cached
  · have extended : RanStored base (part ctx.id result m code h) := by
      refine ran.extend (part_journal ctx.id result m code h) ?_ fun contract => by rw [store]
      cases (h.cache.giveBack code).1 <;> rfl
    exact { extended with }

theorem faithful_finish (holds : FaithfulSince base h) (contract : String)
    (result : Except HostError Outcome) :
    FaithfulSince base (Manager.finish contract result h) := by
  obtain ⟨faithful, ran⟩ := holds
  refine ⟨faithful.finish contract result, ?_⟩
  refine ran.extend (Manager.finish_journal contract result h) ?_ fun _ => by
    rw [Manager.finish_store]
  cases Manager.evicts result with
  | true => cases (h.cache.remove contract).1 <;> rfl
  | false => rfl

/-- A call keeps the cache in agreement with the store, however it comes by its code. -/
theorem faithful_opens (config : Config) (load : CodeLoad) {setup : CallSetup}
    (valid : Naming.validate setup.contract = .ok ()) (holds : FaithfulSince base h) :
    (faithful base).Opens config (fun _ => FaithfulSince base) load
      (created setup h) (Manager.beginCall setup h) := by
  have begun := faithful_beginCall holds valid
  have opened {code : CompiledCode Module} {g : Host Module} (obtained : FaithfulSince base g) :
      ∃ frame, (faithful base).context frame = (created setup h).id ∧
        (faithful base).Holds frame (ready (created setup h) g) ∧
        ∀ result m f, (faithful base).Ended frame result f →
          let p := conclude config (created setup h) code result m f
          FaithfulSince base (Manager.endCall (created setup h).id p.1 p.2) := by
    refine ⟨_, rfl, faithful_ready obtained _, fun result m f ended => ?_⟩
    have held := ((faithful base).ended_iff fun _ _ => Iff.rfl).1 ended
    exact faithful_endCall (faithful_conclude held config _ code result m) _ _
  refine obtain_ends ?_ ?_ ?_ ?_
  · intro code _ _
    exact faithful_endCall begun _ _
  · intro code _ found
    exact opened (faithful_lent begun found)
  · intro e g _ quiet
    exact faithful_endCall (begun.quiet quiet) _ _
  · intro bytecode module _ built
    exact opened (faithful_kept begun built)

theorem faithful_invariant (config : Config) (base : Host Module) :
    Invariant config (faithful base) where
  broken _ holds := holds
  aborted _ broken := broken
  marked inner holds := holds.quiet (.note _ inner)
  quiet quiet holds := holds.quiet quiet
  called := by
    intro id h setup asked holds
    have opens := faithful_opens config .reuse asked.named (faithful_invoked holds setup.contract)
    refine opens.mono fun result g holds => ?_
    exact (Condition.returned_iff fun _ _ => Iff.rfl).2 (faithful_finish holds setup.contract result)

/-! ## Runs -/

/-- A run is one of the bytecode that a store has for the contract of the call. -/
def RunsStored (config : Config) (store : Store) (run : CallRun config) : Prop :=
  ∃ bytecode, (store.get? (StoreKey.code run.setup.contract)).1 = some bytecode ∧ bytecode ≠ [] ∧
    run.Boots bytecode

/-- Where the cache agrees with the store when a program is entered, the program is that of the
bytecode that was stored all the time. -/
theorem runsStored_of_ready (config : Config) (base : Host Module) (id : ContextId)
    (run : CallRun config) (holds : (faithful base).Holds id run.ready) :
    RunsStored config base.store run := by
  obtain ⟨agrees, ran⟩ := holds
  obtain ⟨bytecode, built, -⟩ := (agrees.current _ _ nofun run.cached).built
  obtain ⟨stored, filled, compiled⟩ := Store.build_eq_ok built
  exact ⟨bytecode, (ran.code _).symm.trans stored, filled, run.boots compiled⟩

/-- Code that is cached, or can be read and compiles, is obtained for a call. -/
theorem obtain_reuse (ctx : Context) (h : Host Module) {built : Bytes × Module}
    (unfaulted : h.cache.contains ctx.setup.contract = false →
      h.surroundings.fault? h.accesses .get (StoreKey.code ctx.setup.contract) = none)
    (compiles : h.store.build ctx.setup.contract = .ok built) :
    ∃ code g, obtain .reuse ctx h = (.ok code, g) := by
  unfold obtain
  dsimp only
  cases found : h.cache.find? ctx.setup.contract with
  | some code => exact ⟨code, _, rfl⟩
  | none =>
      have missing : h.cache.contains ctx.setup.contract = false := by
        rw [CodeCache.contains, found]
        rfl
      rw [unfaulted missing, compiles]
      exact ⟨_, _, rfl⟩

/-! ## Requests -/

/-- An invocation keeps the agreement. Every call in it obtains code of the bytecode that is
stored, and runs the program of that bytecode. -/
theorem faithful_invoke (config : Config) (agrees : Faithful h) (method : String)
    (fields : RequestFields) :
    let g := ((Manager.scripted config).serve h (.invoke method fields)).2
    FaithfulSince h g ∧ Host.OnRecord (RunsStored config h.store) h g := by
  rw [Manager.serve_invoke, runFrom_invokeContract]
  cases parsed : CallRequest.parse fields false with
  | error e => exact ⟨.refl agrees, .refl h⟩
  | ok request =>
      have counted : FaithfulSince h (invoked request.contract h) :=
        faithful_invoked (.refl agrees) request.contract
      have valid : Naming.validate (request.callSetup method).contract = .ok () :=
        CallRequest.validate_of_parse parsed
      have inv := faithful_invariant config h
      have knows := runsStored_of_ready config h
      have begins := (inv.begins (faithful_opens config .reuse valid counted)).recording knows
        ((Host.OnRecord.refl h).passes (passes_invoked (by rfl) h))
        fun _ _ holds record => And.intro holds record
      obtain ⟨holds, record⟩ := (inv.upheld.recording knows h).run config.maxCallDepth.toNat begins
      exact ⟨faithful_finish holds request.contract _, record.passes (unmeasured_finish ..)⟩

/-- An invocation of a contract whose bytecode compiles, and can be read if it is not cached,
comes to what the run of its program comes to. -/
theorem invoke_runs (config : Config) (agrees : Faithful h) (method : String)
    {fields : RequestFields} {request : CallRequest}
    (parsed : CallRequest.parse fields false = .ok request) {built : Bytes × Module}
    (compiles : h.store.build request.contract = .ok built)
    (unfaulted : h.cache.contains request.contract = false →
      h.surroundings.fault? h.accesses .get (StoreKey.code request.contract) = none) :
    ∃ run : CallRun config, run.load = .reuse ∧ run.setup = request.callSetup method ∧
      run.before = invoked request.contract h ∧ run.room = config.maxCallDepth.toNat ∧
      RunsStored config h.store run ∧
      (Manager.scripted config).serve h (.invoke method fields) =
        (some run.ended.1, Manager.finish request.contract run.ended.1 run.ended.2) := by
  have valid : Naming.validate (request.callSetup method).contract = .ok () :=
    CallRequest.validate_of_parse parsed
  have opens := faithful_opens config .reuse valid (faithful_invoked (.refl agrees) request.contract)
  let begun := Manager.beginCall (request.callSetup method) (invoked request.contract h)
  obtain ⟨code, g, obtained⟩ := obtain_reuse
    (created (request.callSetup method) (invoked request.contract h)) begun unfaulted compiles
  unfold Condition.Opens at opens
  rw [obtained] at opens
  obtain ⟨id, _, holds, _⟩ := opens
  let run : CallRun config := .ofObtained config.maxCallDepth.toNat obtained
  refine ⟨run, rfl, rfl, rfl, rfl, runsStored_of_ready config h id run holds, ?_⟩
  rw [Manager.serve_invoke, runFrom_invokeContract, parsed, ← run.run_eq]
  rfl

/-- So does a deployment. Old code that it finds in the cache is dropped, whichever way it
fails then. -/
theorem faithful_deploy (config : Config) (faithful : Faithful h) (fields : RequestFields) :
    Faithful (runFrom ((Manager.scripted config).deploy fields) h).2 := by
  rw [runFrom_deploy]
  cases parsed : CallRequest.parse fields true with
  | error e => exact faithful
  | ok request =>
      have counted : Faithful (deploying request.contract h) :=
        faithful.congr rfl rfl fun _ _ cached => cached
      have valid : Naming.validate request.initSetup.contract = .ok () :=
        CallRequest.validate_of_parse parsed
      have overwritten {f : Host Module}
          (stored : (deploying request.contract h).Stored (StoreKey.code request.contract)
            request.code f) : Host.FaithfulBut (some request.contract) f := by
        refine counted.stored stored (fun _ _ => nofun) fun contract other same => ?_
        exact other (congrArg some (StoreKey.code_injective same))
      refine deployAccepted_cases config
        (fun result g => Faithful (Manager.finish request.contract result g)) ?_ ?_ ?_
      · intro fault g quiet
        exact (counted.quiet quiet).finish _ _
      · intro fault f g stored quiet
        exact ((overwritten stored).quiet quiet).finish_evicting rfl
      · intro f g stored described
        have doubtful : Host.FaithfulBut (some request.contract) g :=
          (overwritten stored).stored described (fun _ other => other)
            fun contract _ => StoreKey.description_ne_code request.contract contract
        cases cached : g.cache.find? request.contract with
        | some code =>
            have found : (Manager.beginCall request.initSetup g).cache.find?
                (created request.initSetup g).setup.contract = some code := cached
            rw [run_stale config _ found]
            exact ((doubtful.beginCall valid).endCall _ _).finish_evicting rfl
        | none =>
            have ran := (faithful_invariant config g).run config.maxCallDepth.toNat
              (faithful_opens config .compile valid (.refl (doubtful.of_missing cached)))
            exact ran.1.finish _ _

theorem faithful_serve (config : Config) (request : HostRequest) (faithful : Faithful h) :
    Faithful ((Manager.scripted config).serve h request).2 := by
  cases request with
  | deploy fields => exact faithful_deploy config faithful fields
  | invoke method fields => exact (faithful_invoke config faithful method fields).1.faithful
  | abort contract message => exact faithful.congr rfl rfl fun _ _ cached => cached

end Call

/-- After a session over a store in memory the cache agrees with the store. -/
theorem session_faithful (config : Config) (table : MemoryStore) (surroundings : Surroundings)
    (requests : List HostRequest) :
    ((Manager.scripted config).session (.fresh (.memory table) surroundings) requests).Faithful := by
  have start : (Host.fresh (.memory table) surroundings).Faithful :=
    ⟨⟨table, rfl⟩, by simp [Host.fresh, Contexts.setups], nofun⟩
  exact Manager.session_induction _ _ (fun g request => Call.faithful_serve config request) start
    requests

/-- After any session over a store in memory, whatever happened around the store and however its
requests ended, what is cached for a contract was compiled from the bytecode that is stored for
it.

So every call of a later invocation, at any depth, runs the bytecode that is stored for its
contract. The code that it obtains has the digest of that bytecode. Whatever program of such a
call is done was run on a machine that was booted from the module that the bytecode compiles to,
with a context of the number that the journal gives. And where the bytecode compiles, and can be
read if it is not cached, the invocation itself comes to what such a run comes to. -/
theorem session_cache_current (config : Config) (table : MemoryStore)
    (surroundings : Surroundings) (requests : List HostRequest) :
    let manager := Manager.scripted config
    let h := manager.session (.fresh (.memory table) surroundings) requests
    ∃ table', h.store = .memory table' ∧
      (∀ contract code, h.cache.find? contract = some code →
        ∃ bytecode, table'.get? (StoreKey.code contract) = some bytecode ∧ bytecode ≠ [] ∧
          code.name = contract ∧ code.digest = Digest.hexSha256 bytecode ∧
          Module.compile .standard bytecode = .ok code.module) ∧
      (∀ method fields,
        ∃ events, (manager.serve h (.invoke method fields)).2.journal = events ++ h.journal ∧
          (∀ id contract digest, Event.obtained id contract digest ∈ events →
            ∃ bytecode, table'.get? (StoreKey.code contract) = some bytecode ∧
              digest = Digest.hexSha256 bytecode) ∧
          ∀ id result used early, (.measured id result used :: early) <:+ events →
            ∃ (run : CallRun config) (bytecode : Bytes),
              table'.get? (StoreKey.code run.setup.contract) = some bytecode ∧ bytecode ≠ [] ∧
                run.Boots bytecode ∧ run.Tells h.journal id result used early) ∧
      ∀ method fields request bytecode module, CallRequest.parse fields false = .ok request →
        table'.get? (StoreKey.code request.contract) = some bytecode → bytecode ≠ [] →
        Module.compile .standard bytecode = .ok module →
        (h.cache.contains request.contract = false →
          h.surroundings.fault? h.accesses .get (StoreKey.code request.contract) = none) →
        ∃ run : CallRun config, run.load = .reuse ∧ run.setup = request.callSetup method ∧
          run.before = Call.invoked request.contract h ∧ run.room = config.maxCallDepth.toNat ∧
          run.Boots bytecode ∧ manager.serve h (.invoke method fields) =
            (some run.ended.1, Manager.finish request.contract run.ended.1 run.ended.2) := by
  intro manager h
  have agrees : h.Faithful := session_faithful config table surroundings requests
  obtain ⟨table', stored⟩ := agrees.inMemory
  have answers (contract : String) : (h.store.get? (StoreKey.code contract)).1 =
      table'.get? (StoreKey.code contract) := by rw [stored]; rfl
  refine ⟨table', stored, ?cached, ?deeper, ?outermost⟩
  case cached =>
    intro contract code cached
    obtain ⟨name, bytecode, built, digest⟩ := agrees.current contract code nofun cached
    obtain ⟨found, filled, compiled⟩ := Store.build_eq_ok built
    exact ⟨bytecode, (answers contract).symm.trans found, filled, name, digest, compiled⟩
  case deeper =>
    intro method fields
    obtain ⟨holds, events, journal, recorded⟩ := Call.faithful_invoke config agrees method fields
    obtain ⟨events', journal', ran⟩ := holds.ran.ran
    obtain rfl := List.append_cancel_right (journal.symm.trans journal')
    refine ⟨events, journal, fun id contract digest mem => ?_,
      fun id result used early suffix => ?_⟩
    · rw [← answers]
      exact ran contract digest (List.mem_filterMap.2 ⟨_, mem, rfl⟩)
    · obtain ⟨run, ⟨bytecode, found, filled, boots⟩, tells⟩ :=
        recorded id result used early suffix
      exact ⟨run, bytecode, (answers _).symm.trans found, filled, boots, tells⟩
  case outermost =>
    intro method fields request bytecode module parsed found filled compiled unfaulted
    have built : h.store.build request.contract = .ok (bytecode, module) := by
      unfold Store.build
      simp only [answers, found, List.isEmpty_iff, filled, ↓reduceIte, compiled]
    obtain ⟨run, load, setup, before, room, ⟨bytecode', found', _, boots⟩, served⟩ :=
      Call.invoke_runs config agrees method parsed built unfaulted
    rw [answers, setup] at found'
    obtain rfl : bytecode = bytecode' := Option.some.inj (found.symm.trans found')
    exact ⟨run, load, setup, before, room, boots, served⟩

end ContractHost
