/-
# Deploying a contract again

A deployment writes code and language first and asks for fresh code then. If old code is
cached, that is refused: no program runs, the record in the store is the new one, and the old
code is dropped. So it happens once: as long as no call of the contract is started, no code is
cached for it, and the next deployment compiles the bytecode that it brings itself.

The surroundings are calm here: no access of the store fails, and no abort arrives.
-/

import ContractHost.Proofs.Call.Eviction
import ContractHost.Proofs.Call.Record
import ContractHost.Proofs.Call.Stale
import ContractHost.Proofs.Call.Transparent

namespace ContractHost

open Script (Machine Module)

namespace StoreKey

/-- A key that holds a name and no dash is no key of data. -/
theorem ne_object {mark : Bytes} (plain : Naming.dash ∉ mark) {contract : String}
    (valid : Naming.validate contract = .ok ()) (other : String) (key : Bytes) :
    mark ++ Utf8.encode contract ≠ object other key := by
  intro same
  have dash : Naming.dash ∈ mark ++ Utf8.encode contract := by
    rw [same]
    exact List.mem_append_right _ List.mem_cons_self
  rcases List.mem_append.1 dash with marked | named
  · exact plain marked
  · exact dash_notMem_of_isName (isName_of_validate valid) named

theorem code_ne_object {contract : String} (valid : Naming.validate contract = .ok ())
    (other : String) (key : Bytes) : code contract ≠ object other key :=
  ne_object (by decide) valid other key

theorem description_ne_object {contract : String} (valid : Naming.validate contract = .ok ())
    (other : String) (key : Bytes) : description contract ≠ object other key :=
  ne_object (by decide) valid other key

end StoreKey

/-- True of the events by which a program is entered, and of those of its operations. -/
def Event.isRunning : Event → Bool
  | .operation .. | .engine (.exec ..) => true
  | _ => false

/-- What a deployment leaves behind that finds old code in the cache: a new record in the store,
and no code. No program ran. -/
structure Host.Purged (request : CallRequest) (h g : Host Module) : Prop where
  idle : ∃ events, g.journal = events ++ h.journal ∧ ∀ event ∈ events, event.isRunning = false
  data : ∀ contract key,
    g.store.peek? (StoreKey.object contract key) = h.store.peek? (StoreKey.object contract key)
  code : g.store.peek? (StoreKey.code request.contract) = some request.code
  description : g.store.peek? (StoreKey.description request.contract) =
    some (Utf8.encode request.language)
  dropped : g.cache.contains request.contract = false

/-- An instance that a deployment made for its call: it runs a module that was compiled from the
bytecode of the request after the deployment began, and from nothing that was there before. -/
structure Host.Installed (request : CallRequest) (h : Host Module)
    (inst : Instance Module Machine) (g : Host Module) : Prop where
  contract : inst.setup.contract = request.contract
  method : inst.setup.method = "initialize"
  depth : inst.setup.depth = 0
  runs : inst.machine.module = inst.code.module
  built : Module.compile .standard request.code = .ok inst.code.module
  digest : inst.code.digest = Digest.hexSha256 request.code
  fresh : ∀ serial, h.cache.holds serial = true → serial < inst.code.serial
  counted : g.engineUse.modulesCompiled = h.engineUse.modulesCompiled + 1

/-- A call of a contract was started since an earlier moment. -/
def Host.Started (name : String) (base h : Host Module) : Prop :=
  ∃ events, h.journal = events ++ base.journal ∧ .started name ∈ events

/-- Since an earlier moment a contract has come by cached code only if a call of it was
started. -/
structure Host.Prompted (name : String) (base h : Host Module) : Prop where
  grows : base.journal <:+ h.journal
  started : h.cache.contains name = true → Started name base h

/-- The same before a call of some contract, which is started by then. -/
structure Host.Announced (name : String) (base : Host Module) (contract : String)
    (h : Host Module) : Prop where
  prompted : Prompted name base h
  started : contract = name → Started name base h

namespace Call

variable (config : Config) {h : Host Module} {fields : RequestFields} {request : CallRequest}

/-! ## The beginning of the call -/

/-- The context in which a deployment makes its call. -/
def initContext (request : CallRequest) (h : Host Module) : Context :=
  created request.initSetup (written request h)

/-- The host when the call of a deployment begins. -/
def installed (request : CallRequest) (h : Host Module) : Host Module :=
  Manager.beginCall request.initSetup (written request h)

section Calm

variable (calm : h.surroundings = {})

include calm

/-- In calm surroundings a deployment writes its record and makes its call. -/
theorem runFrom_deploy_calm (parsed : CallRequest.parse fields true = .ok request) :
    runFrom ((Manager.scripted config).deploy fields) h =
      let p := run config (outermost config) .compile (initContext request h) (installed request h)
      (p.1, Manager.finish request.contract p.1 p.2) := by
  rw [runFrom_deploy_writes config parsed, calm]
  rfl

/-- No program runs before that. -/
theorem installed_journal (request : CallRequest) :
    ∃ events, (installed request h).journal = events ++ h.journal ∧
      ∀ event ∈ events, event.isRunning = false := by
  have calm' : (coded request h).surroundings = {} :=
    (Host.beforeAccess_surroundings ..).trans calm
  have second : (written request h).journal =
      .access .put (StoreKey.description request.contract) :: (coded request h).journal :=
    congrArg Host.journal (Host.beforeAccess_calm .put _ calm')
  have first : (coded request h).journal = .access .put (StoreKey.code request.contract) ::
      .started request.contract :: h.journal :=
    congrArg Host.journal (Host.beforeAccess_calm .put _ (h := deploying request.contract h) calm)
  have begun : (installed request h).journal =
      .began (initContext request h).id
        ((written request h).store.peek? (StoreKey.description request.contract)) ::
        (written request h).journal := rfl
  rw [begun, second, first]
  exact ⟨[_, _, _, _], rfl, by simp [Event.isRunning]⟩

end Calm

@[simp]
theorem installed_cache (request : CallRequest) (h : Host Module) :
    (installed request h).cache = h.cache := written_cache request h

/-! ## Code that is cached already -/

/-- Code that is cached is refused, and dropped. -/
theorem runFrom_deploy_stale (calm : h.surroundings = {})
    (parsed : CallRequest.parse fields true = .ok request)
    (cached : h.cache.contains request.contract = true) :
    runFrom ((Manager.scripted config).deploy fields) h =
      let stale := .error (.staleCode request.contract)
      (stale, Manager.finish request.contract stale
        (Manager.endCall (initContext request h).id stale (installed request h))) := by
  obtain ⟨code, found⟩ := Option.isSome_iff_exists.1 cached
  have found' : (installed request h).cache.find? (initContext request h).setup.contract =
      some code := (installed_cache request h) ▸ found
  rw [runFrom_deploy_calm config calm parsed, run_stale config _ found']
  rfl

/-- A deployment reports stale code just if code of its contract was cached. -/
theorem deploy_stale_iff (calm : h.surroundings = {})
    (parsed : CallRequest.parse fields true = .ok request) :
    (runFrom ((Manager.scripted config).deploy fields) h).1 =
        .error (.staleCode request.contract) ↔ h.cache.contains request.contract = true := by
  constructor
  · intro stale
    by_contra missing
    have missing' : (installed request h).cache.find? (initContext request h).setup.contract =
        none := (installed_cache request h) ▸ Option.not_isSome_iff_eq_none.1 missing
    rw [runFrom_deploy_calm config calm parsed] at stale
    have kind := unstale_run config (unstale_nestedCall config _) (fun _ => missing') _ stale
    exact absurd kind nofun
  · intro cached
    rw [runFrom_deploy_stale config calm parsed cached]

theorem deploy_purges {table : MemoryStore} (stored : h.store = .memory table)
    (calm : h.surroundings = {}) (parsed : CallRequest.parse fields true = .ok request)
    (cached : h.cache.contains request.contract = true) :
    h.Purged request (runFrom ((Manager.scripted config).deploy fields) h).2 := by
  rw [runFrom_deploy_stale config calm parsed cached]
  let stale : Except HostError Outcome := .error (.staleCode request.contract)
  let ended := Manager.endCall (initContext request h).id stale (installed request h)
  have left : (Manager.finish request.contract stale ended).store = (written request h).store :=
    Manager.finish_store ..
  have lasting : (written request h).store.forgets = false := by
    rw [written_forgets, stored]
    rfl
  have valid := CallRequest.validate_of_parse parsed
  obtain ⟨code, description⟩ := written_shows request h
  refine ⟨?_, fun contract key => ?_, ?_, ?_, ?_⟩
  · obtain ⟨released, clears, told⟩ := Manager.finish_told request.contract stale ended
    obtain ⟨begun, journal, idle⟩ := installed_journal calm request
    refine ⟨released ++ .finished request.contract stale ::
      .ended (initContext request h).id stale :: begun, ?_, ?_⟩
    · rw [told]
      show (released ++ [_]) ++ _ :: (installed request h).journal = _
      rw [journal, List.append_assoc, List.append_assoc]
      rfl
    · refine List.forall_mem_append.2 ⟨fun event mem => ?_, ?_⟩
      · rw [clears event mem]
        rfl
      · exact List.forall_mem_cons.2 ⟨rfl, List.forall_mem_cons.2 ⟨rfl, idle⟩⟩
  · rw [left]
    refine ((written_keeps request h).shows _ ⟨?_, ?_⟩).peek? lasting
    · exact (StoreKey.code_ne_object valid contract key).symm
    · exact (StoreKey.description_ne_object valid contract key).symm
  · rw [left]
    exact code.peek? lasting
  · rw [left]
    exact description.peek? lasting
  · rw [CodeCache.contains, Manager.finish_find?, if_pos ⟨rfl, rfl⟩]
    rfl

end Call

/-! ## Code that is not cached -/

namespace Host

variable {name : String} {base h g : Host Module}

theorem Unmarked.grows (unmarked : h.Unmarked g) : h.journal <:+ g.journal := by
  obtain ⟨events, journal, _⟩ := unmarked.journal
  exact ⟨events, journal.symm⟩

theorem Started.grow (started : Started name base h) (grows : h.journal <:+ g.journal) :
    Started name base g := by
  obtain ⟨events, journal, mem⟩ := started
  obtain ⟨later, grown⟩ := grows
  refine ⟨later ++ events, ?_, List.mem_append_right _ mem⟩
  rw [← grown, journal, List.append_assoc]

namespace Prompted

theorem refl (missing : h.cache.contains name = false) : Prompted name h h where
  grows := List.suffix_rfl
  started cached := absurd (missing.symm.trans cached) nofun

/-- Code is cached by calls only. -/
theorem grow (prompted : Prompted name base h) (grows : h.journal <:+ g.journal)
    (fewer : g.cache.contains name = true → h.cache.contains name = true) :
    Prompted name base g where
  grows := prompted.grows.trans grows
  started cached := (prompted.started (fewer cached)).grow grows

theorem unmarked (prompted : Prompted name base h) (unmarked : h.Unmarked g) :
    Prompted name base g :=
  prompted.grow unmarked.grows fun cached =>
    (contains_congr unmarked.found name).symm.trans cached

/-- A call is started. -/
theorem announces (prompted : Prompted name base h) {contract : String}
    (journal : g.journal = .started contract :: h.journal) (cache : g.cache = h.cache) :
    Announced name base contract g := by
  have grows : h.journal <:+ g.journal := journal ▸ List.suffix_cons ..
  refine ⟨prompted.grow grows fun cached => cache ▸ cached, ?_⟩
  rintro rfl
  obtain ⟨events, same⟩ := prompted.grows
  exact ⟨.started contract :: events, by rw [journal, ← same]; rfl, List.mem_cons_self⟩

theorem finish (prompted : Prompted name base h) (contract : String)
    (result : Except HostError Outcome) :
    Prompted name base (Manager.finish contract result h) :=
  prompted.grow (Call.suffix_finish contract result h) fun cached =>
    ((contains_finish contract result h name).1 cached).1

end Prompted

theorem Announced.unmarked {contract : String} (announced : Announced name base contract h)
    (unmarked : h.Unmarked g) : Announced name base contract g where
  prompted := announced.prompted.unmarked unmarked
  started own := (announced.started own).grow unmarked.grows

end Host

namespace Call

open Host (Prompted Announced)

variable {name : String} {base h : Host Module}

/-- A call caches code of its own contract only. -/
theorem prompted_kept {ctx : Context} (announced : Announced name base ctx.setup.contract h)
    (bytecode : Bytes) (module : Module) : Prompted name base (kept ctx bytecode module h) := by
  have fetched : h.Unmarked (fetched ctx.setup.contract h) := .of_quiet (fetched_quiet _ h)
  have grows : h.journal <:+ (kept ctx bytecode module h).journal :=
    fetched.grows.trans (List.suffix_cons ..)
  refine ⟨announced.prompted.grows.trans grows, fun cached => ?_⟩
  have kept : (kept ctx bytecode module h).cache.find? name =
      if name = ctx.setup.contract then some (newCode ctx.setup.contract bytecode module h)
      else h.cache.find? name := CodeCache.find?_insert ..
  by_cases own : name = ctx.setup.contract
  · exact (announced.started own.symm).grow grows
  · rw [CodeCache.contains, kept, if_neg own] at cached
    exact (announced.prompted.started cached).grow grows

theorem prompted_abides (name : String) (base : Host Module) : Abides (Prompted name base) where
  quiet quiet holds := holds.unmarked (.of_quiet quiet)
  ready ctx holds := holds.unmarked (unmarked_ready ctx _)
  conclude _ _ _ _ _ holds := holds.unmarked (unmarked_conclude ..)
  endCall _ _ holds := holds.unmarked (unmarked_endCall ..)
  finish contract result holds := holds.finish contract result

theorem prompted_opens (config : Config) (load : CodeLoad) {ctx : Context}
    (announced : Announced name base ctx.setup.contract h) :
    (always (Prompted name base)).Opens config (fun _ => Prompted name base) load ctx h :=
  (prompted_abides name base).opens config announced.prompted
    (fun _ _ => announced.prompted.grow (List.suffix_cons ..) id)
    fun bytecode module _ => prompted_kept announced bytecode module

theorem prompted_invariant (config : Config) (name : String) (base : Host Module) :
    Invariant config (always (Prompted name base)) :=
  (prompted_abides name base).invariant config fun {_ setup} _ holds =>
    have announced : Announced name base setup.contract (invoked setup.contract _) :=
      holds.announces rfl rfl
    prompted_opens config .reuse (announced.unmarked (unmarked_beginCall setup _))

theorem prompted_persists (config : Config) (name : String) (base : Host Module) :
    Persists config (Prompted name base) (Announced name base) where
  deployed _ holds := holds.announces rfl rfl
  invoked _ holds := holds.announces rfl rfl
  quiet quiet announced := announced.unmarked (.of_quiet quiet)
  stored stored announced := announced.unmarked (.of_stored stored)
  holds announced := announced.prompted
  ran load _ announced :=
    (prompted_invariant config name base).run config.maxCallDepth.toNat
      (prompted_opens config load (announced.unmarked (unmarked_beginCall ..)))
  finish contract result holds := holds.finish contract result
  abort _ _ holds := holds.unmarked ⟨fun _ => rfl, [], rfl, by simp⟩

/-! ## Code that is compiled anew -/

section Anew

variable (config : Config) {request : CallRequest} {table : MemoryStore}
  (stored : h.store = .memory table) (calm : h.surroundings = {})
  (missing : h.cache.contains request.contract = false) (filled : request.code ≠ [])
  {module : Module} (compiled : Module.compile .standard request.code = .ok module)

include stored calm missing filled compiled

/-- A deployment that finds no code compiles its own. -/
theorem obtain_installed :
    obtain .compile (initContext request h) (installed request h) =
      (.ok (newCode request.contract request.code module (installed request h)),
        kept (initContext request h) request.code module (installed request h)) := by
  have read : ((installed request h).store.get? (StoreKey.code request.contract)).1 =
      some request.code := by
    have lasting : (written request h).store.forgets = false := by
      rw [written_forgets, stored]
      rfl
    rw [Store.get?_fst]
    exact (written_shows request h).1.peek? lasting
  have built : (installed request h).store.build request.contract = .ok (request.code, module) := by
    unfold Store.build
    rw [read]
    simp only [List.isEmpty_eq_false_iff.2 filled, Bool.false_eq_true, ↓reduceIte, compiled]
  have found : (installed request h).cache.find? request.contract = none := by
    rw [installed_cache]
    exact Option.not_isSome_iff_eq_none.1 (Bool.not_eq_true _ ▸ missing)
  have fault : (installed request h).surroundings.fault? (installed request h).accesses .get
      (StoreKey.code request.contract) = none := by
    rw [show (installed request h).surroundings = _ from written_surroundings request h, calm]
  have contract : (initContext request h).setup.contract = request.contract := rfl
  unfold obtain
  simp only [contract, found, fault, built]

/-- The instance of a deployment runs what the deployment brings. -/
theorem deploy_installs (books : h.Books) {fields : RequestFields}
    (parsed : CallRequest.parse fields true = .ok request) :
    ∃ inst g,
      runFrom ((Manager.scripted config).backend.createInstance .compile (initContext request h))
        (installed request h) = (.ok inst, g) ∧
      h.Installed request inst g ∧
      runFrom ((Manager.scripted config).deploy fields) h =
        let id := (initContext request h).id
        let ready := g.addRunning
          { context := id, contract := request.contract, signal := inst.signal }
        let p := enter (outermost config) inst ready
        let q := conclude config (initContext request h) inst.code p.1.1 p.1.2 p.2
        (q.1, Manager.finish request.contract q.1 (Manager.endCall id q.1 q.2)) := by
  have obtained := obtain_installed stored calm missing filled compiled
  let code := newCode request.contract request.code module (installed request h)
  let g := kept (initContext request h) request.code module (installed request h)
  refine ⟨instanceOn config (initContext request h) code g.signals.next,
    prepare (initContext request h) g, ?_, ?_, ?_⟩
  · rw [runFrom_createInstance, obtained]
  · refine { contract := rfl, method := rfl, depth := rfl, runs := rfl, built := compiled
             digest := rfl, fresh := fun serial held => ?_, counted := ?_ }
    · show serial < (installed request h).cache.compiled
      rw [installed_cache]
      rcases CodeCache.holds_iff.1 held with ⟨cached, mem, rfl⟩ | leased
      · exact books.formed.cached cached mem
      · exact books.formed.leased serial leased
    · have read := (fetched_quiet request.contract (installed request h)).engineUse
      exact congrArg (·.modulesCompiled + 1) (read.trans (written_engineUse request h))
  · rw [runFrom_deploy_calm config calm parsed]
    unfold run
    rw [obtained]
    rfl

end Anew

end Call

/-- Deploying a contract after any session over a store in memory, in calm surroundings. It is
refused for stale code just if code of the contract was cached when it started. Then no program
ran, no data changed, the record is that of the request, and the code is gone; so the next
deployment is not refused for stale code, unless a call of the contract was started in between.
Otherwise, code that compiles is compiled from the bytecode of the request, and the call of the
initial method runs on it. -/
theorem session_redeploys (config : Config) (table : MemoryStore) (requests : List HostRequest)
    {fields : RequestFields} {request : CallRequest}
    (parsed : CallRequest.parse fields true = .ok request) :
    let manager := Manager.scripted config
    let h := manager.session (.fresh (.memory table) {}) requests
    let p := runFrom (manager.deploy fields) h
    (p.1 = .error (.staleCode request.contract) ↔ h.cache.contains request.contract = true) ∧
      (h.cache.contains request.contract = true → h.Purged request p.2 ∧
        ∀ later events, (manager.session p.2 later).journal = events ++ p.2.journal →
          .started request.contract ∉ events →
          ∀ fields' request', CallRequest.parse fields' true = .ok request' →
            request'.contract = request.contract →
            (runFrom (manager.deploy fields') (manager.session p.2 later)).1 ≠
              .error (.staleCode request.contract)) ∧
      (h.cache.contains request.contract = false → request.code ≠ [] →
        (∃ module, Module.compile .standard request.code = .ok module) →
        ∃ inst g,
          runFrom (manager.backend.createInstance .compile (Call.initContext request h))
            (Call.installed request h) = (.ok inst, g) ∧
          h.Installed request inst g ∧
          p =
            let id := (Call.initContext request h).id
            let ready := g.addRunning
              { context := id, contract := request.contract, signal := inst.signal }
            let entered := Call.enter (Call.outermost config) inst ready
            let q := Call.conclude config (Call.initContext request h) inst.code entered.1.1
              entered.1.2 entered.2
            (q.1, Manager.finish request.contract q.1 (Manager.endCall id q.1 q.2))) := by
  intro manager h p
  obtain ⟨table', stored⟩ := (session_faithful config table {} requests).inMemory
  obtain ⟨books, inHand⟩ := session_books config (.memory table) {} requests
  have calm : h.surroundings = {} := inHand.surroundings
  refine ⟨Call.deploy_stale_iff config calm parsed, fun cached => ⟨?_, ?_⟩, ?_⟩
  · exact Call.deploy_purges config stored calm parsed cached
  · intro later events journal unstarted fields' request' parsed' same
    have purged := Call.deploy_purges config stored calm parsed cached
    have prompted : Host.Prompted request.contract p.2 (manager.session p.2 later) :=
      (Call.prompted_persists config request.contract p.2).session (.refl purged.dropped) later
    have calm' : (manager.session p.2 later).surroundings = {} := by
      have whole := session_books config (.memory table) {} (requests ++ .deploy fields :: later)
      rw [Manager.session, List.foldl_append] at whole
      exact whole.2.surroundings
    rw [← same]
    refine mt (Call.deploy_stale_iff config calm' parsed').1 fun cached' => ?_
    obtain ⟨events', journal', started⟩ := prompted.started (same ▸ cached')
    obtain rfl := List.append_cancel_right (journal.symm.trans journal')
    exact unstarted started
  · rintro missing filled ⟨module, compiled⟩
    exact Call.deploy_installs config stored calm missing filled compiled books parsed

/-- The stall is refused for stale code when it is deployed again, and is not the next time. -/
theorem stall_refused_once :
    let manager := Manager.scripted .standard
    let h := manager.session (.fresh (.memory .empty) {}) [.deploy stallFields]
    let p := runFrom (manager.deploy stallFields) h
    p.1 = .error (.staleCode "stall") ∧ h.Purged stallRequest p.2 ∧
      (runFrom (manager.deploy stallFields) p.2).1 ≠ .error (.staleCode "stall") := by
  intro manager h p
  have cached : h.cache.contains stallRequest.contract = true := by decide +kernel
  obtain ⟨stale, again, -⟩ := session_redeploys .standard .empty [.deploy stallFields] parse_stall
  obtain ⟨purged, next⟩ := again cached
  have unserved : manager.session p.2 [] = p.2 := List.foldl_nil
  refine ⟨stale.2 cached, purged, unserved ▸ ?_⟩
  exact next [] [] (by rw [unserved, List.nil_append]) List.not_mem_nil
    stallFields stallRequest parse_stall rfl

end ContractHost
