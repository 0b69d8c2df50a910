/-
# The record of a contract

The store has the code of a contract under one key and its language under another. Only a
deployment writes them, one after the other, and nothing that the deployment does later takes
them back: not a program that does not compile, not a call that fails, and no access that fails.
A deployment whose first write fails leaves the record as it was. One whose second write fails
leaves new code with the old language.
-/

import ContractHost.Proofs.Call.Balance
import ContractHost.Proofs.Store.Keys

namespace ContractHost

open Script (Machine Module)

/-- True of the keys of code and of descriptions. -/
def StoreKey.IsRecord (key : Bytes) : Prop :=
  ∃ contract, key = code contract ∨ key = description contract

namespace Host

/-- All contexts are those of contracts with valid names. -/
def Named (h : Host Module) : Prop :=
  ∀ setup ∈ h.contexts.setups, Naming.validate setup.contract = .ok ()

/-- Since an earlier moment no record was written. -/
structure RecordKept (base h : Host Module) : Prop where
  named : h.Named
  store : base.store.Keeps StoreKey.IsRecord h.store

variable {base h g : Host Module}

/-- A record is no data of a contract with a valid name. -/
theorem Named.not_ownsKey (named : h.Named) {key : Bytes} (record : StoreKey.IsRecord key) :
    ¬ h.OwnsKey key := by
  rintro ⟨setup, mem, rest, rfl⟩
  obtain ⟨contract, same | same⟩ := record
  · exact StoreKey.object_ne_code (named setup mem) rest contract same
  · exact StoreKey.object_ne_description (named setup mem) rest contract same

theorem Named.quiet (named : h.Named) (quiet : h.Quiet g) : g.Named := by
  unfold Named
  rw [quiet.setups]
  exact named

theorem Named.stored (named : h.Named) {key value : Bytes} (stored : h.Stored key value g) :
    g.Named := by
  obtain ⟨f, quiet, rfl⟩ := stored
  exact Named.quiet (g := f) named quiet

namespace RecordKept

theorem refl (named : h.Named) : RecordKept h h := ⟨named, .refl h.store⟩

/-- Nothing else of a host matters. -/
theorem congr (holds : RecordKept base h) (setups : g.contexts.setups = h.contexts.setups)
    (store : g.store = h.store) : RecordKept base g where
  named := by
    unfold Named
    rw [setups]
    exact holds.named
  store := store ▸ holds.store

theorem quiet (holds : RecordKept base h) (quiet : h.Quiet g) : RecordKept base g where
  named := holds.named.quiet quiet
  store := holds.store.trans (quiet.store.mono fun _ => holds.named.not_ownsKey)

theorem beginCall (holds : RecordKept base h) {setup : CallSetup}
    (valid : Naming.validate setup.contract = .ok ()) :
    RecordKept base (Manager.beginCall setup h) where
  named := by
    intro other mem
    have mem : other ∈ h.contexts.setups.push setup := by
      rw [← Contexts.setups_create]
      exact mem
    rcases Array.mem_push.1 mem with mem | rfl
    · exact holds.named other mem
    · exact valid
  store := holds.store

end RecordKept

end Host

namespace Call

open Host (RecordKept)

variable {base h : Host Module}

theorem recordKept_abides (base : Host Module) : Abides (RecordKept base) where
  quiet quiet holds := holds.quiet quiet
  ready _ holds := holds.congr rfl rfl
  conclude config ctx code result m holds := by
    obtain ⟨contexts, concluded, _, setups⟩ := conclude_eq config ctx code result m _
    rw [concluded]
    exact holds.congr setups (part_store ctx.id result m code _)
  endCall _ _ holds := holds.congr rfl rfl
  finish contract result holds :=
    holds.congr (congrArg _ (Manager.finish_contexts ..)) (Manager.finish_store ..)

theorem recordKept_opens (config : Config) (load : CodeLoad) {ctx : Context}
    (holds : RecordKept base h) :
    (always (RecordKept base)).Opens config (fun _ => RecordKept base) load ctx h :=
  (recordKept_abides base).opens config holds (fun _ _ => holds.congr rfl rfl)
    fun _ _ _ => (holds.quiet (fetched_quiet ctx.setup.contract h)).congr rfl rfl

/-- No call writes a record, and neither do the calls inside it. -/
theorem recordKept_run (config : Config) (load : CodeLoad) {setup : CallSetup}
    (valid : Naming.validate setup.contract = .ok ()) (holds : RecordKept base h) :
    RecordKept base (run config (outermost config) load (created setup h)
      (Manager.beginCall setup h)).2 := by
  have invariant := (recordKept_abides base).invariant config fun {g setup} valid holds =>
    recordKept_opens config .reuse
      (RecordKept.beginCall (h := invoked setup.contract g) (holds.congr rfl rfl) valid)
  exact invariant.run config.maxCallDepth.toNat
    (recordKept_opens config load (holds.beginCall valid))

/-! ## Sessions -/

/-- A host whose contexts are those of contracts with valid names, over a store that forgets keys
or that does not. -/
structure Over (forgets : Bool) (h : Host Module) : Prop where
  named : h.Named
  forgets : h.store.forgets = forgets

namespace Over

variable {forgets : Bool} {h g : Host Module}

theorem quiet (holds : Over forgets h) (quiet : h.Quiet g) : Over forgets g :=
  ⟨holds.named.quiet quiet, quiet.store.forgets.trans holds.forgets⟩

theorem stored (holds : Over forgets h) {key value : Bytes} (stored : h.Stored key value g) :
    Over forgets g where
  named := holds.named.stored stored
  forgets := by
    obtain ⟨f, _, rfl⟩ := stored
    exact (h.store.forgets_put key value).trans holds.forgets

theorem finish (holds : Over forgets h) (contract : String) (result : Except HostError Outcome) :
    Over forgets (Manager.finish contract result h) where
  named := by
    unfold Host.Named
    rw [Manager.finish_contexts]
    exact holds.named
  forgets := by
    rw [Manager.finish_store]
    exact holds.forgets

theorem run (holds : Over forgets h) (config : Config) (load : CodeLoad) {setup : CallSetup}
    (valid : Naming.validate setup.contract = .ok ()) :
    Over forgets (Call.run config (outermost config) load (created setup h)
      (Manager.beginCall setup h)).2 := by
  have kept := recordKept_run config load valid (RecordKept.refl holds.named)
  exact ⟨kept.named, kept.store.forgets.trans holds.forgets⟩

theorem persists (config : Config) (forgets : Bool) :
    Persists config (Over forgets) fun _ => Over forgets where
  deployed _ holds := ⟨holds.named, holds.forgets⟩
  invoked _ holds := ⟨holds.named, holds.forgets⟩
  quiet quiet holds := holds.quiet quiet
  stored stored holds := holds.stored stored
  ran load valid holds := holds.run config load valid
  holds := id
  finish contract result holds := holds.finish contract result
  abort _ _ holds := ⟨holds.named, holds.forgets⟩

end Over

/-! ## Deployments -/

/-- The host of a deployment that has written the code. -/
def coded (request : CallRequest) (h : Host Module) : Host Module :=
  (deploying request.contract h).wrote (StoreKey.code request.contract) request.code

/-- The host of a deployment that has written code and language. -/
def written (request : CallRequest) (h : Host Module) : Host Module :=
  (coded request h).wrote (StoreKey.description request.contract) (Utf8.encode request.language)

section Written

variable (request : CallRequest) (h : Host Module)

@[simp]
theorem written_cache : (written request h).cache = h.cache := by
  simp [written, coded, deploying, Host.note]

@[simp]
theorem written_engineUse : (written request h).engineUse = h.engineUse := by
  simp [written, coded, deploying, Host.note]

@[simp]
theorem written_surroundings : (written request h).surroundings = h.surroundings := by
  simp [written, coded, deploying, Host.note]

end Written

theorem written_named (request : CallRequest) {h : Host Module} (named : h.Named) :
    (written request h).Named := by
  have counted : (deploying request.contract h).Named := named
  have coded : (coded request h).Named := counted.stored ⟨_, .beforeAccess .put _ _, rfl⟩
  exact coded.stored ⟨_, .beforeAccess .put _ _, rfl⟩

/-- The language is written beside the code. -/
theorem written_shows (request : CallRequest) (h : Host Module) :
    (written request h).store.Shows (StoreKey.code request.contract) (some request.code) ∧
      (written request h).store.Shows (StoreKey.description request.contract)
        (some (Utf8.encode request.language)) := by
  have apart := (StoreKey.description_ne_code request.contract request.contract).symm
  have code : (coded request h).store.peek? (StoreKey.code request.contract) =
      some request.code := h.store.peek?_put_self _ _
  have shows := (coded request h).store.shows_put_of_ne apart (Utf8.encode request.language)
  rw [code] at shows
  exact ⟨shows, .inl ((coded request h).store.peek?_put_self _ _)⟩

/-- Apart from its record a deployment writes nothing before its call. -/
theorem written_keeps (request : CallRequest) (h : Host Module) :
    h.store.Keeps (fun key => key ≠ StoreKey.code request.contract ∧
      key ≠ StoreKey.description request.contract) (written request h).store :=
  (Store.Keeps.put h.store (fun apart => apart.1 rfl) _).trans
    (.put _ (fun apart => apart.2 rfl) _)

theorem written_forgets (request : CallRequest) (h : Host Module) :
    (written request h).store.forgets = h.store.forgets :=
  (written_keeps request h).forgets

section Deploy

variable (config : Config) {h : Host Module} {fields : RequestFields} {request : CallRequest}
  (parsed : CallRequest.parse fields true = .ok request)

include parsed

/-- How an accepted deployment goes is decided by its two writes. -/
theorem runFrom_deploy_writes :
    runFrom ((Manager.scripted config).deploy fields) h =
      let p : Except HostError Outcome × Host Module :=
        match h.surroundings.fault? h.accesses .put (StoreKey.code request.contract),
          h.surroundings.fault? (h.accesses + 1) .put (StoreKey.description request.contract) with
        | some fault, _ =>
          (.error (.storage fault),
            (deploying request.contract h).beforeAccess .put (StoreKey.code request.contract))
        | none, some fault =>
          (.error (.storage fault),
            (coded request h).beforeAccess .put (StoreKey.description request.contract))
        | none, none => run config (outermost config) .compile
            (created request.initSetup (written request h))
            (Manager.beginCall request.initSetup (written request h))
      (p.1, Manager.finish request.contract p.1 p.2) := by
  have around : (coded request h).surroundings = h.surroundings := Host.wrote_surroundings ..
  have counted : (coded request h).accesses = h.accesses + 1 := Host.wrote_accesses ..
  have first : (deploying request.contract h).surroundings.fault?
      (deploying request.contract h).accesses = h.surroundings.fault? h.accesses := rfl
  have coded_eq : (deploying request.contract h).wrote (StoreKey.code request.contract)
      request.code = coded request h := rfl
  rw [runFrom_deploy, parsed]
  dsimp only
  rw [runFrom_deployAccepted, Host.runFrom_putKey, first, coded_eq]
  cases h.surroundings.fault? h.accesses .put (StoreKey.code request.contract) with
  | some fault => rfl
  | none =>
      dsimp only
      rw [Host.runFrom_putKey, around, counted]
      cases h.surroundings.fault? (h.accesses + 1) .put (StoreKey.description request.contract) with
      | some fault => rfl
      | none => rfl

/-- What a deployment makes of the record of its contract, by what becomes of its two writes. -/
theorem deploy_record (named : h.Named) :
    let p := runFrom ((Manager.scripted config).deploy fields) h
    let code := StoreKey.code request.contract
    let description := StoreKey.description request.contract
    match h.surroundings.fault? h.accesses .put code,
      h.surroundings.fault? (h.accesses + 1) .put description with
    | some fault, _ => p.1 = .error (.storage fault) ∧ p.2.store = h.store
    | none, some fault =>
      p.1 = .error (.storage fault) ∧ p.2.cache.contains request.contract = false ∧
        p.2.store.peek? code = some request.code ∧
        p.2.store.Shows description (h.store.peek? description)
    | none, none =>
      p.2.store.Shows code (some request.code) ∧
        p.2.store.Shows description (some (Utf8.encode request.language)) := by
  intro p code description
  have ended : p = _ := runFrom_deploy_writes config parsed
  cases first : h.surroundings.fault? h.accesses .put code with
  | some fault =>
      rw [first] at ended
      refine ⟨congrArg Prod.fst ended, ?_⟩
      rw [ended, Manager.finish_store]
      exact Host.beforeAccess_store ..
  | none =>
      cases second : h.surroundings.fault? (h.accesses + 1) .put description with
      | some fault =>
          rw [first, second] at ended
          have store : p.2.store = h.store.put code request.code := by
            rw [ended, Manager.finish_store]
            exact Host.beforeAccess_store ..
          refine ⟨congrArg Prod.fst ended, ?_, ?_, ?_⟩
          · rw [ended, CodeCache.contains, Manager.finish_find?, if_pos ⟨rfl, rfl⟩]
            rfl
          · rw [store]
            exact h.store.peek?_put_self code request.code
          · rw [store]
            exact h.store.shows_put_of_ne (StoreKey.description_ne_code _ _) request.code
      | none =>
          rw [first, second] at ended
          have valid : Naming.validate request.initSetup.contract = .ok () :=
            CallRequest.validate_of_parse parsed
          have kept := recordKept_run config .compile valid
            (RecordKept.refl (written_named request named))
          obtain ⟨coded, described⟩ := written_shows request h
          rw [ended]
          dsimp only
          rw [Manager.finish_store]
          exact ⟨kept.store.lasts ⟨_, .inl rfl⟩ coded, kept.store.lasts ⟨_, .inr rfl⟩ described⟩

end Deploy

end Call

/-- What a deployment makes of the record of its contract, after any session over any store and
whatever happens around it. If the code cannot be written, nothing is. If the code is written and
the language is not, the new code stands with the language that was there before, or with none,
and the contract has no cached code. If both are written, they stay, whatever fails later. Only a
store of bounded size may have forgotten one of the two. -/
theorem session_deploy_record (config : Config) (store : Store) (surroundings : Surroundings)
    (requests : List HostRequest) {fields : RequestFields} {request : CallRequest}
    (parsed : CallRequest.parse fields true = .ok request) :
    let manager := Manager.scripted config
    let h := manager.session (.fresh store surroundings) requests
    let p := runFrom (manager.deploy fields) h
    let code := StoreKey.code request.contract
    let description := StoreKey.description request.contract
    p.2.store.forgets = store.forgets ∧
      match surroundings.fault? h.accesses .put code,
        surroundings.fault? (h.accesses + 1) .put description with
      | some fault, _ => p.1 = .error (.storage fault) ∧ p.2.store = h.store
      | none, some fault =>
        p.1 = .error (.storage fault) ∧ p.2.cache.contains request.contract = false ∧
          p.2.store.peek? code = some request.code ∧
          p.2.store.Shows description (h.store.peek? description)
      | none, none =>
        p.2.store.Shows code (some request.code) ∧
          p.2.store.Shows description (some (Utf8.encode request.language)) := by
  intro manager h p code description
  have start : Call.Over store.forgets (.fresh store surroundings) :=
    ⟨by simp [Host.Named, Host.fresh, Contexts.setups], rfl⟩
  have persists := Call.Over.persists config store.forgets
  have holds : Call.Over store.forgets h := persists.session start requests
  have around : h.surroundings = surroundings :=
    (session_books config store surroundings requests).2.surroundings
  refine ⟨(persists.serve holds (.deploy fields)).forgets, ?_⟩
  have record := Call.deploy_record config parsed holds.named
  rw [around] at record
  exact record

/-- A store with room for one key forgets the code for the language. -/
example :
    let p := runFrom ((Manager.scripted .standard).deploy stallFields)
      (.fresh (.bounded (.ofCapacity 1)) {})
    p.2.store.peek? (StoreKey.code "stall") = none := by decide +kernel

/-- Surroundings in which no description can be written. -/
def fullDisk : Surroundings :=
  Surroundings.withRules {}
    [{ op := .put, start := StoreKey.descriptionMark, fault := .io "disk full" }]

/-- A stall whose language cannot be written is code without a language. -/
theorem stall_without_language :
    let h := Host.fresh (.memory .empty) fullDisk
    let p := runFrom ((Manager.scripted .standard).deploy stallFields) h
    p.1 = .error (.storage (.io "disk full")) ∧
      p.2.store.peek? (StoreKey.code stallRequest.contract) = some stallRequest.code ∧
      p.2.store.peek? (StoreKey.description stallRequest.contract) = none := by
  have coded : fullDisk.fault? 0 .put (StoreKey.code stallRequest.contract) = none := by
    decide +kernel
  have described : fullDisk.fault? (0 + 1) .put (StoreKey.description stallRequest.contract) =
      some (.io "disk full") := by decide +kernel
  have unserved : (Manager.scripted .standard).session (.fresh (.memory .empty) fullDisk) [] =
      .fresh (.memory .empty) fullDisk := List.foldl_nil
  have record := (session_deploy_record .standard (.memory .empty) fullDisk [] parse_stall).2
  have untouched : (Host.fresh (.memory .empty) fullDisk).accesses = 0 := rfl
  rw [unserved, untouched, coded, described] at record
  obtain ⟨failed, _, code, description | ⟨_, description⟩⟩ := record
  · exact ⟨failed, code, description⟩
  · exact ⟨failed, code, description⟩

/-- So the record that a deployment leaves need not be that of one deployment. -/
theorem half_written_record_is_mixed :
    ¬ ∀ (config : Config) (store : Store) (surroundings : Surroundings)
      (requests : List HostRequest) (fields : RequestFields) (request : CallRequest),
      CallRequest.parse fields true = .ok request →
      let manager := Manager.scripted config
      let h := manager.session (.fresh store surroundings) requests
      let record (g : Host Module) := (g.store.peek? (StoreKey.code request.contract),
        g.store.peek? (StoreKey.description request.contract))
      let left := record (runFrom (manager.deploy fields) h).2
      left = (some request.code, some (Utf8.encode request.language)) ∨ left = record h := by
  intro whole
  have mixed :
      let p := runFrom ((Manager.scripted .standard).deploy stallFields)
        (.fresh (.memory .empty) fullDisk)
      (p.2.store.peek? (StoreKey.code "stall")).isSome = true ∧
        p.2.store.peek? (StoreKey.description "stall") = none := by decide +kernel
  obtain ⟨coded, undescribed⟩ := mixed
  rcases whole .standard (.memory .empty) fullDisk [] stallFields stallRequest parse_stall
    with new | old
  · exact absurd (undescribed.symm.trans (congrArg Prod.snd new)) nofun
  · have missing : true = false := coded.symm.trans (congrArg (fun r => r.1.isSome) old)
    cases missing

end ContractHost
