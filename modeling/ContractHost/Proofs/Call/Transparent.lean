/-
# The code cache is transparent

Whether a call finds its code in the cache or compiles it makes no difference to what it
does. Two hosts that agree in everything but their code caches, each of which agrees with
the store, run every invocation to the same result and agree again afterwards. It takes a
store in memory and calm surroundings: an access to fetch bytecode could fail, or come
with an abort.

What is compared is a host from which everything that has to do with code was erased.
-/

import ContractHost.Proofs.Call.Balance
import ContractHost.Proofs.Call.Faithful
import ContractHost.Proofs.Call.Lockstep

namespace ContractHost

open Script (Machine Module)

namespace Host

variable {M : Type}

/-- A host without all that has to do with its code cache: the cached code and the leases,
how many modules were compiled and released, how often the store was accessed, and the
journal, which tells of these. -/
def withoutCode (h : Host M) : Host M :=
  { h with
    cache := {}
    engineUse.modulesCompiled := 0
    engineUse.modulesReleased := 0
    accesses := 0
    journal := [] }

/-- A change that treats what remains of a host alike keeps two hosts alike. -/
theorem withoutCode_congr {f : Host M → Host M}
    (acts : ∀ h, (f h).withoutCode = (f h.withoutCode).withoutCode) {h k : Host M}
    (same : h.withoutCode = k.withoutCode) : (f h).withoutCode = (f k).withoutCode := by
  rw [acts h, acts k, same]

/-- What a change of the cache gives up cannot be told from what remains. -/
@[simp]
theorem withoutCode_settle (h : Host M) (change : Option (CompiledCode M) × CodeCache M) :
    (h.settle change).withoutCode = h.withoutCode := by
  unfold settle
  cases change.1 <;> rfl

@[simp]
theorem withoutCode_evict (h : Host M) (contract : String) :
    (h.evict contract).withoutCode = h.withoutCode :=
  h.withoutCode_settle _

/-- Drops the modules cached for some contracts. -/
def evictAll (contracts : List String) (h : Host M) : Host M :=
  contracts.foldl (fun g contract => g.evict contract) h

theorem withoutCode_finish (h : Host M) (contract : String)
    (result : Except HostError Outcome) :
    (Manager.finish contract result h).withoutCode =
      (Manager.counted contract result h).withoutCode :=
  Manager.finish_induction
    (P := fun g => g.withoutCode = (Manager.counted contract result h).withoutCode)
    rfl (withoutCode_evict _ contract)

/-- In calm surroundings nothing happens before an access. -/
theorem beforeAccess_calm (op : StoreOp) (key : Bytes) {h : Host M} (calm : h.surroundings = {}) :
    h.beforeAccess op key =
      { h with accesses := h.accesses + 1, journal := .access op key :: h.journal } := by
  have arriving : h.surroundings.aborts h.accesses op key = [] := by rw [calm]
  unfold beforeAccess
  rw [arriving]
  rfl

/-- In calm surroundings an access uses the store, and nothing else happens. -/
theorem runFrom_access_calm {α : Type} (op : StoreOp) (key : Bytes) (use : Store → α × Store)
    {h : Host M} (calm : h.surroundings = {}) :
    runFrom (HostM.access op key use) h =
      (.ok (use h.store).1,
        { h with
          accesses := h.accesses + 1
          journal := .access op key :: h.journal
          store := (use h.store).2 }) := by
  have fault : h.surroundings.fault? h.accesses op key = none := by rw [calm]
  rw [runFrom_access, fault, beforeAccess_calm op key calm]

/-- Two hosts in calm surroundings that differ in code only, and agree with their store. -/
structure Twins (h k : Host Module) : Prop where
  same : h.withoutCode = k.withoutCode
  calm : h.surroundings = {}
  first : Faithful h
  second : Faithful k

namespace Twins

variable {h k : Host Module} (twins : Twins h k)

include twins

theorem contexts : h.contexts = k.contexts :=
  show h.withoutCode.contexts = k.withoutCode.contexts from congrArg _ twins.same

theorem signals : h.signals = k.signals :=
  show h.withoutCode.signals = k.withoutCode.signals from congrArg _ twins.same

theorem stats : h.stats = k.stats :=
  show h.withoutCode.stats = k.withoutCode.stats from congrArg _ twins.same

theorem store : h.store = k.store :=
  show h.withoutCode.store = k.withoutCode.store from congrArg _ twins.same

theorem calm_second : k.surroundings = {} := by
  rw [← twins.calm]
  show k.withoutCode.surroundings = h.withoutCode.surroundings
  rw [twins.same]

/-- Two quiet changes that act alike on what remains. -/
theorem quiet {g g' : Host Module} (first : Quiet h g) (second : Quiet k g')
    (same : g.withoutCode = g'.withoutCode) : Twins g g' where
  same
  calm := first.surroundings.trans twins.calm
  first := twins.first.quiet first
  second := twins.second.quiet second

/-- Two changes that cannot be told from what remains. -/
theorem unseen {g g' : Host Module} (first : g.withoutCode = h.withoutCode)
    (second : g'.withoutCode = k.withoutCode) (faithful : Faithful g) (faithful' : Faithful g') :
    Twins g g' where
  same := (first.trans twins.same).trans second.symm
  calm := by
    rw [← twins.calm]
    show g.withoutCode.surroundings = h.withoutCode.surroundings
    rw [first]
  first := faithful
  second := faithful'

end Twins

end Host

namespace Call

open Host (Faithful Twins withoutCode_congr)

variable {h k : Host Module}

/-- Inside two runs of a call. -/
def twins : Relation ContextId where
  context id := id
  Same _ h k := Twins h k
  Broken _ _ h k := Twins h k

theorem twins_access {id : ContextId} {α : Type} {op : StoreOp} {key : Bytes}
    {use : Store → α × Store} (same : Twins h k)
    (first : Ends (fun _ => h.Quiet) (fun _ => h.Quiet) (runFrom (HostM.access op key use) h))
    (second : Ends (fun _ => k.Quiet) (fun _ => k.Quiet) (runFrom (HostM.access op key use) k)) :
    twins.Kept id (runFrom (HostM.access op key use) h) (runFrom (HostM.access op key use) k) := by
  rw [Host.runFrom_access_calm op key use same.calm] at first ⊢
  rw [Host.runFrom_access_calm op key use same.calm_second] at second ⊢
  refine ⟨by rw [same.store], same.quiet first second ?_⟩
  rw [← same.store]
  generalize (use h.store).2 = store
  exact withoutCode_congr
    (f := fun g => { g with
      accesses := g.accesses + 1, journal := .access op key :: g.journal, store })
    (fun _ => rfl) same.same

/-! ## Beginning and end of a call -/

/-- What a call obtains is told by the store alone, and getting it leaves the rest of the
host as it was. -/
theorem obtain_calm (faithful : Faithful h) (calm : h.surroundings = {}) (ctx : Context) :
    match h.store.build ctx.setup.contract with
    | .error e => ∃ g, obtain .reuse ctx h = (.error e, g) ∧
        g.withoutCode = h.withoutCode ∧ Faithful g
    | .ok (_, module) => ∃ code g, obtain .reuse ctx h = (.ok code, g) ∧
        code.module = module ∧ g.withoutCode = h.withoutCode ∧ Faithful g := by
  have fault : h.surroundings.fault? h.accesses .get (StoreKey.code ctx.setup.contract) = none := by
    rw [calm]
  have arriving : h.surroundings.aborts h.accesses .get (StoreKey.code ctx.setup.contract) =
      [] := by
    rw [calm]
  have read : (fetched ctx.setup.contract h).withoutCode = h.withoutCode := by
    unfold fetched Host.beforeAccess
    rw [arriving, faithful.get?_store]
    rfl
  cases found : h.cache.find? ctx.setup.contract with
  | some code =>
      obtain ⟨_, bytecode, built, _⟩ := faithful.current _ code nofun found
      have obtained : obtain .reuse ctx h = (.ok code, lent ctx code h) := by
        unfold obtain
        simp only [found]
      rw [built]
      exact ⟨code, _, obtained, rfl, rfl, (faithful_lent (.refl faithful) found).1⟩
  | none =>
      cases built : h.store.build ctx.setup.contract with
      | error e =>
          have obtained : obtain .reuse ctx h = (.error e, fetched ctx.setup.contract h) := by
            unfold obtain
            simp only [found, fault, built]
          exact ⟨_, obtained, read, faithful.quiet (fetched_quiet _ h)⟩
      | ok result =>
          obtain ⟨bytecode, module⟩ := result
          have obtained : obtain .reuse ctx h =
              (.ok (newCode ctx.setup.contract bytecode module h), kept ctx bytecode module h) := by
            unfold obtain
            simp only [found, fault, built]
          have same : (kept ctx bytecode module h).withoutCode = h.withoutCode := read
          exact ⟨_, _, obtained, rfl, same, (faithful_kept (.refl faithful) built).1⟩

theorem twins_beginCall (same : Twins h k) {setup : CallSetup}
    (valid : Naming.validate setup.contract = .ok ()) :
    Twins (Manager.beginCall setup h) (Manager.beginCall setup k) where
  same := withoutCode_congr (fun _ => rfl) same.same
  calm := same.calm
  first := same.first.beginCall valid
  second := same.second.beginCall valid

theorem twins_invoked (same : Twins h k) (contract : String) :
    Twins (invoked contract h) (invoked contract k) where
  same := withoutCode_congr (f := invoked contract) (fun _ => rfl) same.same
  calm := same.calm
  first := (faithful_invoked (.refl same.first) contract).1
  second := (faithful_invoked (.refl same.second) contract).1

theorem twins_ready (same : Twins h k) (ctx : Context) : Twins (ready ctx h) (ready ctx k) where
  same := withoutCode_congr (f := ready ctx) (fun _ => rfl) same.same
  calm := same.calm
  first := (faithful_ready (.refl same.first) ctx).1
  second := (faithful_ready (.refl same.second) ctx).1

/-- The result of a call is told by what remains of the host when its program has ended. -/
theorem twins_conclude (same : Twins h k) (config : Config) (ctx : Context)
    (code code' : CompiledCode Module) (result : Except HostError Unit) (m : Machine) :
    let p := conclude config ctx code result m h
    let q := conclude config ctx code' result m k
    p.1 = q.1 ∧ Twins p.2 q.2 := by
  have parted : (part ctx.id result m code h).withoutCode =
      (part ctx.id result m code' k).withoutCode := by
    refine (Host.withoutCode_settle ..).trans (.trans ?_ (Host.withoutCode_settle ..).symm)
    exact withoutCode_congr
      (f := fun g => { g.addLines m.close.1 with
        engineUse.machinesClosed := g.engineUse.machinesClosed + 1 })
      (fun _ => rfl) same.same
  have first := (faithful_conclude (.refl same.first) config ctx code result m).1
  have second := (faithful_conclude (.refl same.second) config ctx code' result m).1
  obtain ⟨contexts, concluded, _⟩ := conclude_eq config ctx code result m h
  have calm : (conclude config ctx code result m h).2.surroundings = {} := by
    rw [concluded]
    exact (part_surroundings ..).trans same.calm
  cases result with
  | error e => exact ⟨rfl, parted, calm, first, second⟩
  | ok _ =>
      have known : (part ctx.id (.ok ()) m code h).contexts =
          (part ctx.id (.ok ()) m code' k).contexts := by
        rw [part_contexts, part_contexts, same.contexts]
      refine ⟨congrArg (verdict config · ctx (usage m)) known, ?_, calm, first, second⟩
      unfold conclude
      dsimp only
      rw [← known]
      generalize judged config _ ctx (usage m) = contexts
      exact withoutCode_congr (f := fun g => { g with contexts }) (fun _ => rfl) parted

theorem twins_endCall (same : Twins h k) (id : ContextId) (result : Except HostError Outcome) :
    Twins (Manager.endCall id result h) (Manager.endCall id result k) where
  same := withoutCode_congr (fun _ => rfl) same.same
  calm := same.calm
  first := same.first.endCall id result
  second := same.second.endCall id result

theorem twins_finish (same : Twins h k) (contract : String) (result : Except HostError Outcome) :
    Twins (Manager.finish contract result h) (Manager.finish contract result k) where
  same := by
    rw [Host.withoutCode_finish, Host.withoutCode_finish]
    exact withoutCode_congr (fun _ => rfl) same.same
  calm := (Manager.finish_surroundings ..).trans same.calm
  first := same.first.finish contract result
  second := same.second.finish contract result

/-- A call opens alike on two hosts, one of which may have to compile the code that the
other one finds. -/
theorem twins_opens (config : Config) (same : Twins h k) (ctx : Context) :
    twins.Opens config (fun _ => Twins) .reuse ctx h k := by
  have first := obtain_calm same.first same.calm ctx
  have second := obtain_calm same.second same.calm_second ctx
  rw [← same.store] at second
  unfold Relation.Opens
  cases built : h.store.build ctx.setup.contract with
  | error e =>
      rw [built] at first second
      obtain ⟨g, obtained, erased, faithful⟩ := first
      obtain ⟨g', obtained', erased', faithful'⟩ := second
      rw [obtained, obtained']
      exact ⟨rfl, twins_endCall (same.unseen erased erased' faithful faithful') ctx.id _⟩
  | ok result =>
      rw [built] at first second
      obtain ⟨code, g, obtained, module, erased, faithful⟩ := first
      obtain ⟨code', g', obtained', module', erased', faithful'⟩ := second
      rw [obtained, obtained']
      have opened := twins_ready (same.unseen erased erased' faithful faithful') ctx
      refine ⟨module.trans module'.symm, ctx.id, rfl, opened, fun result m f f' ended => ?_⟩
      have left := (twins.ended_iff fun _ _ _ => Iff.rfl).1 ended
      obtain ⟨alike, closed⟩ := twins_conclude left config ctx code code' result m
      dsimp only
      rw [← alike]
      exact ⟨rfl, twins_endCall closed ctx.id _⟩

/-- Programs cannot tell whether the code of the calls that they make was cached. -/
theorem twins_simulation (config : Config) : Simulation config twins where
  contexts same := same.contexts
  signals same := same.signals
  broken _ same := same
  aborted _ same := same
  noted inner same :=
    same.quiet (.note _ inner) (.note _ inner) (withoutCode_congr (fun _ => rfl) same.same)
  marked inner same :=
    same.quiet (.note _ inner) (.note _ inner) (withoutCode_congr (fun _ => rfl) same.same)
  lines lines same :=
    same.quiet (.addLines _ lines) (.addLines _ lines)
      (withoutCode_congr (f := Host.addLines lines) (fun _ => rfl) same.same)
  updated := by
    intro id h k change keeps same
    refine same.quiet (.update h _ keeps) (.update k _ keeps) ?_
    exact withoutCode_congr (f := fun g => { g with contexts := g.contexts.update id change })
      (fun _ => rfl) same.same
  read key _ same := twins_access same (Host.getKey_quiet _ _) (Host.getKey_quiet _ _)
  written := by
    intro id h k ctx key value found same
    have found' := same.contexts ▸ found
    exact twins_access same (Host.putKey_quiet (Host.ownsKey_of_find? found key) value)
      (Host.putKey_quiet (Host.ownsKey_of_find? found' key) value)
  deleted := by
    intro id h k ctx key found same
    have found' := same.contexts ▸ found
    exact twins_access same (Host.deleteKey_quiet (Host.ownsKey_of_find? found key))
      (Host.deleteKey_quiet (Host.ownsKey_of_find? found' key))
  asked _ _ _ _ _ := .inl trivial
  described := by
    intro id h k contract _ same
    exact Relation.Kept.contractLanguage
      (twins_access same (Host.getKey_quiet _ h) (Host.getKey_quiet _ k))
  called := by
    intro id h k setup asked _ same
    have begun : Twins (Manager.beginCall setup (invoked setup.contract h))
        (Manager.beginCall setup (invoked setup.contract k)) :=
      twins_beginCall (twins_invoked same setup.contract) asked.named
    refine (twins_opens config begun _).mono fun result g g' closed => ?_
    exact (twins.returned_iff fun _ _ _ => Iff.rfl).2 (twins_finish closed setup.contract result)

/-- Two hosts that differ in code only answer every invocation alike, and differ in code
only afterwards. -/
theorem twins_invoke (config : Config) (same : Twins h k) (method : String)
    (fields : RequestFields) :
    let p := runFrom ((Manager.scripted config).invokeContract method fields) h
    let q := runFrom ((Manager.scripted config).invokeContract method fields) k
    p.1 = q.1 ∧ Twins p.2 q.2 := by
  rw [runFrom_invokeContract, runFrom_invokeContract]
  cases parsed : CallRequest.parse fields false with
  | error e => exact ⟨rfl, same⟩
  | ok request =>
      have valid : Naming.validate (request.callSetup method).contract = .ok () :=
        CallRequest.validate_of_parse parsed
      have begun := twins_beginCall (twins_invoked same request.contract) valid
      have next : created (request.callSetup method) (invoked request.contract k) =
          created (request.callSetup method) (invoked request.contract h) :=
        congrArg (fun cs : Contexts => Context.mk cs.next _ none {}) same.contexts.symm
      have ended := (twins_simulation config).run
        ((twins_simulation config).nestedCall config.maxCallDepth.toNat)
        (twins_opens config begun (created (request.callSetup method) (invoked request.contract h)))
      rcases ended with excused | ⟨alike, closed⟩
      · exact excused.elim
      · dsimp only [outermost]
        rw [next, ← alike]
        exact ⟨rfl, twins_finish closed request.contract _⟩

/-- Dropping code that agrees with the store makes no difference that could be told. -/
theorem twins_evict (same : Twins h k) (contract : String) : Twins h (k.evict contract) := by
  have found (name : String) (code : CompiledCode Module)
      (cached : (k.evict contract).cache.find? name = some code) :
      k.cache.find? name = some code := by
    have left : (k.evict contract).cache = (k.cache.remove contract).2 := Host.settle_cache ..
    rw [left, CodeCache.find?_remove] at cached
    split at cached
    · cases cached
    · exact cached
  refine same.unseen rfl (Host.withoutCode_evict k contract) same.first ?_
  refine same.second.congr (Host.settle_store ..) ?_ found
  exact congrArg Contexts.setups (Host.settle_contexts ..)

theorem twins_evictAll (same : Twins h k) (contracts : List String) :
    Twins h (k.evictAll contracts) := by
  induction contracts generalizing k with
  | nil => exact same
  | cons contract rest ih => exact ih (twins_evict same contract)

end Call

/-- After any session over a store in memory that never fails, dropping compiled code makes
no difference to any invocation. With and without the code that is cached for some
contracts it has the same result, writes the same to the store, counts the same, and hands
out the same contexts; all that can differ has to do with code. -/
theorem session_cache_transparent (config : Config) (table : MemoryStore)
    (requests : List HostRequest) (dropped : List String) (method : String)
    (fields : RequestFields) :
    let h := (Manager.scripted config).session (.fresh (.memory table) {}) requests
    let p := runFrom ((Manager.scripted config).invokeContract method fields) h
    let q := runFrom ((Manager.scripted config).invokeContract method fields)
      (h.evictAll dropped)
    p.1 = q.1 ∧ p.2.store = q.2.store ∧ p.2.stats = q.2.stats ∧
      p.2.contexts.next = q.2.contexts.next ∧ p.2.withoutCode = q.2.withoutCode := by
  intro h
  have calm : h.surroundings = {} :=
    (session_books config (.memory table) {} requests).2.surroundings
  have faithful : h.Faithful := session_faithful config table {} requests
  have same : Host.Twins h (h.evictAll dropped) :=
    Call.twins_evictAll ⟨rfl, calm, faithful, faithful⟩ dropped
  obtain ⟨alike, closed⟩ := Call.twins_invoke config same method fields
  exact ⟨alike, closed.store, closed.stats, congrArg Contexts.next closed.contexts, closed.same⟩

end ContractHost
