/-
# How a call comes by its code

A call runs on the code cached for its contract, or on code that it compiles from the
bytecode in the store and caches. Everything that can happen here is written as one
function of the host, so that statements about calls need not look inside the cache, the
store and the engine at once.
-/

import ContractHost.Manager
import ContractHost.Proofs.Host.Quiet
import ContractHost.Script.Run

namespace ContractHost

open Script (Machine Module)

/-- The manager that runs scripts with given settings. -/
def Manager.scripted (config : Config) : Manager Module Machine where
  config
  backend := { engine := Script.engine, gasLimit := config.gasLimit }

/-- Settings that a host can run with open the manager of scripts, wherever their backend
is registered for the script engine. -/
theorem Manager.build_registerEngine {config : Config} (valid : config.validate = .ok ())
    (backends : Backends Module Machine) :
    Manager.build config (backends.registerEngine config.backend Script.engine) =
      .ok (.scripted config) := by
  unfold Manager.build Backends.build
  rw [valid]
  simp only [Backends.registerEngine, Backends.register, Table.get?_insert_self]
  rfl

/-- What compiling the bytecode that is stored for a contract yields. -/
def Store.build (store : Store) (contract : String) : Except HostError (Bytes × Module) :=
  match (store.get? (StoreKey.code contract)).1 with
  | none => .error (.missingCode contract)
  | some bytecode =>
    if bytecode.isEmpty then .error (.emptyCode contract)
    else
      match Module.compile .standard bytecode with
      | .ok module => .ok (bytecode, module)
      | .error e => .error e.toHostError

/-- What is compiled is stored, and not empty. -/
theorem Store.build_eq_ok {store : Store} {contract : String} {bytecode : Bytes}
    {module : Module} (built : store.build contract = .ok (bytecode, module)) :
    (store.get? (StoreKey.code contract)).1 = some bytecode ∧ bytecode ≠ [] ∧
      Module.compile .standard bytecode = .ok module := by
  unfold Store.build at built
  cases stored : (store.get? (StoreKey.code contract)).1 with
  | none => simp [stored] at built
  | some octets =>
      cases octets with
      | nil => simp [stored] at built
      | cons octet rest =>
          cases compiled : Module.compile .standard (octet :: rest) with
          | error e => simp [stored, compiled] at built
          | ok result =>
              simp [stored, compiled] at built
              obtain ⟨rfl, rfl⟩ := built
              exact ⟨rfl, by simp, compiled⟩

/-- Only what the store answers under the key of the code counts. -/
theorem Store.build_congr {store store' : Store} {contract : String}
    (same : (store.get? (StoreKey.code contract)).1 = (store'.get? (StoreKey.code contract)).1) :
    store.build contract = store'.build contract := by
  unfold Store.build
  rw [same]

theorem runFrom_compileModule {M P : Type} (engine : Engine M P) (resolver : Resolver)
    (bytecode : Bytes) (h : Host M) :
    runFrom (engine.compileModule resolver bytecode) h =
      match engine.compile resolver bytecode with
      | .ok module =>
        (.ok module, { h with engineUse.modulesCompiled := h.engineUse.modulesCompiled + 1 })
      | .error e => (.error e, h) := by
  unfold Engine.compileModule
  rw [runFrom_bind, runFrom_liftExcept]
  cases engine.compile resolver bytecode <;> rfl

namespace Call

/-- The host after the bytecode of a contract was read. -/
def fetched (contract : String) (h : Host Module) : Host Module :=
  { h.beforeAccess .get (StoreKey.code contract) with
    store := (h.store.get? (StoreKey.code contract)).2 }

/-- The host after a call took a lease on cached code. -/
def lent (ctx : Context) (code : CompiledCode Module) (h : Host Module) : Host Module :=
  { h with cache := h.cache.lease code }.note (.obtained ctx.id ctx.setup.contract code.digest)

/-- The code that is cached for a contract once it is compiled. -/
def newCode (contract : String) (bytecode : Bytes) (module : Module) (h : Host Module) :
    CompiledCode Module :=
  (h.cache.insert contract bytecode module).1

/-- The host after a call compiled and cached the code of its contract. -/
def kept (ctx : Context) (bytecode : Bytes) (module : Module) (h : Host Module) : Host Module :=
  let g := fetched ctx.setup.contract h
  { g with
    cache := (h.cache.insert ctx.setup.contract bytecode module).2
    engineUse.modulesCompiled := g.engineUse.modulesCompiled + 1 }.note
      (.obtained ctx.id ctx.setup.contract
        (newCode ctx.setup.contract bytecode module h).digest)

/-- How a call comes by its code, or why it does not. -/
def obtain (load : CodeLoad) (ctx : Context) (h : Host Module) :
    Except HostError (CompiledCode Module) × Host Module :=
  let contract := ctx.setup.contract
  match h.cache.find? contract with
  | some code =>
    match load with
    | .compile => (.error (.staleCode contract), h)
    | .reuse => (.ok code, lent ctx code h)
  | none =>
    match h.surroundings.fault? h.accesses .get (StoreKey.code contract) with
    | some fault => (.error (.storage fault), h.beforeAccess .get (StoreKey.code contract))
    | none =>
      match h.store.build contract with
      | .error e => (.error e, fetched contract h)
      | .ok (bytecode, module) => (.ok (newCode contract bytecode module h), kept ctx bytecode module h)

theorem fetched_quiet (contract : String) (h : Host Module) : h.Quiet (fetched contract h) :=
  { Host.Quiet.beforeAccess .get (StoreKey.code contract) h with store := .get? h.store _ }

variable (config : Config)

theorem compileContract_eq (contract : String) (h : Host Module) :
    (Manager.scripted config).backend.compileContract contract h =
      match h.surroundings.fault? h.accesses .get (StoreKey.code contract) with
      | some fault => (.error (.storage fault), h.beforeAccess .get (StoreKey.code contract))
      | none =>
        let g := fetched contract h
        match h.store.build contract with
        | .error e => (.error e, g)
        | .ok (bytecode, module) =>
          (.ok (bytecode, module),
            { g with engineUse.modulesCompiled := g.engineUse.modulesCompiled + 1 }) := by
  unfold Backend.compileContract Store.build
  change runFrom _ h = _
  simp only [runFrom_bind, HostM.fetchCode, HostM.getKey, runFrom_mapError, Host.runFrom_access]
  cases h.surroundings.fault? h.accesses .get (StoreKey.code contract) with
  | some fault => rfl
  | none =>
      cases (h.store.get? (StoreKey.code contract)).1 with
      | none => rfl
      | some bytecode =>
          simp only [mapError_ok]
          cases bytecode.isEmpty with
          | true => rfl
          | false =>
              simp only [Bool.false_eq_true, ↓reduceIte, runFrom_pure, runFrom_compileModule,
                show (Manager.scripted config).backend.engine.compile = Module.compile from rfl]
              cases Module.compile .standard bytecode <;> rfl

/-- Reading bytecode leaves the cache alone. -/
theorem fetched_cache (contract : String) (h : Host Module) :
    (fetched contract h).cache = h.cache :=
  (fetched_quiet contract h).cache

/-- Compiling into the cache. -/
theorem compileInto_eq (contract : String) (h : Host Module) :
    (h.cache.compileInto (Manager.scripted config).backend.compileContract contract :
        StateM (Host Module) _) h =
      match h.surroundings.fault? h.accesses .get (StoreKey.code contract) with
      | some fault =>
        ((.error (.storage fault), h.cache), h.beforeAccess .get (StoreKey.code contract))
      | none =>
        let g := fetched contract h
        match h.store.build contract with
        | .error e => ((.error e, h.cache), g)
        | .ok (bytecode, module) =>
          ((.ok (newCode contract bytecode module h), (h.cache.insert contract bytecode module).2),
            { g with engineUse.modulesCompiled := g.engineUse.modulesCompiled + 1 }) := by
  unfold CodeCache.compileInto
  rw [runState_bind, compileContract_eq]
  cases h.surroundings.fault? h.accesses .get (StoreKey.code contract) with
  | some fault => rfl
  | none =>
      cases h.store.build contract with
      | error e => rfl
      | ok built => rfl

theorem runFrom_obtainCode (load : CodeLoad) (ctx : Context) (h : Host Module) :
    runFrom ((Manager.scripted config).backend.obtainCode load ctx) h = obtain load ctx h := by
  have keep {g : Host Module} (same : g.cache = h.cache) : { g with cache := h.cache } = g :=
    same ▸ rfl
  have unread := keep (Host.Quiet.beforeAccess .get (StoreKey.code ctx.setup.contract) h).cache
  have read := keep (fetched_cache ctx.setup.contract h)
  have compiled := compileInto_eq config ctx.setup.contract h
  unfold Backend.obtainCode obtain
  rw [runFrom_bind, runFrom_get]
  cases found : h.cache.find? ctx.setup.contract with
  | some code =>
      cases load with
      | compile =>
          simp only [CodeCache.compileFresh, CodeCache.contains, found]
          rfl
      | reuse =>
          simp only [CodeCache.acquire, found]
          rfl
  | none =>
      cases load
      all_goals
        simp only [CodeCache.compileFresh, CodeCache.acquire, CodeCache.contains, found,
          Option.isSome_none, Bool.false_eq_true, ↓reduceIte, runFrom_bind, runFrom_liftState,
          compiled]
        cases h.surroundings.fault? h.accesses .get (StoreKey.code ctx.setup.contract) with
        | some fault => exact congrArg (Prod.mk _) unread
        | none =>
            cases h.store.build ctx.setup.contract with
            | error e => exact congrArg (Prod.mk _) read
            | ok built => rfl

/-- What holds however a call comes by its code, or fails to. -/
theorem obtain_ends {Ok : CompiledCode Module → Host Module → Prop}
    {Fail : HostError → Host Module → Prop} {load : CodeLoad} {ctx : Context} {h : Host Module}
    (stale : ∀ code, load = .compile → h.cache.find? ctx.setup.contract = some code →
      Fail (.staleCode ctx.setup.contract) h)
    (cached : ∀ code, load = .reuse → h.cache.find? ctx.setup.contract = some code →
      Ok code (lent ctx code h))
    (failed : ∀ e g, h.cache.find? ctx.setup.contract = none → h.Quiet g → Fail e g)
    (built : ∀ bytecode module, h.cache.find? ctx.setup.contract = none →
      h.store.build ctx.setup.contract = .ok (bytecode, module) →
      Ok (newCode ctx.setup.contract bytecode module h) (kept ctx bytecode module h)) :
    Ends Ok Fail (obtain load ctx h) := by
  unfold obtain
  dsimp only
  cases found : h.cache.find? ctx.setup.contract with
  | some code =>
      cases load with
      | compile => exact stale code rfl found
      | reuse => exact cached code rfl found
  | none =>
      cases h.surroundings.fault? h.accesses .get (StoreKey.code ctx.setup.contract) with
      | some fault => exact failed _ _ found (.beforeAccess .get _ h)
      | none =>
          cases compiled : h.store.build ctx.setup.contract with
          | error e => exact failed e _ found (fetched_quiet ctx.setup.contract h)
          | ok result => exact built _ _ found compiled

end Call

end ContractHost
