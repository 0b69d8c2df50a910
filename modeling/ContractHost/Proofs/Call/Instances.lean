/-
# The life of instances

Whoever has a backend creates instances, runs them, asks them to end, releases and drops them,
in any order and as many at once as wanted, while contracts lose their cached code and the
stored code changes. A machine is open from the creation of its instance until the instance is
released or dropped, whichever comes first, and a module is held until it is neither cached nor
needed by an instance. An instance stays with the module that it was created on.
-/

import ContractHost.Proofs.Call.Session
import ContractHost.Proofs.Call.Tidy
import Mathlib.Data.List.Dedup

namespace ContractHost

open Script (Machine Module)

/-- What is done with a backend. An instance is named by its place among those that were not
dropped, latest first. Meanwhile the store, what goes on around it, and the contexts may change
in any way. -/
inductive BackendStep
  | outside (store : Store) (surroundings : Surroundings) (contexts : Contexts)
  | create (load : CodeLoad) (ctx : Context)
  | exec (place : Nat) (handler : TidyHandler) (entry : String)
  | abort (place : Nat) (reason : String)
  | release (place : Nat)
  | drop (place : Nat)
  | evict (contract : String)

/-- An instance that was not dropped, the code that it was created on, and whether it was
released. -/
structure Holding where
  code : CompiledCode Module
  released : Bool := false
  inst : Instance Module Machine

/-- A backend in use: its host, and the instances that were not dropped, latest first. -/
structure BackendUse where
  host : Host Module
  instances : List Holding := []

namespace BackendUse

/-- The code that is cached, or that an instance was created on. -/
def Holds (u : BackendUse) (code : CompiledCode Module) : Prop :=
  code ∈ u.host.cache.entries ∨ ∃ held ∈ u.instances, held.code = code

/-- Does something with the instance at a place, if there is one. -/
def onInstance (u : BackendUse) (place : Nat) (act : Holding → BackendUse) : BackendUse :=
  match u.instances[place]? with
  | some held => act held
  | none => u

/-- Takes a step. -/
def step (config : Config) (u : BackendUse) : BackendStep → BackendUse
  | .outside store surroundings contexts =>
    { u with host := { u.host with store, surroundings, contexts } }
  | .create load ctx =>
    match ((Manager.scripted config).backend.createInstance load ctx).run u.host with
    | (.ok inst, host) => { host, instances := { code := inst.code, inst } :: u.instances }
    | (.error _, host) => { u with host }
  | .exec place handler entry => u.onInstance place fun held =>
    let p := held.inst.exec Script.engine handler.serve entry u.host
    { host := p.2, instances := u.instances.set place { held with inst := p.1.2 } }
  | .abort place reason => u.onInstance place fun held =>
    { u with host := held.inst.abort reason u.host }
  | .release place => u.onInstance place fun held =>
    let p := held.inst.close Script.engine u.host
    { host := p.2, instances := u.instances.set place { held with inst := p.1, released := true } }
  | .drop place => u.onInstance place fun held =>
    { host := (held.inst.discard Script.engine u.host).2
      instances := u.instances.eraseIdx place }
  | .evict contract => { u with host := u.host.evict contract }

/-- Takes steps in turn. -/
def run (config : Config) (u : BackendUse) (steps : List BackendStep) : BackendUse :=
  steps.foldl (step config) u

end BackendUse

/-! ## What an instance is -/

/-- A run of an instance has entered its machine, or has done nothing at all. -/
theorem Instance.exec_cases (handler : SyscallHandler Module) (inst : Instance Module Machine)
    (entry : String) (h : Host Module) :
    ∃ result, inst.exec Script.engine handler entry h = ((result, inst), h) ∨
      let p := inst.machine.exec handler entry inst.entryParams
        (h.note (.engine (.exec entry inst.entryParams)))
      inst.exec Script.engine handler entry h =
        ((result, { inst with machine := p.1.2 }), p.2) := by
  rw [Call.exec_scripted]
  cases h.signals.trap? inst.signal with
  | some trap => exact ⟨_, .inl rfl⟩
  | none =>
      dsimp only
      split
      · exact ⟨_, .inl rfl⟩
      · exact ⟨_, .inr rfl⟩

/-- What it means that an instance runs the program of the code that it was created on. Nothing
runs once its signal is raised, or without a memory. Otherwise the function that is entered is
run by that program on the machine of the instance, and a signal that was raised meanwhile
decides the result. -/
structure Holding.Runs (held : Holding) (handler : SyscallHandler Module) (entry : String)
    (h : Host Module) : Prop where
  raised : ∀ trap, h.signals.trap? held.inst.signal = some trap →
    held.inst.exec Script.engine handler entry h = ((.error (.trap trap), held.inst), h)
  bare : h.signals.trap? held.inst.signal = none → held.inst.machine.memory = none →
    held.inst.exec Script.engine handler entry h =
      ((.error (.engine "bad contract, no memory"), held.inst), h)
  runs : h.signals.trap? held.inst.signal = none → held.inst.machine.memory ≠ none →
    let p := held.code.module.program.exec handler held.inst.machine entry held.inst.entryParams
      (h.note (.engine (.exec entry held.inst.entryParams)))
    held.inst.exec Script.engine handler entry h =
      ((match p.2.signals.trap? held.inst.signal, p.1.1 with
        | some trap, _ => .error (.trap trap)
        | none, .ok _ => .ok ()
        | none, .error e => .error e.toHostError,
        { held.inst with machine := p.1.2 }), p.2)

/-- An instance is what was made of it. -/
structure Holding.Sound (held : Holding) : Prop where
  code : held.inst.code = held.code
  module : held.inst.machine.module = held.code.module
  closed : held.inst.closed = held.released

namespace Holding.Sound

variable {held : Holding} (sound : held.Sound)

include sound

/-- The instance runs the program of its code. -/
theorem runs (handler : SyscallHandler Module) (entry : String) (h : Host Module) :
    held.Runs handler entry h where
  raised trap raised := by
    rw [Call.exec_scripted, raised]
  bare quiet none := by
    rw [Call.exec_scripted, quiet, none]
    rfl
  runs quiet some := by
    have own : Machine.exec handler held.inst.machine =
        held.code.module.program.exec handler held.inst.machine := by
      rw [Machine.exec_eq, sound.module]
    rw [Call.exec_scripted, quiet]
    dsimp only
    rw [if_neg (by rwa [Option.isNone_iff_eq_none]), own]
    unfold Call.overruled
    rcases held.code.module.program.exec handler _ _ _ _ with ⟨⟨result, machine⟩, g⟩
    dsimp only
    cases g.signals.trap? held.inst.signal with
    | some trap => rfl
    | none => cases result <;> rfl

/-- A run leaves the instance what it is, and gives back what it takes. -/
theorem exec (handler : TidyHandler) (entry : String) (h : Host Module) :
    let p := held.inst.exec Script.engine handler.serve entry h
    h.Tidy p.2 ∧ Holding.Sound { held with inst := p.1.2 } := by
  obtain ⟨result, idle | entered⟩ := held.inst.exec_cases handler.serve entry h
  · rw [idle]
    exact ⟨.refl h, sound.code, sound.module, sound.closed⟩
  · obtain ⟨tidy, module⟩ := held.inst.machine.tidy_exec handler entry held.inst.entryParams
      (h.note (.engine (.exec entry held.inst.entryParams)))
    have noted : h.Tidy (h.note (.engine (.exec entry held.inst.entryParams))) := .of_same rfl rfl
    rw [entered]
    exact ⟨noted.trans tidy, sound.code, module.trans sound.module, sound.closed⟩

end Holding.Sound

namespace Holding

/-- The number of machines that an instance has open. -/
def machines (held : Holding) : Int := if held.released then 0 else 1

/-- The number of machines that instances have open. -/
def openMachines (instances : List Holding) : Int := instances.countP fun held => !held.released

theorem openMachines_cons (held : Holding) (rest : List Holding) :
    openMachines (held :: rest) = openMachines rest + held.machines := by
  unfold openMachines machines
  rw [List.countP_cons]
  cases held.released <;> simp

theorem openMachines_perm {instances other : List Holding} (same : instances.Perm other) :
    openMachines instances = openMachines other := by
  unfold openMachines
  rw [same.countP_eq]

/-- An instance among others can be put before the rest. -/
theorem perm_of_getElem? {instances : List Holding} {place : Nat} {held : Holding}
    (there : instances[place]? = some held) :
    instances.Perm (held :: instances.eraseIdx place) := by
  obtain ⟨bound, here⟩ := List.getElem?_eq_some_iff.1 there
  rw [← here]
  exact (List.getElem_cons_eraseIdx_perm bound).symm

end Holding

namespace Holding.Sound

variable {held : Holding} (sound : held.Sound)

include sound

/-- To release an instance closes its machine, unless that was done before. -/
theorem close (h : Host Module) :
    let p := held.inst.close Script.engine h
    h.Orderly p.2 ∧ p.2.cache = h.cache ∧ p.2.machines = h.machines - held.machines ∧
      Holding.Sound { held with inst := p.1, released := true } := by
  unfold Instance.close
  cases released : held.inst.closed with
  | true =>
      have none_open : held.machines = 0 := by
        rw [Holding.machines, ← sound.closed, released]
        rfl
      refine ⟨.of_same rfl rfl rfl, rfl, ?_, sound.code, sound.module, released⟩
      rw [none_open]
      exact (Int.sub_zero _).symm
  | false =>
      have one_open : held.machines = 1 := by
        rw [Holding.machines, ← sound.closed, released]
        rfl
      have module : held.inst.machine.close.2.module = held.inst.machine.module := by
        unfold Machine.close
        cases held.inst.machine.writer <;> rfl
      refine ⟨.of_same rfl rfl rfl, rfl, ?_, sound.code, module.trans sound.module, rfl⟩
      rw [one_open]
      show (h.engineUse.machinesBooted : Int) - (h.engineUse.machinesClosed + 1 : Nat) = _
      unfold Host.machines
      omega

/-- To drop an instance closes its machine as well, and gives its lease back. -/
theorem discard {h : Host Module} (leased : held.code.serial ∈ h.cache.leases) :
    let g := (held.inst.discard Script.engine h).2
    h.Orderly g ∧ g.cache.leases = h.cache.leases.erase held.code.serial ∧
      g.machines = h.machines - held.machines := by
  obtain ⟨closed, cache, machines, code, -, -⟩ := sound.close h
  unfold Instance.discard
  rw [runState_bind]
  generalize held.inst.close Script.engine h = p at *
  show h.Orderly (p.2.giveBack p.1.code) ∧ (p.2.giveBack p.1.code).cache.leases = _ ∧
    (p.2.giveBack p.1.code).machines = _
  rw [code]
  refine ⟨closed.trans (.giveBack (cache ▸ leased)), ?_, (Host.settle_machines ..).trans machines⟩
  show (Host.settle _ p.2).cache.leases = _
  rw [Host.settle_cache, ← cache]
  rfl

end Holding.Sound

/-! ## What holds of a backend in use -/

namespace BackendUse

/-- What holds of a backend whatever was done with it. -/
structure Sound (u : BackendUse) : Prop where
  ledger : u.host.Ledger
  leased : u.host.cache.leases.Perm (u.instances.map (·.code.serial))
  machines : u.host.machines = Holding.openMachines u.instances
  instances : ∀ held ∈ u.instances, held.Sound
  alike : ∀ code code', u.Holds code → u.Holds code' → code.serial = code'.serial → code = code'

variable {u v : BackendUse}

namespace Sound

theorem opened (store : Store) (surroundings : Surroundings) :
    Sound { host := .fresh store surroundings } where
  ledger := ⟨.empty, rfl⟩
  leased := .nil
  machines := rfl
  instances := by simp
  alike := by simp [Holds, Host.fresh]

variable (sound : u.Sound)

include sound

/-- Code that an instance was created on has a number that was given out. -/
theorem serial_lt {held : Holding} (mem : held ∈ u.instances) :
    held.code.serial < u.host.cache.compiled :=
  sound.ledger.formed.leased _ (sound.leased.mem_iff.2 (List.mem_map_of_mem mem))

/-- What holds goes on to hold where code is dealt with in order. -/
theorem move (orderly : u.host.Orderly v.host)
    (leased : v.host.cache.leases.Perm (v.instances.map (·.code.serial)))
    (machines : v.host.machines = Holding.openMachines v.instances)
    (instances : ∀ held ∈ v.instances, held.Sound)
    (known : ∀ held ∈ v.instances,
      (∃ old ∈ u.instances, old.code = held.code) ∨ held.code ∈ v.host.cache.entries) :
    v.Sound where
  ledger := orderly.ledger sound.ledger
  leased := leased
  machines := machines
  instances := instances
  alike := by
    have formed := (orderly.ledger sound.ledger).formed
    -- code is cached now, or an instance has had it all the time
    have cases_of {code : CompiledCode Module} (holds : v.Holds code) :
        (∃ old ∈ u.instances, old.code = code) ∨ code ∈ v.host.cache.entries := by
      rcases holds with cached | ⟨held, mem, rfl⟩
      · exact .inr cached
      · exact known held mem
    have mixed {old : Holding} {code : CompiledCode Module} (mem : old ∈ u.instances)
        (cached : code ∈ v.host.cache.entries) (same : old.code.serial = code.serial) :
        old.code = code := by
      rcases orderly.cached code cached with cached | new
      · exact sound.alike _ _ (.inr ⟨old, mem, rfl⟩) (.inl cached) same
      · exact absurd (sound.serial_lt mem) (Nat.not_lt.2 (same ▸ new))
    intro code code' holds holds' same
    rcases cases_of holds with ⟨old, mem, rfl⟩ | cached <;>
      rcases cases_of holds' with ⟨old', mem', rfl⟩ | cached'
    · exact sound.alike _ _ (.inr ⟨old, mem, rfl⟩) (.inr ⟨old', mem', rfl⟩) same
    · exact mixed mem cached' same
    · exact (mixed mem' cached same.symm).symm
    · exact List.inj_on_of_nodup_map formed.serials cached cached' same

theorem onInstance (place : Nat) {act : Holding → BackendUse}
    (step : ∀ held, u.instances[place]? = some held → held.Sound → (act held).Sound) :
    (u.onInstance place act).Sound := by
  unfold BackendUse.onInstance
  cases there : u.instances[place]? with
  | none => exact sound
  | some held => exact step held there (sound.instances held (List.mem_of_getElem? there))

/-- The host does something that gives back what it takes. -/
theorem tidy {g : Host Module} (tidy : u.host.Tidy g) : Sound { u with host := g } :=
  sound.move tidy.toOrderly (tidy.leases ▸ sound.leased) (tidy.machines.trans sound.machines)
    sound.instances fun held mem => .inl ⟨held, mem, rfl⟩

/-- One of the instances is not what it was. -/
theorem replace {place : Nat} {old new : Holding} {g : Host Module}
    (there : u.instances[place]? = some old) (orderly : u.host.Orderly g)
    (leases : g.cache.leases = u.host.cache.leases)
    (machines : g.machines = u.host.machines - old.machines + new.machines)
    (code : new.code = old.code) (kept : new.Sound) :
    Sound ⟨g, u.instances.set place new⟩ := by
  have before := Holding.perm_of_getElem? there
  have after : (u.instances.set place new).Perm (new :: u.instances.eraseIdx place) :=
    List.set_perm_cons_eraseIdx (List.getElem?_eq_some_iff.1 there).1 new
  have rest {held : Holding} (mem : held ∈ u.instances.eraseIdx place) : held ∈ u.instances :=
    before.mem_iff.2 (List.mem_cons_of_mem _ mem)
  refine sound.move orderly ?_ ?_ ?_ ?_
  · rw [leases]
    refine (sound.leased.trans (before.map _)).trans (.trans ?_ (after.map _).symm)
    rw [List.map_cons, List.map_cons, code]
  · have counted := sound.machines
    rw [Holding.openMachines_perm before, Holding.openMachines_cons] at counted
    rw [Holding.openMachines_perm after, Holding.openMachines_cons, machines, counted,
      Int.add_sub_cancel]
  · intro held mem
    rcases List.mem_cons.1 (after.mem_iff.1 mem) with rfl | mem
    · exact kept
    · exact sound.instances held (rest mem)
  · intro held mem
    rcases List.mem_cons.1 (after.mem_iff.1 mem) with rfl | mem
    · exact .inl ⟨old, before.mem_iff.2 List.mem_cons_self, code.symm⟩
    · exact .inl ⟨held, rest mem, rfl⟩

end Sound

/-! ## What a step does -/

/-- An instance is created on the code that was obtained for it, or nothing of it is left. -/
theorem step_create (config : Config) (u : BackendUse) (load : CodeLoad) (ctx : Context) :
    u.step config (.create load ctx) =
      match Call.obtain load ctx u.host with
      | (.error _, g) => { u with host := g }
      | (.ok code, g) =>
        { host := Call.prepare ctx g
          instances := { code, inst := Call.instanceOn config ctx code g.signals.next } ::
            u.instances } := by
  show (match runFrom ((Manager.scripted config).backend.createInstance load ctx) u.host with
    | (.ok inst, host) => { host, instances := { code := inst.code, inst } :: u.instances }
    | (.error _, host) => { u with host } : BackendUse) = _
  rw [Call.runFrom_createInstance]
  rcases Call.obtain load ctx u.host with ⟨e | code, g⟩ <;> rfl

namespace Sound

variable (config : Config) (sound : u.Sound)

include sound

theorem create (load : CodeLoad) (ctx : Context) : (u.step config (.create load ctx)).Sound := by
  rw [step_create]
  have obtained := Call.obtain_took load ctx u.host
  match Call.obtain load ctx u.host, obtained with
  | (.error e, g), tidy => exact sound.tidy tidy
  | (.ok code, g), took =>
      have readied : g.Orderly (Call.prepare ctx g) := .of_same rfl rfl rfl
      refine sound.move (took.toOrderly.trans readied) ?_ ?_ ?_ ?_
      · show g.cache.leases.Perm _
        rw [took.leases]
        exact sound.leased.cons _
      · refine (Call.machines_ready ctx g).trans ?_
        rw [took.machines, sound.machines, Holding.openMachines_cons]
        rfl
      · exact List.forall_mem_cons.2 ⟨⟨rfl, rfl, rfl⟩, sound.instances⟩
      · exact List.forall_mem_cons.2 ⟨.inr took.mine, fun held mem => .inl ⟨held, mem, rfl⟩⟩

theorem drop {place : Nat} {held : Holding} (there : u.instances[place]? = some held) :
    Sound ⟨(held.inst.discard Script.engine u.host).2, u.instances.eraseIdx place⟩ := by
  have split := Holding.perm_of_getElem? there
  have mem : held ∈ u.instances := split.mem_iff.2 List.mem_cons_self
  have leased : held.code.serial ∈ u.host.cache.leases :=
    sound.leased.mem_iff.2 (List.mem_map_of_mem mem)
  have rest {other : Holding} (kept : other ∈ u.instances.eraseIdx place) : other ∈ u.instances :=
    split.mem_iff.2 (List.mem_cons_of_mem _ kept)
  obtain ⟨orderly, leases, machines⟩ := (sound.instances held mem).discard leased
  refine sound.move orderly ?_ ?_ (fun other kept => sound.instances other (rest kept))
    fun other kept => .inl ⟨other, rest kept, rfl⟩
  · have same := (sound.leased.trans (split.map _)).erase held.code.serial
    rw [List.map_cons, List.erase_cons_head] at same
    exact leases ▸ same
  · have counted := sound.machines
    rw [Holding.openMachines_perm split, Holding.openMachines_cons] at counted
    rw [machines, counted, Int.add_sub_cancel]

theorem step (step : BackendStep) : (u.step config step).Sound := by
  cases step with
  | outside store surroundings contexts => exact sound.tidy (.of_same rfl rfl)
  | create load ctx => exact sound.create config load ctx
  | exec place handler entry =>
      refine sound.onInstance place fun held there kept => ?_
      obtain ⟨tidy, kept⟩ := kept.exec handler entry u.host
      refine sound.replace there tidy.toOrderly tidy.leases ?_ rfl kept
      exact tidy.machines.trans (Int.sub_add_cancel _ held.machines).symm
  | abort place reason => exact sound.onInstance place fun _ _ _ => sound.tidy (.of_same rfl rfl)
  | release place =>
      refine sound.onInstance place fun held there kept => ?_
      obtain ⟨orderly, cache, machines, kept⟩ := kept.close u.host
      refine sound.replace there orderly (congrArg _ cache) ?_ rfl kept
      exact machines.trans (Int.add_zero _).symm
  | drop place => exact sound.onInstance place fun _ there _ => sound.drop there
  | evict contract => exact sound.tidy (.evict u.host contract)

theorem run (steps : List BackendStep) : (u.run config steps).Sound := by
  induction steps generalizing u with
  | nil => exact sound
  | cons step steps ih => exact ih (sound.step config step)

/-- The modules that were compiled and not released are those that are held, each counted
once. -/
theorem exists_held : ∃ held : List (CompiledCode Module),
    (held.map (·.serial)).Nodup ∧ (∀ code, code ∈ held ↔ u.Holds code) ∧
      u.host.engineUse.modulesCompiled = u.host.engineUse.modulesReleased + held.length := by
  classical
  let held := (u.host.cache.entries ++ u.instances.map (·.code)).dedup
  have mem (code : CompiledCode Module) : code ∈ held ↔ u.Holds code := by
    simp [held, Holds]
  have once : (held.map (·.serial)).Nodup :=
    (List.nodup_dedup _).map_on fun code holds code' holds' =>
      sound.alike code code' ((mem code).1 holds) ((mem code').1 holds')
  have numbers (serial : Nat) :
      serial ∈ held.map (·.serial) ↔ u.host.cache.holds serial = true := by
    rw [CodeCache.holds_iff, sound.leased.mem_iff]
    simp [mem, Holds, or_and_right, exists_or]
  have bound : ∀ serial ∈ held.map (·.serial), serial < u.host.cache.compiled := by
    intro serial listed
    rcases CodeCache.holds_iff.1 ((numbers serial).1 listed) with ⟨code, cached, rfl⟩ | leased
    · exact sound.ledger.formed.cached code cached
    · exact sound.ledger.formed.leased serial leased
  have counted : u.host.cache.heldCount = held.length := by
    rw [← List.length_map (·.serial), ← CodeCache.countP_range_contains once bound]
    refine List.countP_congr fun serial _ => ?_
    rw [List.contains_iff_mem, numbers]
  exact ⟨held, once, mem, counted ▸ sound.ledger.held⟩

/-- The machines that were booted and not closed are those of the instances that were not
released. -/
theorem machinesBooted_eq : u.host.engineUse.machinesBooted =
    u.host.engineUse.machinesClosed + u.instances.countP (fun held => !held.released) := by
  have counted := sound.machines
  unfold Host.machines Holding.openMachines at counted
  omega

end Sound

/-- A backend accounts for its instances, whatever is done with it in whatever order. The
machines that were booted and not closed are those of the instances that were neither released
nor dropped. The modules that were compiled and not released are those that are cached or that
an instance was created on, each of a number of its own. An instance runs the program of the
code that it was created on, whatever became of that code in the cache; when it is created,
this is the code cached for its contract. -/
theorem run_accounts_for_instances (config : Config) (store : Store) (surroundings : Surroundings)
    (steps : List BackendStep) :
    let u := BackendUse.run config { host := .fresh store surroundings } steps
    u.host.engineUse.machinesBooted =
      u.host.engineUse.machinesClosed + u.instances.countP (fun held => !held.released) ∧
    (∃ held : List (CompiledCode Module), (held.map (·.serial)).Nodup ∧
      (∀ code, code ∈ held ↔ u.Holds code) ∧
      u.host.engineUse.modulesCompiled = u.host.engineUse.modulesReleased + held.length) ∧
    (∀ held ∈ u.instances, held.inst.machine.module = held.code.module ∧
      ∀ handler entry h, held.Runs handler entry h) ∧
    ∀ load ctx, let next := u.step config (.create load ctx)
      next.instances = u.instances ∨ ∃ held, next.instances = held :: u.instances ∧
        held.released = false ∧ held.inst.setup = ctx.setup ∧
        next.host.cache.find? ctx.setup.contract = some held.code := by
  intro u
  have sound : u.Sound := (Sound.opened store surroundings).run config steps
  refine ⟨sound.machinesBooted_eq, sound.exists_held, fun held mem => ?_, fun load ctx => ?_⟩
  · have kept := sound.instances held mem
    exact ⟨kept.module, kept.runs⟩
  · rw [step_create]
    have cached := Call.obtain_cached load ctx u.host
    match Call.obtain load ctx u.host, cached with
    | (.error e, g), _ => exact .inl rfl
    | (.ok code, g), cached => exact .inr ⟨_, rfl, rfl, rfl, cached⟩

end BackendUse

end ContractHost
