/-
# Giving back what was taken

Compiled modules are held by the cache and by leases, and machines are open until they are
closed. Whoever serves the syscalls of a program may compile and drop code and run other
programs meanwhile. It is tidy if the accounts of modules stay right, and if it has given back
every lease and closed every machine that it took. A program is as tidy as the handler of its
syscalls, and a dispatcher of syscalls is tidy, with a manager to make nested calls and without.
-/

import ContractHost.Proofs.Call.Invariant
import ContractHost.Proofs.Script.Moves

namespace ContractHost

open Script (Machine Module)

namespace Host

variable {M : Type}

/-- The compiled modules that were not released are those that the cache or a lease holds. -/
structure Ledger (h : Host M) : Prop where
  formed : h.cache.WellFormed
  held : h.engineUse.modulesCompiled = h.engineUse.modulesReleased + h.cache.heldCount

/-- The number of machines that were booted and not closed. -/
def machines (h : Host M) : Int := h.engineUse.machinesBooted - h.engineUse.machinesClosed

/-- Code was dealt with in order: the ledger is kept, and what is cached is new, or was cached
before. -/
structure Orderly (h g : Host M) : Prop where
  ledger : h.Ledger → g.Ledger
  compiled : h.cache.compiled ≤ g.cache.compiled
  cached : ∀ code ∈ g.cache.entries, code ∈ h.cache.entries ∨ h.cache.compiled ≤ code.serial

/-- Code was dealt with in order, and what was taken was given back. -/
structure Tidy (h g : Host M) : Prop extends Orderly h g where
  leases : g.cache.leases = h.cache.leases
  machines : g.machines = h.machines

/-- Code was dealt with in order, and a lease on cached code was taken. -/
structure Took (h : Host M) (code : CompiledCode M) (g : Host M) : Prop extends Orderly h g where
  leases : g.cache.leases = code.serial :: h.cache.leases
  machines : g.machines = h.machines
  mine : code ∈ g.cache.entries

@[simp]
theorem settle_machines (change : Option (CompiledCode M) × CodeCache M) (h : Host M) :
    (h.settle change).machines = h.machines := by
  unfold settle
  cases change.1 <;> rfl

namespace Orderly

variable {h g f : Host M}

theorem trans (first : Orderly h g) (second : Orderly g f) : Orderly h f where
  ledger ledger := second.ledger (first.ledger ledger)
  compiled := Nat.le_trans first.compiled second.compiled
  cached code mem := by
    rcases second.cached code mem with mem | new
    · exact first.cached code mem
    · exact .inr (Nat.le_trans first.compiled new)

/-- Only the cache and the counters of modules matter. -/
theorem of_same (cache : g.cache = h.cache)
    (made : g.engineUse.modulesCompiled = h.engineUse.modulesCompiled)
    (released : g.engineUse.modulesReleased = h.engineUse.modulesReleased) : Orderly h g where
  ledger ledger := ⟨cache ▸ ledger.formed, by rw [made, released, cache, ledger.held]⟩
  compiled := Nat.le_of_eq (by rw [cache])
  cached code mem := .inl (cache ▸ mem)

/-- A change of the cache that counts what it releases. -/
theorem settle {change : Option (CompiledCode M) × CodeCache M}
    (formed : h.cache.WellFormed → change.2.WellFormed)
    (compiled : change.2.compiled = h.cache.compiled)
    (fewer : change.2.entries ⊆ h.cache.entries)
    (counted : h.cache.WellFormed →
      change.2.heldCount + change.1.toList.length = h.cache.heldCount) :
    Orderly h (h.settle change) where
  ledger ledger := by
    refine ⟨by simpa using formed ledger.formed, ?_⟩
    have counted := counted ledger.formed
    rw [settle_modulesCompiled, settle_modulesReleased, settle_cache, ledger.held]
    omega
  compiled := Nat.le_of_eq (by rw [settle_cache, compiled])
  cached code mem := by
    rw [settle_cache] at mem
    exact .inl (fewer mem)

theorem evict (h : Host M) (contract : String) : Orderly h (h.evict contract) := by
  refine settle (fun formed => formed.remove contract) ?_ ?_
    fun formed => formed.heldCount_remove contract
  · unfold CodeCache.remove
    cases h.cache.find? contract <;> rfl
  · unfold CodeCache.remove
    cases h.cache.find? contract with
    | none => exact List.Subset.refl _
    | some code => exact List.filter_subset_self _

theorem giveBack {code : CompiledCode M} (leased : code.serial ∈ h.cache.leases) :
    Orderly h (h.giveBack code) :=
  settle (fun formed => formed.giveBack code) rfl (List.Subset.refl _)
    fun formed => formed.heldCount_giveBack leased

end Orderly

namespace Tidy

variable {h g f : Host M}

theorem of_same (cache : g.cache = h.cache) (use : g.engineUse = h.engineUse) : Tidy h g where
  toOrderly := .of_same cache (congrArg _ use) (congrArg _ use)
  leases := congrArg _ cache
  machines := by
    unfold Host.machines
    rw [use]

theorem refl (h : Host M) : Tidy h h := .of_same rfl rfl

theorem trans (first : Tidy h g) (second : Tidy g f) : Tidy h f where
  toOrderly := first.toOrderly.trans second.toOrderly
  leases := second.leases.trans first.leases
  machines := second.machines.trans first.machines

theorem quiet (quiet : Quiet h g) : Tidy h g := .of_same quiet.cache quiet.engineUse

theorem evict (h : Host M) (contract : String) : Tidy h (h.evict contract) where
  toOrderly := .evict h contract
  leases := by
    show (h.settle _).cache.leases = _
    rw [settle_cache, CodeCache.remove_leases]
  machines := settle_machines ..

theorem finish (contract : String) (result : Except HostError Outcome) (h : Host M) :
    Tidy h (Manager.finish contract result h) := by
  have counted : Tidy h (Manager.counted contract result h) := .of_same rfl rfl
  exact Manager.finish_induction counted (counted.trans (.evict _ contract))

end Tidy

end Host

namespace Call

open Host (Orderly Tidy Took)

/-! ## Coming by code, and parting from it -/

theorem took_lent {ctx : Context} {h : Host Module} {code : CompiledCode Module}
    (found : h.cache.find? ctx.setup.contract = some code) : Took h code (lent ctx code h) := by
  have mem := (CodeCache.find?_eq_some found).1
  exact {
    ledger := fun ledger => ⟨ledger.formed.lease mem, by
      show h.engineUse.modulesCompiled =
        h.engineUse.modulesReleased + (h.cache.lease code).heldCount
      rw [CodeCache.heldCount_lease mem, ledger.held]⟩
    compiled := Nat.le_refl _
    cached := fun _ => .inl
    leases := rfl
    machines := rfl
    mine := mem }

theorem took_kept {ctx : Context} {h : Host Module}
    (missing : h.cache.find? ctx.setup.contract = none) (bytecode : Bytes) (module : Module) :
    Took h (newCode ctx.setup.contract bytecode module h) (kept ctx bytecode module h) where
  ledger ledger := by
    have use := (fetched_quiet ctx.setup.contract h).engineUse
    refine ⟨ledger.formed.insert missing bytecode module, ?_⟩
    show (fetched ctx.setup.contract h).engineUse.modulesCompiled + 1 =
      (fetched ctx.setup.contract h).engineUse.modulesReleased +
        (h.cache.insert ctx.setup.contract bytecode module).2.heldCount
    rw [use, CodeCache.heldCount_insert, ledger.held]
    rfl
  compiled := Nat.le_succ _
  cached code mem := by
    rcases List.mem_cons.1 mem with rfl | mem
    · exact .inr (Nat.le_refl _)
    · exact .inl mem
  leases := rfl
  machines := (Tidy.quiet (fetched_quiet ctx.setup.contract h)).machines
  mine := List.mem_cons_self

/-- However a call comes by its code, or fails to, is in order. -/
theorem obtain_took (load : CodeLoad) (ctx : Context) (h : Host Module) :
    Ends (Took h) (fun _ => Tidy h) (obtain load ctx h) :=
  obtain_ends (fun _ _ _ => .refl h) (fun _ _ found => took_lent found)
    (fun _ _ _ quiet => .quiet quiet) fun bytecode module missing _ =>
      took_kept missing bytecode module

theorem machines_ready (ctx : Context) (h : Host Module) :
    (ready ctx h).machines = h.machines + 1 := by
  show ((h.engineUse.machinesBooted + 1 : Nat) : Int) - h.engineUse.machinesClosed = _
  unfold Host.machines
  omega

theorem machines_part (id : ContextId) (result : Except HostError Unit) (m : Machine)
    (code : CompiledCode Module) (h : Host Module) :
    (part id result m code h).machines = h.machines - 1 := by
  refine (Host.settle_machines ..).trans ?_
  show (h.engineUse.machinesBooted : Int) - (h.engineUse.machinesClosed + 1 : Nat) = _
  unfold Host.machines
  omega

theorem orderly_part {id : ContextId} {result : Except HostError Unit} {m : Machine}
    {code : CompiledCode Module} {h : Host Module} (leased : code.serial ∈ h.cache.leases) :
    Orderly h (part id result m code h) := by
  refine Orderly.trans ?_ (.giveBack leased)
  exact .of_same rfl rfl rfl

/-! ## Calls inside calls -/

/-- What a call finds in order, it leaves in order: the condition of a running call is that
everything is given back that was taken since its program was entered. -/
def tidiness : Condition Frame where
  context frame := frame.context
  Holds frame h := Tidy frame.base h
  Broken frame _ h := Tidy frame.base h

/-- A call that came by its code gives it back when it ends. -/
theorem tidy_closed (config : Config) {ctx : Context} {code : CompiledCode Module}
    {base g f : Host Module} (took : Took base code g) (tidy : Tidy (ready ctx g) f)
    (result : Except HostError Unit) (m : Machine) (outcome : Except HostError Outcome) :
    Tidy base (Manager.endCall ctx.id outcome (conclude config ctx code result m f).2) := by
  obtain ⟨contexts, concluded, -, -⟩ := conclude_eq config ctx code result m f
  have leases : f.cache.leases = code.serial :: base.cache.leases := tidy.leases.trans took.leases
  have readied : Orderly g (ready ctx g) := .of_same rfl rfl rfl
  have parted : Orderly f (part ctx.id result m code f) :=
    orderly_part (leases ▸ List.mem_cons_self)
  have closed : Tidy base (part ctx.id result m code f) := {
    toOrderly := ((took.toOrderly.trans readied).trans tidy.toOrderly).trans parted
    leases := by
      rw [part_cache]
      show f.cache.leases.erase code.serial = _
      rw [leases, List.erase_cons_head]
    machines := by
      rw [machines_part, tidy.machines, machines_ready, took.machines, Int.add_sub_cancel] }
  rw [concluded]
  exact closed.trans (.of_same rfl rfl)

theorem tidy_opens (config : Config) (load : CodeLoad) {base h : Host Module}
    (tidy : Tidy base h) (setup : CallSetup) :
    tidiness.Opens config (fun _ g => Tidy base g) load (created setup h)
      (Manager.beginCall setup h) := by
  have begun : Tidy base (Manager.beginCall setup h) := tidy.trans (.of_same rfl rfl)
  refine (obtain_took load (created setup h) (Manager.beginCall setup h)).mono ?_ ?_
  · intro code g took
    refine ⟨⟨(created setup h).id, ready (created setup h) g⟩, rfl, .refl _, ?_⟩
    intro result m f ended
    have inside : Tidy (ready (created setup h) g) f :=
      (tidiness.ended_iff fun _ _ => Iff.rfl).1 ended
    exact begun.trans (tidy_closed config took inside result m _)
  · intro e g unable
    exact (begun.trans unable).trans (.of_same rfl rfl)

theorem tidy_invariant (config : Config) : Invariant config tidiness where
  broken _ holds := holds
  aborted _ broken := broken
  marked inner tidy := tidy.trans (.quiet (.note _ inner))
  quiet quiet tidy := tidy.trans (.quiet quiet)
  called := by
    intro frame h setup _ tidy
    have counted : Tidy frame.base (invoked setup.contract h) := tidy.trans (.of_same rfl rfl)
    refine (tidy_opens config .reuse counted setup).mono fun result g tidy => ?_
    refine (Condition.returned_iff fun _ _ => Iff.rfl).2 ?_
    exact tidy.trans (.finish setup.contract result g)

end Call

/-! ## Tidy handlers -/

/-- A handler of syscalls that gives back what it takes. -/
structure TidyHandler where
  serve : SyscallHandler Module
  tidy : ∀ id request (h : Host Module), h.Tidy (runFrom (serve id request) h).2

/-- A dispatcher without an invoker takes nothing. -/
theorem Host.tidy_serve_uninvoked (id : ContextId) (request : SyscallRequest) (h : Host Module) :
    h.Tidy (runFrom (Syscall.serve none id request) h).2 := by
  by_cases plain : request.kind = .contractCall
  · cases request with
    | contractCall module contract method args =>
        obtain ⟨e, refused⟩ := answer_uninvoked_fails id module contract method args
          (h.note (.syscall id (.contractCall module contract method args) h.contexts.live))
        rw [runFrom_serve, refused]
        exact .of_same rfl rfl
    | _ => cases plain
  · have behaves := Ends.state ((behaves_serve id none plain h).mono (fun _ _ behaves => behaves)
      fun _ _ failed => failed.2)
    exact .quiet behaves.toQuiet

namespace TidyHandler

/-- A dispatcher without an invoker. -/
def alone : TidyHandler := ⟨Syscall.serve none, Host.tidy_serve_uninvoked⟩

/-- A dispatcher whose nested calls are made by a manager, at most so many levels deep. -/
def managed (config : Config) (room : Nat) : TidyHandler where
  serve := Syscall.serve (some ((Manager.scripted config).nestedCall room))
  tidy id request h := by
    have upheld := (Call.tidy_invariant config).upheld
    have start : Call.tidiness.Holds ⟨id, h⟩ h := .refl h
    exact Ends.state (upheld.serve (upheld.nestedCall room) start request)

end TidyHandler

/-! ## Programs -/

namespace Script

/-- What a step of a program leaves behind: the host in order, and the machine that of the same
module. -/
structure Task.Tidy (t u : Task) : Prop where
  host : t.host.Tidy u.host
  module : u.machine.module = t.machine.module

/-- Every step of a program is tidy, so programs are. -/
theorem Run.tidy_marches (handler : TidyHandler) :
    Marches (fun _ => True) handler.serve Task.Tidy where
  refl t := ⟨.refl t.host, rfl⟩
  trans first second := ⟨first.host.trans second.host, second.module.trans first.module⟩
  assigned t _ _ := ⟨.refl t.host, rfl⟩
  burnt t _ _ := ⟨.refl t.host, rfl⟩
  grown t _ := ⟨.refl t.host, rfl⟩
  written t line := by
    unfold Task.written
    cases t.machine.writer with
    | none => exact ⟨.refl t.host, rfl⟩
    | some writer => exact ⟨.of_same rfl rfl, rfl⟩
  served t id request _ := ⟨handler.tidy id request t.host, rfl⟩
  priced t := ⟨.refl t.host, rfl⟩
  started t _ _ := ⟨.of_same rfl rfl, rfl⟩

/-- A machine leaves its host in order, and stays that of its module. -/
theorem Machine.tidy_exec (handler : TidyHandler) (machine : Machine) (entry : String)
    (params : List Int) (h : Host Module) :
    let p := machine.exec handler.serve entry params h
    h.Tidy p.2 ∧ p.1.2.module = machine.module := by
  obtain ⟨_, host, module⟩ := Machine.exec_leads (Run.tidy_marches handler) machine entry params h
  exact ⟨host, module⟩

end Script

end ContractHost
