/-
# Nothing is left behind

A call takes a context, a lease on code, a machine, and a place among the running calls.
However it ends, and whatever calls it makes, it gives all of them back: between requests
no context is live and no call is running, every machine was closed, and the modules that
were compiled and not released are the cached ones.

The books of a host relate its counters to what it still has in hand. Every step of a
call keeps them, and inside a call the host has in hand what it had when the program was
entered.
-/

import ContractHost.Proofs.Call.Invariant
import ContractHost.Proofs.Call.Session
import ContractHost.Proofs.CodeCache.Ledger

namespace ContractHost

open Script (Machine Module)

/-- The context that a machine was bound to by an event. -/
def Event.bound? : Event → Option ContextId
  | .engine (.bind id) => some id
  | _ => none

/-- The context whose machine was given up by an event. -/
def Event.released? : Event → Option ContextId
  | .released id => some id
  | _ => none

namespace Host

variable {M : Type}

/-- The contexts that machines were bound to, latest first. -/
def boundContexts (h : Host M) : List ContextId := h.journal.filterMap Event.bound?

/-- The contexts whose machines were given up, latest first. -/
def releasedContexts (h : Host M) : List ContextId := h.journal.filterMap Event.released?

/-- The books of a host. Modules are held by the cache and by leases. A machine belongs to
the call of one context, no two machines to the same, and the machines that were not
given up are those of the running calls. -/
structure Books (h : Host M) : Prop where
  formed : h.cache.WellFormed
  compiled : h.engineUse.modulesCompiled = h.cache.compiled
  held : h.engineUse.modulesReleased + h.cache.heldCount = h.cache.compiled
  live : ∀ id ∈ h.contexts.live, id.number ≤ h.contexts.created.size
  bound : ∀ id ∈ h.boundContexts, id.number ≤ h.contexts.created.size
  once : h.boundContexts.Nodup
  paired : h.boundContexts.Perm (h.running.map (·.context) ++ h.releasedContexts)
  booted : h.engineUse.machinesBooted = h.boundContexts.length
  closed : h.engineUse.machinesClosed = h.releasedContexts.length

/-- What a call has to give back: contexts, places among the running calls, and leases.
What goes on around a host it cannot change at all. -/
structure InHand (base h : Host M) : Prop where
  live : h.contexts.live = base.contexts.live
  running : h.running = base.running
  leases : h.cache.leases = base.cache.leases
  surroundings : h.surroundings = base.surroundings

theorem filterMap_inner {events : List Event} (inner : ∀ event ∈ events, event.isInner) :
    events.filterMap Event.bound? = [] ∧ events.filterMap Event.released? = [] := by
  constructor
  all_goals
    refine List.filterMap_eq_nil_iff.2 fun event mem => ?_
    have := inner event mem
    cases event with
    | engine call => cases call <;> first | rfl | cases this
    | _ => first | rfl | cases this

theorem InHand.quiet {base h g : Host M} (inHand : InHand base h) (quiet : Quiet h g) :
    InHand base g where
  live := quiet.live.trans inHand.live
  running := quiet.running.trans inHand.running
  leases := (congrArg _ quiet.cache).trans inHand.leases
  surroundings := quiet.surroundings.trans inHand.surroundings

theorem InHand.stored {base h g : Host M} (inHand : InHand base h) {key value : Bytes}
    (stored : h.Stored key value g) : InHand base g := by
  obtain ⟨f, quiet, rfl⟩ := stored
  exact { inHand.quiet quiet with }

theorem InHand.finish {base h : Host M} (inHand : InHand base h) (contract : String)
    (result : Except HostError Outcome) : InHand base (Manager.finish contract result h) where
  live := by
    rw [Manager.finish_contexts]
    exact inHand.live
  running := by
    rw [Manager.finish_running]
    exact inHand.running
  leases := by
    rw [Manager.finish_leases]
    exact inHand.leases
  surroundings := by
    rw [Manager.finish_surroundings]
    exact inHand.surroundings

namespace Quiet

variable {h g : Host M} (quiet : Quiet h g)

include quiet

theorem size_created : g.contexts.created.size = h.contexts.created.size := by
  simpa [Contexts.setups] using congrArg Array.size quiet.setups

theorem boundContexts : g.boundContexts = h.boundContexts := by
  obtain ⟨events, same, inner⟩ := quiet.journal
  rw [Host.boundContexts, same, List.filterMap_append, (filterMap_inner inner).1]
  rfl

theorem releasedContexts : g.releasedContexts = h.releasedContexts := by
  obtain ⟨events, same, inner⟩ := quiet.journal
  rw [Host.releasedContexts, same, List.filterMap_append, (filterMap_inner inner).2]
  rfl

end Quiet

theorem size_beginCall (setup : CallSetup) (h : Host M) :
    (Manager.beginCall setup h).contexts.created.size = h.contexts.created.size + 1 :=
  Array.size_push _

namespace Books

variable {h g : Host M}

/-- The books look at some parts of a host only. -/
theorem congr (books : Books h) (cache : g.cache = h.cache) (use : g.engineUse = h.engineUse)
    (live : g.contexts.live = h.contexts.live)
    (size : g.contexts.created.size = h.contexts.created.size) (running : g.running = h.running)
    (bound : g.boundContexts = h.boundContexts)
    (released : g.releasedContexts = h.releasedContexts) : Books g where
  formed := cache ▸ books.formed
  compiled := by rw [use, cache, books.compiled]
  held := by rw [use, cache, books.held]
  live := by rw [live, size]; exact books.live
  bound := by rw [bound, size]; exact books.bound
  once := bound ▸ books.once
  paired := by rw [bound, running, released]; exact books.paired
  booted := by rw [use, bound, books.booted]
  closed := by rw [use, released, books.closed]

theorem quiet (books : Books h) (quiet : Quiet h g) : Books g :=
  books.congr quiet.cache quiet.engineUse quiet.live quiet.size_created quiet.running
    quiet.boundContexts quiet.releasedContexts

theorem stored (books : Books h) {key value : Bytes} (stored : h.Stored key value g) : Books g := by
  obtain ⟨f, quiet, rfl⟩ := stored
  exact (books.quiet quiet).congr rfl rfl rfl rfl rfl rfl rfl

/-- A change of the cache that counts what it releases. -/
theorem settle (books : Books h) {change : Option (CompiledCode M) × CodeCache M}
    (formed : change.2.WellFormed) (compiled : change.2.compiled = h.cache.compiled)
    (counted : change.2.heldCount + change.1.toList.length = h.cache.heldCount) :
    Books (h.settle change) := by
  have held := books.held
  obtain ⟨released?, cache⟩ := change
  dsimp only at compiled counted
  cases released? with
  | none =>
      exact { books with
        formed
        compiled := books.compiled.trans compiled.symm
        held := by
          show h.engineUse.modulesReleased + cache.heldCount = cache.compiled
          simp only [Option.toList_none, List.length_nil] at counted
          omega }
  | some code =>
      exact { books with
        formed
        compiled := books.compiled.trans compiled.symm
        held := by
          show h.engineUse.modulesReleased + 1 + cache.heldCount = cache.compiled
          simp only [Option.toList_some, List.length_cons, List.length_nil] at counted
          omega }

theorem evict (books : Books h) (contract : String) : Books (h.evict contract) := by
  refine books.settle (books.formed.remove contract) ?_ (books.formed.heldCount_remove contract)
  unfold CodeCache.remove
  cases h.cache.find? contract <;> rfl

theorem giveBack (books : Books h) {code : CompiledCode M} (leased : code.serial ∈ h.cache.leases) :
    Books (h.giveBack code) :=
  books.settle (books.formed.giveBack code) rfl (books.formed.heldCount_giveBack leased)

theorem finish (books : Books h) (contract : String) (result : Except HostError Outcome) :
    Books (Manager.finish contract result h) := by
  have counted : Books (Manager.counted contract result h) :=
    books.congr rfl rfl rfl rfl rfl rfl rfl
  exact Manager.finish_induction counted (counted.evict contract)

theorem beginCall (books : Books h) (setup : CallSetup) :
    Books (Manager.beginCall setup h) where
  formed := books.formed
  compiled := books.compiled
  held := books.held
  live := by
    intro id mem
    rw [size_beginCall]
    rcases List.mem_cons.1 mem with rfl | mem
    · exact Int.le_refl _
    · exact Int.le_trans (books.live id mem) (by omega)
  bound := by
    intro id mem
    rw [size_beginCall]
    exact Int.le_trans (books.bound id mem) (by omega)
  once := books.once
  paired := books.paired
  booted := books.booted
  closed := books.closed

end Books

end Host

namespace Call

open Host (Books InHand)

variable {h : Host Module} {ctx : Context}

theorem books_lent (books : Books h) {code : CompiledCode Module}
    (found : h.cache.find? ctx.setup.contract = some code) : Books (lent ctx code h) := by
  have mem := (CodeCache.find?_eq_some found).1
  exact { books with
    formed := books.formed.lease mem
    held := by
      show h.engineUse.modulesReleased + (h.cache.lease code).heldCount = h.cache.compiled
      rw [CodeCache.heldCount_lease mem]
      exact books.held }

theorem books_kept (books : Books h) (missing : h.cache.find? ctx.setup.contract = none)
    (bytecode : Bytes) (module : Module) : Books (kept ctx bytecode module h) := by
  have read := books.quiet (fetched_quiet ctx.setup.contract h)
  have same := fetched_cache ctx.setup.contract h
  exact { read with
    formed := books.formed.insert missing bytecode module
    compiled := congrArg (· + 1) (same ▸ read.compiled)
    held := by
      have held := read.held
      rw [same] at held
      show (fetched ctx.setup.contract h).engineUse.modulesReleased +
        (h.cache.insert ctx.setup.contract bytecode module).2.heldCount = h.cache.compiled + 1
      rw [CodeCache.heldCount_insert, ← Nat.add_assoc, held] }

/-- A machine is booted for a context that had none. -/
theorem books_ready (books : Books h) (known : ctx.id.number ≤ h.contexts.created.size)
    (fresh : ctx.id ∉ h.boundContexts) : Books (ready ctx h) := by
  have bound : (ready ctx h).boundContexts = ctx.id :: h.boundContexts := by
    show (preparations ctx ++ h.journal).filterMap Event.bound? = _
    unfold preparations
    cases Language.ofTag? ctx.setup.language <;> rfl
  have released : (ready ctx h).releasedContexts = h.releasedContexts := by
    show (preparations ctx ++ h.journal).filterMap Event.released? = _
    unfold preparations
    cases Language.ofTag? ctx.setup.language <;> rfl
  exact {
    formed := books.formed
    compiled := books.compiled
    held := books.held
    live := books.live
    bound := by
      rw [bound]
      exact List.forall_mem_cons.2 ⟨known, books.bound⟩
    once := by
      rw [bound]
      exact List.nodup_cons.2 ⟨fresh, books.once⟩
    paired := by
      rw [bound, released]
      exact books.paired.cons ctx.id
    booted := by
      rw [bound]
      exact congrArg (· + 1) books.booted
    closed := released ▸ books.closed }

/-- A machine is given up together with the place of its call among the running ones. -/
theorem books_part (books : Books h) {id : ContextId} {result : Except HostError Unit}
    {m : Machine} {code : CompiledCode Module} {call : RunningCall} {rest : List RunningCall}
    (listed : h.running = call :: rest) (named : call.context = id)
    (leased : code.serial ∈ h.cache.leases) :
    Books { part id result m code h with running := rest } := by
  let closed : Host Module :=
    { (h.note (.measured id result (usage m))).addLines m.close.1 with
      engineUse.machinesClosed := h.engineUse.machinesClosed + 1
      running := rest
      journal :=
        .released id :: .engine .closeMachine :: .measured id result (usage m) :: h.journal }
  have released : closed.releasedContexts = id :: h.releasedContexts := rfl
  have settled : Books closed := {
    formed := books.formed
    compiled := books.compiled
    held := books.held
    live := books.live
    bound := books.bound
    once := books.once
    paired := by
      rw [released]
      have paired := books.paired
      rw [listed, List.map_cons, named] at paired
      exact paired.trans List.perm_middle.symm
    booted := books.booted
    closed := by
      rw [released]
      exact congrArg (· + 1) books.closed }
  have parted : { part id result m code h with running := rest } = closed.giveBack code :=
    Host.with_running_settle _ _ rest
  rw [parted]
  exact settled.giveBack leased

/-- Once a call has ended, its context is not live and the call not running. -/
theorem books_endCall {id : ContextId} (result : Except HostError Outcome)
    (books : Books { h with running := h.running.filter fun call => call.context != id }) :
    Books (Manager.endCall id result h) :=
  { books with live := fun id mem => books.live id (List.mem_filter.1 mem).1 }

/-- A context that nothing in hand has to do with. -/
structure New (base : Host Module) (id : ContextId) : Prop where
  live : id ∉ base.contexts.live
  running : ∀ call ∈ base.running, call.context ≠ id

/-- Ending the call of a new context takes nothing else out. -/
theorem New.filter_running {base : Host Module} {id : ContextId} (new : New base id) :
    base.running.filter (fun call => call.context != id) = base.running :=
  List.filter_eq_self.2 fun call mem => bne_iff_ne.2 (new.running call mem)

theorem New.filter_live {base : Host Module} {id : ContextId} (new : New base id) :
    (id :: base.contexts.live).filter (fun other => other != id) = base.contexts.live :=
  Contexts.filter_latest new.live

/-- A call that is over has given back what it took. -/
theorem balance_close (config : Config) {base f : Host Module} {code : CompiledCode Module}
    (new : New base ctx.id) (books : Books f)
    (live : f.contexts.live = ctx.id :: base.contexts.live) {call : RunningCall}
    (running : f.running = call :: base.running) (named : call.context = ctx.id)
    (leases : f.cache.leases = code.serial :: base.cache.leases)
    (surroundings : f.surroundings = base.surroundings) (result : Except HostError Unit)
    (m : Machine) (outcome : Except HostError Outcome) :
    let g := Manager.endCall ctx.id outcome (conclude config ctx code result m f).2
    Books g ∧ InHand base g := by
  obtain ⟨contexts, concluded, sameLive, sameSetups⟩ := conclude_eq config ctx code result m f
  have size : contexts.created.size = f.contexts.created.size := by
    simpa [Contexts.setups] using congrArg Array.size sameSetups
  have gone : (call :: base.running).filter (fun call => call.context != ctx.id) = base.running := by
    rw [List.filter_cons_of_neg (by simp [named]), new.filter_running]
  have leased : code.serial ∈ f.cache.leases := leases ▸ List.mem_cons_self
  dsimp only
  rw [concluded]
  constructor
  · refine books_endCall outcome ?_
    show Books { part ctx.id result m code f with
      contexts, running := (part ctx.id result m code f).running.filter _ }
    rw [part_running, running, gone]
    refine (books_part books running named leased).congr rfl rfl ?_ ?_ rfl rfl rfl
    · rw [part_contexts]
      exact sameLive
    · rw [part_contexts]
      exact size
  · constructor
    · show contexts.live.filter _ = _
      rw [sameLive, live, new.filter_live]
    · show (part ctx.id result m code f).running.filter _ = _
      rw [part_running, running, gone]
    · show (part ctx.id result m code f).cache.leases = _
      rw [part_cache]
      show f.cache.leases.erase code.serial = _
      rw [leases, List.erase_cons_head]
    · show (part ctx.id result m code f).surroundings = _
      rw [part_surroundings, surroundings]

/-- Inside a call the books are right, and in hand is what was when its program was
entered. -/
def balance : Condition Frame where
  context frame := frame.context
  Holds frame h := Books h ∧ InHand frame.base h
  Broken frame _ h := Books h ∧ InHand frame.base h

/-- The number of a context that is created was never given out. -/
theorem number_created (books : Books h) (setup : CallSetup) :
    (created setup h).id ∉ h.boundContexts ∧ (created setup h).id ∉ h.contexts.live := by
  have above {ids : List ContextId} (known : ∀ id ∈ ids, id.number ≤ h.contexts.created.size) :
      (created setup h).id ∉ ids := by
    intro mem
    have below : ((h.contexts.created.size + 1 : Nat) : Int) ≤ h.contexts.created.size :=
      known _ mem
    omega
  exact ⟨above books.bound, above books.live⟩

theorem new_created {base : Host Module} (books : Books h) (inHand : InHand base h)
    (setup : CallSetup) : New base (created setup h).id := by
  obtain ⟨unbound, notLive⟩ := number_created books setup
  refine ⟨inHand.live ▸ notLive, fun call mem same => unbound ?_⟩
  refine books.paired.mem_iff.2 (List.mem_append_left _ ?_)
  rw [inHand.running, ← same]
  exact List.mem_map_of_mem mem

/-- A call that does not come by its code has taken a context only. -/
theorem balance_failed {base g : Host Module} (books : Books h) (inHand : InHand base h)
    {setup : CallSetup} (quiet : (Manager.beginCall setup h).Quiet g)
    (outcome : Except HostError Outcome) :
    let f := Manager.endCall (created setup h).id outcome g
    Books f ∧ InHand base f := by
  have new := new_created books inHand setup
  have running : g.running = base.running := quiet.running.trans inHand.running
  constructor
  · refine books_endCall _ ?_
    rw [running, new.filter_running, ← running]
    exact (books.beginCall setup).quiet quiet
  · constructor
    · show g.contexts.live.filter _ = _
      rw [quiet.live, ← new.filter_live, ← inHand.live]
      rfl
    · show g.running.filter _ = _
      rw [running, new.filter_running]
    · exact (congrArg _ quiet.cache).trans inHand.leases
    · exact quiet.surroundings.trans inHand.surroundings

/-- A call that has come by its code is made ready, and gives everything back. -/
theorem balance_opened (config : Config) {base g : Host Module} {setup : CallSetup}
    {code : CompiledCode Module} (books : Books h) (inHand : InHand base h) (obtained : Books g)
    (live : g.contexts.live = (created setup h).id :: h.contexts.live)
    (size : g.contexts.created.size = h.contexts.created.size + 1)
    (bound : g.boundContexts = h.boundContexts) (running : g.running = h.running)
    (leases : g.cache.leases = code.serial :: h.cache.leases)
    (surroundings : g.surroundings = h.surroundings) :
    let ctx := created setup h
    ∃ frame, balance.context frame = ctx.id ∧ balance.Holds frame (ready ctx g) ∧
      ∀ result m f, balance.Ended frame result f →
        let p := conclude config ctx code result m f
        let f' := Manager.endCall ctx.id p.1 p.2
        Books f' ∧ InHand base f' := by
  intro ctx
  have known : ctx.id.number ≤ g.contexts.created.size := size ▸ Int.le_refl _
  have unbound : ctx.id ∉ g.boundContexts := bound ▸ (number_created books setup).1
  refine ⟨⟨ctx.id, ready ctx g⟩, rfl, ⟨books_ready obtained known unbound, rfl, rfl, rfl, rfl⟩, ?_⟩
  intro result m f ended
  obtain ⟨books', inHand'⟩ := (balance.ended_iff fun _ _ => Iff.rfl).1 ended
  have live' : f.contexts.live = ctx.id :: base.contexts.live := by
    rw [← inHand.live]
    exact inHand'.live.trans live
  have running' : f.running = ⟨ctx.id, setup.contract, g.signals.next⟩ :: base.running := by
    rw [← inHand.running, ← running]
    exact inHand'.running
  have leases' : f.cache.leases = code.serial :: base.cache.leases := by
    rw [← inHand.leases]
    exact inHand'.leases.trans leases
  exact balance_close config (new_created books inHand setup) books' live' running' rfl leases'
    (inHand'.surroundings.trans (surroundings.trans inHand.surroundings)) result m _

/-- A call gives back what it takes, however it comes by its code. -/
theorem balance_opens (config : Config) (load : CodeLoad) {setup : CallSetup} {base : Host Module}
    (books : Books h) (inHand : InHand base h) :
    balance.Opens config (fun _ g => Books g ∧ InHand base g) load (created setup h)
      (Manager.beginCall setup h) := by
  have begun := books.beginCall setup
  have size := Host.size_beginCall setup h
  refine obtain_ends ?_ ?_ ?_ ?_
  · intro code _ _
    exact balance_failed books inHand (.refl _) _
  · intro code _ found
    exact balance_opened config books inHand (books_lent begun found) rfl size rfl rfl rfl rfl
  · intro e g _ quiet
    exact balance_failed books inHand quiet _
  · intro bytecode module missing _
    have read := fetched_quiet setup.contract (Manager.beginCall setup h)
    exact balance_opened config books inHand (books_kept begun missing bytecode module) read.live
      (read.size_created.trans size) read.boundContexts read.running rfl read.surroundings

theorem balance_invariant (config : Config) : Invariant config balance where
  broken _ holds := holds
  aborted _ broken := broken
  marked inner := fun ⟨books, inHand⟩ =>
    ⟨books.quiet (.note _ inner), inHand.quiet (.note _ inner)⟩
  quiet quiet := fun ⟨books, inHand⟩ => ⟨books.quiet quiet, inHand.quiet quiet⟩
  called := by
    rintro frame h setup _ ⟨books, inHand⟩
    have counted : Books (invoked setup.contract h) := books.congr rfl rfl rfl rfl rfl rfl rfl
    have inHand' : InHand frame.base (invoked setup.contract h) := { inHand with }
    refine (balance_opens config .reuse counted inHand').mono fun result g ⟨books, inHand⟩ => ?_
    refine (Condition.returned_iff fun _ _ => Iff.rfl).2 ⟨books.finish setup.contract result, ?_⟩
    exact inHand.finish setup.contract result

/-- Serving a request keeps the books right, and what is in hand. -/
theorem balance_persists (config : Config) (base : Host Module) :
    Persists config (fun g => Books g ∧ InHand base g) fun _ g => Books g ∧ InHand base g where
  deployed _ := fun ⟨books, inHand⟩ => ⟨books.congr rfl rfl rfl rfl rfl rfl rfl, { inHand with }⟩
  invoked _ := fun ⟨books, inHand⟩ => ⟨books.congr rfl rfl rfl rfl rfl rfl rfl, { inHand with }⟩
  quiet quiet := fun ⟨books, inHand⟩ => ⟨books.quiet quiet, inHand.quiet quiet⟩
  stored stored := fun ⟨books, inHand⟩ => ⟨books.stored stored, inHand.stored stored⟩
  ran load _ := fun ⟨books, inHand⟩ =>
    (balance_invariant config).run config.maxCallDepth.toNat
      (balance_opens config load books inHand)
  holds := id
  finish contract result := fun ⟨books, inHand⟩ =>
    ⟨books.finish contract result, inHand.finish contract result⟩
  abort _ _ := fun ⟨books, inHand⟩ => ⟨books.congr rfl rfl rfl rfl rfl rfl rfl, { inHand with }⟩

end Call

/-- After a session the books are right and nothing is in hand. -/
theorem session_books (config : Config) (store : Store) (surroundings : Surroundings)
    (requests : List HostRequest) :
    let h := (Manager.scripted config).session (.fresh store surroundings) requests
    h.Books ∧ (Host.fresh store surroundings).InHand h := by
  have start : (Host.fresh store surroundings).Books := {
    formed := .empty
    compiled := rfl
    held := rfl
    live := nofun
    bound := nofun
    once := .nil
    paired := .nil
    booted := rfl
    closed := rfl }
  exact (Call.balance_persists config _).session ⟨start, rfl, rfl, rfl, rfl⟩ requests

/-- A host that served any requests, whatever happened around its store, has given back all
that the calls took. No context is live and no call is running. Every machine that was
booted was closed: each belonged to the call of one context, and was given up once. The
modules that were compiled are those that were released and the cached ones, one for each
cached contract. -/
theorem session_leaves_nothing (config : Config) (store : Store) (surroundings : Surroundings)
    (requests : List HostRequest) :
    let h := (Manager.scripted config).session (.fresh store surroundings) requests
    h.contexts.live = [] ∧ h.running = [] ∧
      h.engineUse.machinesBooted = h.engineUse.machinesClosed ∧
      h.engineUse.machinesBooted = h.boundContexts.length ∧
      h.boundContexts.Perm h.releasedContexts ∧ h.releasedContexts.Nodup ∧
      h.engineUse.modulesCompiled = h.engineUse.modulesReleased + h.cache.size ∧
      (h.cache.entries.map (·.name)).Nodup := by
  intro h
  obtain ⟨books, inHand⟩ : h.Books ∧ (Host.fresh store surroundings).InHand h :=
    session_books config store surroundings requests
  have paired : h.boundContexts.Perm h.releasedContexts := by
    have paired := books.paired
    rw [inHand.running] at paired
    exact paired
  have machines : h.engineUse.machinesBooted = h.engineUse.machinesClosed := by
    rw [books.booted, books.closed, paired.length_eq]
  have modules : h.engineUse.modulesCompiled = h.engineUse.modulesReleased + h.cache.size := by
    rw [books.compiled, ← books.held, books.formed.heldCount_of_leases_nil inHand.leases]
  exact ⟨inHand.live, inHand.running, machines, books.booted, paired,
    paired.nodup_iff.1 books.once, modules, books.formed.names⟩

end ContractHost
