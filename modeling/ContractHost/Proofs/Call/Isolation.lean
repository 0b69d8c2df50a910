/-
# Contracts are isolated from each other

Two hosts may differ in whatever belongs to one contract: in its code and its description, in
its data, and in the code that is cached for it. As long as no program calls this contract,
the hosts serve requests for other contracts alike. No program can tell the difference, and
none makes any: what belongs to the contract stays as it is, on either host.

A program reaches the store by keys of data of its own contract, whose name its context has.
Contexts have valid names, and the keys of contracts with valid names never meet.
-/

import ContractHost.Proofs.Call.Balance
import ContractHost.Proofs.Call.Lockstep
import ContractHost.Proofs.CodeCache.Apart
import ContractHost.Proofs.Store.Agreement
import ContractHost.Proofs.Store.Keys

namespace ContractHost

open Script (Machine Module)

/-- True of the dispatch of a call of a contract. -/
def Event.calls (contract : String) : Event → Bool
  | .syscall _ (.contractCall _ callee _ _) _ => callee == contract
  | _ => false

namespace Host

variable {M : Type}

/-- A host without its store, its code cache and its journal. -/
def bare (h : Host M) : Host M := { h with store := .memory .empty, cache := {}, journal := [] }

/-- A change that treats what remains of a host alike keeps it alike. -/
theorem bare_congr {f : Host M → Host M} (acts : ∀ h, (f h).bare = (f h.bare).bare) {h k : Host M}
    (same : h.bare = k.bare) : (f h).bare = (f k).bare := by
  rw [acts h, acts k, same]

/-- Two hosts over stores in memory agree on everything but what belongs to a contract: its
keys, and the code that is cached for it. Their journals may differ, too. -/
structure AgreeBut (contract : String) (h k : Host M) : Prop where
  bare : h.bare = k.bare
  cache : h.cache.without contract = k.cache.without contract
  store : h.store.AgreeOn (fun key => ¬ StoreKey.IsOf contract key) k.store

/-- What belongs to a contract is as it was. -/
structure Spares (contract : String) (h g : Host M) : Prop where
  cache : g.cache.codeOf contract = h.cache.codeOf contract
  store : h.store.AgreeOn (StoreKey.IsOf contract) g.store

namespace AgreeBut

variable {contract : String} {h k : Host M} (agree : h.AgreeBut contract k)

include agree

theorem contexts : h.contexts = k.contexts :=
  show h.bare.contexts = k.bare.contexts from congrArg _ agree.bare

theorem signals : h.signals = k.signals :=
  show h.bare.signals = k.bare.signals from congrArg _ agree.bare

theorem surroundings : h.surroundings = k.surroundings :=
  show h.bare.surroundings = k.bare.surroundings from congrArg _ agree.bare

theorem accesses : h.accesses = k.accesses :=
  show h.bare.accesses = k.bare.accesses from congrArg _ agree.bare

/-- The same code is cached for other contracts. -/
theorem find? {other : String} (apart : other ≠ contract) :
    h.cache.find? other = k.cache.find? other := by
  rw [← CodeCache.find?_without apart, agree.cache, CodeCache.find?_without apart]

theorem compiled : h.cache.compiled = k.cache.compiled :=
  show (h.cache.without contract).compiled = (k.cache.without contract).compiled from
    congrArg _ agree.cache

end AgreeBut

/-- The live contexts are those of contracts with valid names, and of one contract none. -/
def Outside (contract : String) (cs : Contexts) : Prop :=
  ∀ id ∈ cs.live, ∀ setup, cs.setups[Contexts.place id]? = some setup →
    Naming.validate setup.contract = .ok () ∧ setup.contract ≠ contract

/-- Since two earlier moments the same has happened on two hosts, and nothing of it has to do
with a contract. They agree on everything but what belongs to it, and that is as it was. -/
structure Isolated (contract : String) (base base' h k : Host M) : Prop where
  agree : h.AgreeBut contract k
  first : base.Spares contract h
  second : base'.Spares contract k
  told : ∃ events, h.journal = events ++ base.journal ∧ k.journal = events ++ base'.journal
  outside : Outside contract h.contexts
  separate : h.cache.Separate contract
  separate' : k.cache.Separate contract

section Outside

variable {contract : String} {cs cs' : Contexts} {id : ContextId} {setup : CallSetup}

theorem Outside.of_find? {ctx : Context} (outside : Outside contract cs)
    (found : cs.find? id = some ctx) :
    Naming.validate ctx.setup.contract = .ok () ∧ ctx.setup.contract ≠ contract := by
  refine outside id (Contexts.mem_live_of_find? found) ctx.setup ?_
  obtain ⟨there, _⟩ := Contexts.held?_eq_some.1 (Contexts.held?_of_find? found)
  rw [Contexts.setups, Array.getElem?_map, there]
  rfl

theorem Outside.create (outside : Outside contract cs)
    (valid : Naming.validate setup.contract = .ok ()) (apart : setup.contract ≠ contract) :
    Outside contract (cs.create setup) := by
  intro id mem other there
  rw [Contexts.setups_create, Array.getElem?_push] at there
  split at there
  · cases there
    exact ⟨valid, apart⟩
  · next earlier =>
    refine outside id ?_ other there
    refine (List.mem_cons.1 mem).resolve_left fun new => earlier ?_
    rw [new, Contexts.place_next, Contexts.setups, Array.size_map]

theorem Outside.of_live_subset (outside : Outside contract cs) (live : cs'.live ⊆ cs.live)
    (setups : cs'.setups = cs.setups) : Outside contract cs' :=
  fun id mem setup there => outside id (live mem) setup (setups ▸ there)

end Outside

namespace Isolated

variable {contract : String} {base base' h k g g' : Host M}
  (same : Isolated contract base base' h k)

include same

/-- The same happens to both hosts, and not to their stores and caches. -/
theorem step (events : List Event) (bare : g.bare = g'.bare) (outside : Outside contract g.contexts)
    (journal : g.journal = events ++ h.journal) (journal' : g'.journal = events ++ k.journal)
    (cache : g.cache = h.cache) (cache' : g'.cache = k.cache) (store : g.store = h.store)
    (store' : g'.store = k.store) : Isolated contract base base' g g' := by
  obtain ⟨⟨_, agree, stored⟩, ⟨code, kept⟩, ⟨code', kept'⟩, ⟨earlier, told, told'⟩, _, separate,
    separate'⟩ := same
  rw [← cache] at agree code separate
  rw [← cache'] at agree code' separate'
  rw [← store] at stored kept
  rw [← store'] at stored kept'
  refine ⟨⟨bare, agree, stored⟩, ⟨code, kept⟩, ⟨code', kept'⟩, ⟨events ++ earlier, ?_, ?_⟩, outside,
    separate, separate'⟩
  · rw [journal, told, List.append_assoc]
  · rw [journal', told', List.append_assoc]

theorem note (event : Event) : Isolated contract base base' (h.note event) (k.note event) :=
  same.step [event] (bare_congr (f := Host.note event) (fun _ => rfl) same.agree.bare) same.outside
    rfl rfl rfl rfl rfl rfl

theorem addLines (lines : List LogLine) :
    Isolated contract base base' (h.addLines lines) (k.addLines lines) :=
  same.step [] (bare_congr (f := Host.addLines lines) (fun _ => rfl) same.agree.bare) same.outside
    rfl rfl rfl rfl rfl rfl

theorem update (id : ContextId) {change : Context → Context}
    (keeps : ∀ ctx, (change ctx).setup = ctx.setup) :
    Isolated contract base base' { h with contexts := h.contexts.update id change }
      { k with contexts := k.contexts.update id change } := by
  refine same.step [] (bare_congr
    (f := fun g => { g with contexts := g.contexts.update id change }) (fun _ => rfl)
    same.agree.bare) ?_ rfl rfl rfl rfl rfl rfl
  exact same.outside.of_live_subset (List.Subset.refl _) (h.contexts.setups_update id keeps)

/-- What happens before an access is the same on both hosts: the same aborts arrive. -/
theorem beforeAccess (op : StoreOp) (key : Bytes) :
    Isolated contract base base' (h.beforeAccess op key) (k.beforeAccess op key) := by
  have arrive (aborts : List (String × String)) {h k : Host M}
      (same : Isolated contract base base' h k) :
      Isolated contract base base' (aborts.foldl receiveAbort h) (aborts.foldl receiveAbort k) := by
    induction aborts generalizing h k with
    | nil => exact same
    | cons abort rest ih =>
        refine ih ?_
        have running : h.running = k.running :=
          show h.bare.running = k.bare.running from congrArg _ same.agree.bare
        have found : [.abort abort.1 abort.2 (k.runningOf abort.1).length k.contexts.size] =
            [Event.abort abort.1 abort.2 (h.runningOf abort.1).length h.contexts.size] := by
          unfold runningOf
          rw [running, same.agree.contexts]
        exact same.step _
          (bare_congr (f := fun g => receiveAbort g abort) (fun _ => rfl) same.agree.bare)
          same.outside rfl (congrArg (· ++ k.journal) found) rfl rfl rfl rfl
  have arriving : k.surroundings.aborts k.accesses op key =
      h.surroundings.aborts h.accesses op key := by
    rw [same.agree.surroundings, same.agree.accesses]
  unfold Host.beforeAccess
  dsimp only
  rw [arriving]
  refine arrive _ (same.step [.access op key] ?_ same.outside rfl rfl rfl rfl rfl rfl)
  exact bare_congr (f := fun g => { g.note (.access op key) with accesses := g.accesses + 1 })
    (fun _ => rfl) same.agree.bare

/-- Both stores change, in agreement, and not where the contract keeps what belongs to it. -/
theorem restore {s s' : Store}
    (agree : s.AgreeOn (fun key => ¬ StoreKey.IsOf contract key) s')
    (kept : base.store.AgreeOn (StoreKey.IsOf contract) s)
    (kept' : base'.store.AgreeOn (StoreKey.IsOf contract) s') :
    Isolated contract base base' { h with store := s } { k with store := s' } where
  agree := { same.agree with store := agree }
  first := { same.first with store := kept }
  second := { same.second with store := kept' }
  told := same.told
  outside := same.outside
  separate := same.separate
  separate' := same.separate'

theorem access {α : Type} {op : StoreOp} {key : Bytes} {use : Store → α × Store}
    (answer : (use h.store).1 = (use k.store).1)
    (agree : (use h.store).2.AgreeOn (fun key => ¬ StoreKey.IsOf contract key) (use k.store).2)
    (kept : base.store.AgreeOn (StoreKey.IsOf contract) (use h.store).2)
    (kept' : base'.store.AgreeOn (StoreKey.IsOf contract) (use k.store).2) :
    Both (fun x y g g' => x = y ∧ Isolated contract base base' g g')
      (fun _ => Isolated contract base base')
      (runFrom (HostM.access op key use) h) (runFrom (HostM.access op key use) k) := by
  have before := same.beforeAccess op key
  rw [runFrom_access, runFrom_access, ← same.agree.surroundings, ← same.agree.accesses]
  cases h.surroundings.fault? h.accesses op key with
  | some fault => exact ⟨rfl, before⟩
  | none => exact ⟨answer, before.restore agree kept kept'⟩

section Keys

variable {key : Bytes} (other : ¬ StoreKey.IsOf contract key)

include other

/-- A key that does not belong to the contract is read alike. -/
theorem getKey : Both (fun x y g g' => x = y ∧ Isolated contract base base' g g')
    (fun _ => Isolated contract base base')
    (runFrom (HostM.getKey key) h) (runFrom (HostM.getKey key) k) := by
  obtain ⟨unread, unread'⟩ := same.agree.store.get?_store key
  refine same.access (same.agree.store.get? other) ?_ ?_ ?_
  · rw [unread, unread']
    exact same.agree.store
  · rw [unread]
    exact same.first.store
  · rw [unread']
    exact same.second.store

theorem putKey (value : Bytes) : Both (fun x y g g' => x = y ∧ Isolated contract base base' g g')
    (fun _ => Isolated contract base base')
    (runFrom (HostM.putKey key value) h) (runFrom (HostM.putKey key value) k) :=
  same.access rfl (same.agree.store.put_both key value) (same.first.store.put other value)
    (same.second.store.put other value)

theorem deleteKey : Both (fun x y g g' => x = y ∧ Isolated contract base base' g g')
    (fun _ => Isolated contract base base')
    (runFrom (HostM.deleteKey key) h) (runFrom (HostM.deleteKey key) k) :=
  same.access rfl (same.agree.store.delete_both key) (same.first.store.delete other)
    (same.second.store.delete other)

end Keys

/-! ## Code -/

/-- Both caches change, in agreement, and not in the code of the contract. What is released
by that is released on both hosts. -/
theorem settle (change change' : Option (CompiledCode M) × CodeCache M)
    (released : change.1 = change'.1)
    (agree : change.2.without contract = change'.2.without contract)
    (kept : change.2.codeOf contract = h.cache.codeOf contract)
    (kept' : change'.2.codeOf contract = k.cache.codeOf contract)
    (separate : change.2.Separate contract) (separate' : change'.2.Separate contract) :
    Isolated contract base base' (h.settle change) (k.settle change') := by
  have changed : Isolated contract base base' { h with cache := change.2 }
      { k with cache := change'.2 } := {
    agree := { same.agree with cache := agree }
    first := { same.first with cache := kept.trans same.first.cache }
    second := { same.second with cache := kept'.trans same.second.cache }
    told := same.told
    outside := same.outside
    separate
    separate' }
  unfold Host.settle
  rw [released]
  cases change'.1 with
  | none => exact changed
  | some _ =>
      exact changed.step [.engine .releaseModule] (bare_congr (f := Host.releaseModule)
        (fun _ => rfl) changed.agree.bare) changed.outside rfl rfl rfl rfl rfl rfl

/-- The code of another contract is dropped on both hosts. -/
theorem evict {other : String} (apart : other ≠ contract) :
    Isolated contract base base' (h.evict other) (k.evict other) := by
  have removed := CodeCache.remove_without apart same.separate
  rw [same.agree.cache, CodeCache.remove_without apart same.separate'] at removed
  obtain ⟨released, left⟩ := Prod.mk.inj removed
  exact same.settle _ _ released.symm left.symm (CodeCache.codeOf_remove apart)
    (CodeCache.codeOf_remove apart) (same.separate.remove apart) (same.separate'.remove apart)

end Isolated

end Host

/-! ## The stages of a call -/

namespace Call

open Host (Isolated Outside bare_congr)

variable {contract : String} {base base' h k : Host Module}

namespace Isolated

variable (same : Isolated contract base base' h k)

include same

theorem invoked (other : String) :
    Isolated contract base base' (invoked other h) (invoked other k) :=
  same.step [.started other] (bare_congr (f := Call.invoked other) (fun _ => rfl) same.agree.bare)
    same.outside rfl rfl rfl rfl rfl rfl

theorem deploying (other : String) :
    Isolated contract base base' (deploying other h) (deploying other k) :=
  same.step [.started other] (bare_congr (f := Call.deploying other) (fun _ => rfl)
    same.agree.bare) same.outside rfl rfl rfl rfl rfl rfl

/-- A call of another contract begins. -/
theorem beginCall (named : Naming.validate contract = .ok ()) {setup : CallSetup}
    (valid : Naming.validate setup.contract = .ok ()) (apart : setup.contract ≠ contract) :
    Isolated contract base base' (Manager.beginCall setup h) (Manager.beginCall setup k) := by
  have described := same.agree.store.peek? (StoreKey.not_isOf_description named apart)
  refine same.step
    [.began h.contexts.next (h.store.peek? (StoreKey.description setup.contract))]
    (bare_congr (f := Manager.beginCall setup) (fun _ => rfl) same.agree.bare)
    (same.outside.create valid apart) rfl ?_ rfl rfl rfl rfl
  rw [described, same.agree.contexts]
  rfl

theorem ready (ctx : Context) : Isolated contract base base' (ready ctx h) (ready ctx k) :=
  same.step (preparations ctx) (bare_congr (f := Call.ready ctx) (fun _ => rfl) same.agree.bare)
    same.outside rfl rfl rfl rfl rfl rfl

theorem endCall (id : ContextId) (result : Except HostError Outcome) :
    Isolated contract base base' (Manager.endCall id result h) (Manager.endCall id result k) := by
  refine same.step [.ended id result] (bare_congr (f := Manager.endCall id result) (fun _ => rfl)
    same.agree.bare) ?_ rfl rfl rfl rfl rfl rfl
  exact same.outside.of_live_subset List.filter_sublist.subset rfl

/-- The result of a call of another contract is counted. -/
theorem finish {other : String} (apart : other ≠ contract) (result : Except HostError Outcome) :
    Isolated contract base base' (Manager.finish other result h)
      (Manager.finish other result k) := by
  have counted : Isolated contract base base' (Manager.counted other result h)
      (Manager.counted other result k) :=
    same.step [.finished other result] (bare_congr (f := Manager.counted other result)
      (fun _ => rfl) same.agree.bare) same.outside rfl rfl rfl rfl rfl rfl
  rw [Manager.finish_eq, Manager.finish_eq]
  split
  · exact counted.evict apart
  · exact counted

/-! ## The code of a call -/

/-- Bytecode is read. -/
theorem fetched (other : String) :
    Isolated contract base base' (fetched other h) (fetched other k) := by
  obtain ⟨unread, unread'⟩ := same.agree.store.get?_store (StoreKey.code other)
  refine (same.beforeAccess .get (StoreKey.code other)).restore ?_ ?_ ?_
  · rw [unread, unread']
    exact same.agree.store
  · rw [unread]
    exact same.first.store
  · rw [unread']
    exact same.second.store

theorem lent (ctx : Context) (code : CompiledCode Module) :
    Isolated contract base base' (lent ctx code h) (lent ctx code k) := by
  have leased : Isolated contract base base' { h with cache := h.cache.lease code }
      { k with cache := k.cache.lease code } :=
    same.settle (none, h.cache.lease code) (none, k.cache.lease code) rfl
      (congrArg (CodeCache.lease · code) same.agree.cache) rfl rfl same.separate same.separate'
  exact leased.note _

/-- The code of another contract is compiled and cached. -/
theorem kept {ctx : Context} (apart : ctx.setup.contract ≠ contract) (bytecode : Bytes)
    (module : Module) :
    Isolated contract base base' (kept ctx bytecode module h) (kept ctx bytecode module k) := by
  have read := fetched same ctx.setup.contract
  have cache := (fetched_quiet ctx.setup.contract h).cache
  have cache' := (fetched_quiet ctx.setup.contract k).cache
  have compiled := read.settle
    (none, (h.cache.insert ctx.setup.contract bytecode module).2)
    (none, (k.cache.insert ctx.setup.contract bytecode module).2) rfl
    (by rw [CodeCache.without_insert apart, CodeCache.without_insert apart, same.agree.cache])
    (by rw [CodeCache.codeOf_insert apart, cache])
    (by rw [CodeCache.codeOf_insert apart, cache'])
    (same.separate.insert apart bytecode module) (same.separate'.insert apart bytecode module)
  exact compiled.step [.obtained ctx.id ctx.setup.contract (Digest.hexSha256 bytecode)]
    (bare_congr (f := fun g => { g with
      engineUse.modulesCompiled := g.engineUse.modulesCompiled + 1 }) (fun _ => rfl)
      compiled.agree.bare) compiled.outside rfl rfl rfl rfl rfl rfl

/-! ## The end of a program -/

/-- A call that ran on code that is none of the contract's gives it back. -/
theorem part {code : CompiledCode Module}
    (foreign : h.cache.Foreign contract code.serial)
    (foreign' : k.cache.Foreign contract code.serial) (id : ContextId)
    (result : Except HostError Unit) (m : Machine) :
    Isolated contract base base' (part id result m code h) (part id result m code k) := by
  have closed : Isolated contract base base'
      { (h.note (.measured id result (usage m))).addLines m.close.1 with
        engineUse.machinesClosed := h.engineUse.machinesClosed + 1
        journal := .released id :: .engine .closeMachine :: .measured id result (usage m) ::
          h.journal }
      { (k.note (.measured id result (usage m))).addLines m.close.1 with
        engineUse.machinesClosed := k.engineUse.machinesClosed + 1
        journal := .released id :: .engine .closeMachine :: .measured id result (usage m) ::
          k.journal } :=
    same.step [.released id, .engine .closeMachine, .measured id result (usage m)]
      (bare_congr (f := fun g => { g.addLines m.close.1 with
        engineUse.machinesClosed := g.engineUse.machinesClosed + 1 }) (fun _ => rfl)
        same.agree.bare) same.outside rfl rfl rfl rfl rfl rfl
  have given := CodeCache.giveBack_without foreign
  rw [same.agree.cache, CodeCache.giveBack_without foreign'] at given
  obtain ⟨released, left⟩ := Prod.mk.inj given
  exact closed.settle _ _ released.symm left.symm rfl rfl same.separate same.separate'

/-- The result of a call is told by what the hosts agree on. -/
theorem conclude {code : CompiledCode Module}
    (foreign : h.cache.Foreign contract code.serial)
    (foreign' : k.cache.Foreign contract code.serial) (config : Config)
    (ctx : Context) (result : Except HostError Unit) (m : Machine) :
    let p := conclude config ctx code result m h
    let q := conclude config ctx code result m k
    p.1 = q.1 ∧ Isolated contract base base' p.2 q.2 := by
  have parted := part same foreign foreign' ctx.id result m
  unfold Call.conclude
  dsimp only
  revert parted
  generalize Call.part ctx.id result m code h = g
  generalize Call.part ctx.id result m code k = g'
  intro parted
  cases result with
  | error e => exact ⟨rfl, parted⟩
  | ok _ =>
      dsimp only
      rw [← parted.agree.contexts]
      obtain ⟨live, setups⟩ := judged_quiet config g.contexts ctx (usage m)
      generalize judged config g.contexts ctx (usage m) = contexts at live setups
      refine ⟨rfl, parted.step [] (bare_congr (f := fun g => { g with contexts }) (fun _ => rfl)
        parted.agree.bare) ?_ rfl rfl rfl rfl rfl rfl⟩
      exact parted.outside.of_live_subset (live ▸ List.Subset.refl _) setups

end Isolated

/-! ## Calls in step -/

/-- A program asks for a call of a contract. -/
def calling (contract : String) (base : List Event) : Excuse where
  Given journal := ∃ events, journal = events ++ base ∧ ∃ event ∈ events, event.calls contract
  lasts := by
    rintro early events ⟨later, rfl⟩ ⟨between, rfl, event, mem, calls⟩
    exact ⟨later ++ between, (List.append_assoc ..).symm, event, List.mem_append_right _ mem, calls⟩

/-- Inside two runs of a call, as long as no program calls a contract. -/
def isolation (contract : String) (base base' : Host Module) : Relation ContextId where
  context id := id
  Same _ := Isolated contract base base'
  Broken _ _ := Isolated contract base base'
  Permits other := other ≠ contract
  excuse := calling contract base.journal

/-- A call that has come by code that is none of the contract's ends alike on both hosts. The
code is still none of the contract's then. -/
theorem isolated_ended (config : Config) (same : Isolated contract base base' h k)
    {code : CompiledCode Module} (foreign : h.cache.Foreign contract code.serial)
    (foreign' : k.cache.Foreign contract code.serial) {ctx : Context}
    {result : Except HostError Unit} {g g' : Host Module}
    (ended : (isolation contract base base').Ended ctx.id result g g') (m : Machine) :
    let p := conclude config ctx code result m g
    let q := conclude config ctx code result m g'
    p.1 = q.1 ∧ Isolated contract base base' (Manager.endCall ctx.id p.1 p.2)
      (Manager.endCall ctx.id q.1 q.2) := by
  have left := ((isolation contract base base').ended_iff fun _ _ _ => Iff.rfl).1 ended
  have kept : g.cache.codeOf contract = h.cache.codeOf contract :=
    left.first.cache.trans same.first.cache.symm
  have kept' : g'.cache.codeOf contract = k.cache.codeOf contract :=
    left.second.cache.trans same.second.cache.symm
  unfold CodeCache.Foreign at foreign foreign'
  rw [← kept] at foreign
  rw [← kept'] at foreign'
  obtain ⟨alike, closed⟩ := Isolated.conclude left foreign foreign' config ctx result m
  dsimp only
  rw [← alike]
  exact ⟨rfl, Isolated.endCall closed ctx.id _⟩

/-- A call of another contract opens alike on both hosts, however it comes by its code. -/
theorem isolated_opens (config : Config) (named : Naming.validate contract = .ok ())
    (same : Isolated contract base base' h k) (load : CodeLoad) {ctx : Context}
    (apart : ctx.setup.contract ≠ contract) :
    (isolation contract base base').Opens config (fun _ => Isolated contract base base') load ctx
      h k := by
  unfold Relation.Opens obtain
  dsimp only
  rw [← same.agree.find? apart]
  cases found : h.cache.find? ctx.setup.contract with
  | some code =>
      cases load with
      | compile => exact ⟨rfl, Isolated.endCall same ctx.id _⟩
      | reuse =>
          have found' : k.cache.find? ctx.setup.contract = some code := by
            rw [← same.agree.find? apart, found]
          obtain ⟨cached, named⟩ := CodeCache.find?_eq_some found
          obtain ⟨cached', _⟩ := CodeCache.find?_eq_some found'
          have other : code.name ≠ contract := named ▸ apart
          refine ⟨rfl, ctx.id, rfl, Isolated.ready (Isolated.lent same ctx code) ctx, ?_⟩
          intro result m f f' ended
          exact isolated_ended config same (same.separate.foreign cached other)
            (same.separate'.foreign cached' other) ended m
  | none =>
      rw [← same.agree.surroundings, ← same.agree.accesses]
      cases h.surroundings.fault? h.accesses .get (StoreKey.code ctx.setup.contract) with
      | some fault => exact ⟨rfl, Isolated.endCall (same.beforeAccess _ _) ctx.id _⟩
      | none =>
          rw [← Store.build_congr (same.agree.store.get? (StoreKey.not_isOf_code named apart))]
          cases h.store.build ctx.setup.contract with
          | error e => exact ⟨rfl, Isolated.endCall (Isolated.fetched same _) ctx.id _⟩
          | ok result =>
              obtain ⟨bytecode, module⟩ := result
              have one : newCode ctx.setup.contract bytecode module k =
                  newCode ctx.setup.contract bytecode module h := by
                simp only [newCode, CodeCache.insert, same.agree.compiled]
              have foreign' := same.separate'.foreign_compiled
              rw [← same.agree.compiled] at foreign'
              dsimp only
              rw [one]
              refine ⟨rfl, ctx.id, rfl,
                Isolated.ready (Isolated.kept same apart bytecode module) ctx, ?_⟩
              intro result m f f' ended
              exact isolated_ended config same same.separate.foreign_compiled foreign' ended m

/-- Programs of other contracts can neither tell what belongs to a contract nor change it. -/
theorem isolation_simulation (config : Config) (named : Naming.validate contract = .ok ()) :
    Simulation config (isolation contract base base') where
  contexts same := same.agree.contexts
  signals same := same.agree.signals
  broken _ same := same
  aborted _ same := same
  noted _ same := same.note _
  marked _ same := same.note _
  lines lines same := same.addLines lines
  updated keeps same := same.update _ keeps
  read key found same := by
    obtain ⟨valid, apart⟩ := same.outside.of_find? found
    exact same.getKey (StoreKey.not_isOf_object named apart valid key)
  written key value found same := by
    obtain ⟨valid, apart⟩ := same.outside.of_find? found
    exact same.putKey (StoreKey.not_isOf_object named apart valid key) value
  deleted key found same := by
    obtain ⟨valid, apart⟩ := same.outside.of_find? found
    exact same.deleteKey (StoreKey.not_isOf_object named apart valid key)
  asked := by
    intro id h k module other method args same
    by_cases apart : other = contract
    · right
      obtain ⟨events, told, _⟩ := same.told
      exact ⟨_ :: events, congrArg (List.cons _) told, _, List.mem_cons_self, by
        simp [Event.calls, apart]⟩
    · exact .inl apart
  described := by
    intro id h k other apart same
    exact Relation.Kept.contractLanguage
      (same.getKey (StoreKey.not_isOf_description named apart))
  called := by
    intro id h k setup asked apart same
    have begun := Isolated.beginCall (Isolated.invoked same setup.contract) named asked.named apart
    have apart : (created setup (invoked setup.contract h)).setup.contract ≠ contract := apart
    refine (isolated_opens config named begun .reuse apart).mono fun result g g' closed => ?_
    exact ((isolation contract base base').returned_iff fun _ _ _ => Iff.rfl).2
      (Isolated.finish closed apart result)

/-! ## Requests -/

/-- Two runs have ended alike and in step, or a program of the first one calls the contract. -/
def EndedAlike {α : Type} (contract : String) (base base' : Host Module) (p q : α × Host Module) :
    Prop :=
  (calling contract base.journal).Given p.2.journal ∨
    p.1 = q.1 ∧ Isolated contract base base' p.2 q.2

theorem EndedAlike.map {α β : Type} {p q : α × Host Module}
    (ended : EndedAlike contract base base' p q) (f : α → β) :
    EndedAlike contract base base' (f p.1, p.2) (f q.1, q.2) :=
  ended.imp_right fun ⟨alike, closed⟩ => ⟨congrArg f alike, closed⟩

/-- The result of a call of another contract is counted. -/
theorem EndedAlike.finish {p q : Except HostError Outcome × Host Module}
    (ended : EndedAlike contract base base' p q) {other : String} (apart : other ≠ contract) :
    EndedAlike contract base base' (p.1, Manager.finish other p.1 p.2)
      (q.1, Manager.finish other q.1 q.2) := by
  rcases ended with given | ⟨alike, closed⟩
  · exact .inl ((calling contract base.journal).lasts (suffix_finish ..) given)
  · refine .inr ⟨alike, ?_⟩
    show Isolated contract base base' (Manager.finish other p.1 p.2) (Manager.finish other q.1 q.2)
    rw [← alike]
    exact Isolated.finish closed apart p.1

section Serve

variable (config : Config) (named : Naming.validate contract = .ok ())

include named

/-- A call for a request runs alike on both hosts. -/
theorem isolated_run (same : Isolated contract base base' h k) (load : CodeLoad)
    (setup : CallSetup) (valid : Naming.validate setup.contract = .ok ())
    (apart : setup.contract ≠ contract) :
    EndedAlike contract base base'
      (run config (outermost config) load (created setup h) (Manager.beginCall setup h))
      (run config (outermost config) load (created setup k) (Manager.beginCall setup k)) := by
  have next : created setup k = created setup h :=
    congrArg (fun cs : Contexts => Context.mk cs.next setup none {}) same.agree.contexts.symm
  have begun := Isolated.beginCall same named valid apart
  rw [next]
  exact (isolation_simulation config named).run
    ((isolation_simulation config named).nestedCall config.maxCallDepth.toNat)
    (isolated_opens config named begun load apart)

/-- An accepted deployment of another contract goes alike on both hosts. -/
theorem isolated_deployAccepted (same : Isolated contract base base' h k) {request : CallRequest}
    (valid : Naming.validate request.contract = .ok ()) (apart : request.contract ≠ contract) :
    EndedAlike contract base base'
      (runFrom ((Manager.scripted config).deployAccepted request) h)
      (runFrom ((Manager.scripted config).deployAccepted request) k) := by
  rw [runFrom_deployAccepted, runFrom_deployAccepted]
  have written := same.putKey (StoreKey.not_isOf_code named apart) request.code
  match runFrom (HostM.putKey (StoreKey.code request.contract) request.code) h,
    runFrom (HostM.putKey (StoreKey.code request.contract) request.code) k, written with
  | (.error fault, _), (.error _, _), ⟨rfl, same⟩ => exact .inr ⟨rfl, same⟩
  | (.ok _, g), (.ok _, g'), ⟨_, same⟩ =>
      dsimp only
      have described := same.putKey (StoreKey.not_isOf_description named apart)
        (Utf8.encode request.language)
      match runFrom (HostM.putKey (StoreKey.description request.contract) _) g,
        runFrom (HostM.putKey (StoreKey.description request.contract) _) g', described with
      | (.error fault, _), (.error _, _), ⟨rfl, same⟩ => exact .inr ⟨rfl, same⟩
      | (.ok _, f), (.ok _, f'), ⟨_, same⟩ =>
          exact isolated_run config named same .compile request.initSetup valid apart

/-- A request for another contract is served alike on both hosts. -/
theorem isolated_serve (same : Isolated contract base base' h k) (request : HostRequest)
    (apart : ∀ accepted, request.accepted? = some accepted → accepted.contract ≠ contract) :
    EndedAlike contract base base' ((Manager.scripted config).serve h request)
      ((Manager.scripted config).serve k request) := by
  cases request with
  | abort other message =>
      refine .inr ⟨rfl, same.step [] ?_ same.outside rfl rfl rfl rfl rfl rfl⟩
      exact bare_congr (f := Host.abortRunning other message) (fun _ => rfl) same.agree.bare
  | invoke method fields =>
      rw [Manager.serve_invoke, Manager.serve_invoke]
      refine EndedAlike.map ?_ some
      rw [runFrom_invokeContract, runFrom_invokeContract]
      cases parsed : CallRequest.parse fields false with
      | error e => exact .inr ⟨rfl, same⟩
      | ok accepted =>
          have apart : accepted.contract ≠ contract := apart accepted (by
            simp [HostRequest.accepted?, parsed, Except.toOption])
          exact (isolated_run config named (Isolated.invoked same accepted.contract) .reuse
            (accepted.callSetup method) (CallRequest.validate_of_parse parsed) apart).finish apart
  | deploy fields =>
      rw [Manager.serve_deploy, Manager.serve_deploy]
      refine EndedAlike.map ?_ some
      rw [runFrom_deploy, runFrom_deploy]
      cases parsed : CallRequest.parse fields true with
      | error e => exact .inr ⟨rfl, same⟩
      | ok accepted =>
          have apart : accepted.contract ≠ contract := apart accepted (by
            simp [HostRequest.accepted?, parsed, Except.toOption])
          exact (isolated_deployAccepted config named (Isolated.deploying same accepted.contract)
            (CallRequest.validate_of_parse parsed) apart).finish apart

end Serve

end Call

/-- Between requests no call is running and no code is lent, and the cached code of a contract
has a serial number of its own. -/
structure Host.Quiescent (h : Host Module) : Prop where
  live : h.contexts.live = []
  running : h.running = []
  leases : h.cache.leases = []
  formed : h.cache.WellFormed

/-- Every session leaves its host so. -/
theorem session_quiescent (config : Config) (store : Store) (surroundings : Surroundings)
    (requests : List HostRequest) :
    ((Manager.scripted config).session (.fresh store surroundings) requests).Quiescent := by
  obtain ⟨books, inHand⟩ := session_books config store surroundings requests
  exact ⟨inHand.live, inHand.running, inHand.leases, books.formed⟩

/-- Let two hosts that are at rest, over stores in memory, agree on everything but what belongs
to a contract: its keys, and the code that is cached for it. Each serves a request for another
contract, and in the first run no program calls the contract. Then the results are the same,
the same events are entered into the journals, the hosts agree again on everything but what
belongs to the contract, and on either host that is as it was. -/
theorem serve_isolates_contracts (config : Config) {contract : String}
    (named : Naming.validate contract = .ok ()) {h k : Host Module} (atRest : h.Quiescent)
    (atRest' : k.Quiescent) (agree : h.AgreeBut contract k) {request : HostRequest}
    (apart : ∀ accepted, request.accepted? = some accepted → accepted.contract ≠ contract)
    (uncalled : ∀ events, ((Manager.scripted config).serve h request).2.journal =
        events ++ h.journal → ∀ event ∈ events, event.calls contract = false) :
    let p := (Manager.scripted config).serve h request
    let q := (Manager.scripted config).serve k request
    p.1 = q.1 ∧ (∃ events, p.2.journal = events ++ h.journal ∧ q.2.journal = events ++ k.journal) ∧
      p.2.AgreeBut contract q.2 ∧ h.Spares contract p.2 ∧ k.Spares contract q.2 := by
  intro p q
  obtain ⟨table, table', stored, stored', _⟩ := agree.store
  have start : Host.Isolated contract h k h k := {
    agree
    first := ⟨rfl, stored ▸ .refl table⟩
    second := ⟨rfl, stored' ▸ .refl table'⟩
    told := ⟨[], rfl, rfl⟩
    outside := by simp [Host.Outside, atRest.live]
    separate := atRest.formed.separate contract
    separate' := atRest'.formed.separate contract }
  rcases Call.isolated_serve config named start request apart with given | ⟨alike, isolated⟩
  · obtain ⟨events, journal, event, mem, calls⟩ := given
    rw [uncalled events journal event mem] at calls
    cases calls
  · exact ⟨alike, isolated.told, isolated.agree, isolated.first, isolated.second⟩

/-- The compiled program of a shop, which puts an object and reads it again. -/
def shopCode : CompiledCode Module where
  serial := 0
  name := "shop"
  digest := ""
  module := {
    program := {
      memory := some Script.Program.standardMemory
      imports := []
      exports := .ofList [("_sell", [.single (.put "stock" "4"), .single (.get "stock" "left" none),
        .single (.output 200 "sold" "$\x7bleft\x7d")])] }
    bindings := [(.putObject, .putObject), (.getObject, .getObject), (.setOutput, .setOutput)] }

/-- A host with a shop. -/
def shopHost : Host Module where
  cache := { compiled := 2, entries := [shopCode] }

/-- The host with a vault beside the shop, stored and cached. -/
def vaultHost : Host Module where
  store := .memory (Table.empty.insert (StoreKey.object "vault" [1]) [2])
  cache := { compiled := 2, entries := [{ shopCode with serial := 1, name := "vault" }, shopCode] }

/-- A sale. -/
def shopSale : HostRequest :=
  .invoke "sell" (.ofList [("contract_name", Utf8.encode "shop"), ("language", Utf8.encode "c"),
    ("args", Utf8.encode "\x7b\x7d"), ("caller", Utf8.encode "alice")])

/-- The sale is the same with the vault and without it. -/
theorem shop_sells_beside_vault :
    let p := (Manager.scripted .standard).serve shopHost shopSale
    let q := (Manager.scripted .standard).serve vaultHost shopSale
    p.1 = q.1 ∧
      (∃ events, p.2.journal = events ++ shopHost.journal ∧
        q.2.journal = events ++ vaultHost.journal) ∧
      p.2.AgreeBut "vault" q.2 ∧ shopHost.Spares "vault" p.2 ∧ vaultHost.Spares "vault" q.2 := by
  have kept (key : Bytes) (other : ¬ StoreKey.IsOf "vault" key) :
      (Table.empty : MemoryStore).get? key =
        (Table.empty.insert (StoreKey.object "vault" [1]) [2] : MemoryStore).get? key := by
    rw [Table.get?_insert_of_ne]
    exact fun same => other (.inr (.inr ⟨[1], same⟩))
  have accepted : (shopSale.accepted?.all fun accepted => accepted.contract != "vault") = true := by
    decide +kernel
  have uncalled : (((Manager.scripted .standard).serve shopHost shopSale).2.journal.all
      fun event => !event.calls "vault") = true := by
    decide +kernel
  refine serve_isolates_contracts .standard (by rfl) (h := shopHost) (k := vaultHost) ?_ ?_ ?_ ?_ ?_
  · exact ⟨rfl, rfl, rfl, by decide, by decide, by decide, by decide⟩
  · exact ⟨rfl, rfl, rfl, by decide, by decide, by decide, by decide⟩
  · exact ⟨rfl, by simp [CodeCache.without, shopHost, vaultHost, shopCode], _, _, rfl, rfl, kept⟩
  · intro request asked
    rw [asked] at accepted
    simpa using accepted
  · intro events journal event mem
    rw [journal] at uncalled
    have all := List.all_eq_true.1 uncalled event (List.mem_append_left _ mem)
    simpa using all

end ContractHost
