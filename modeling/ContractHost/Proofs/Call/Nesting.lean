/-
# Calls inside calls

A call runs while the call that made it waits. So the contexts that are live when a syscall
is dispatched are those of one chain of calls, from the call that was asked for from outside
to the one whose program asks. Each call of the chain was made by the next outer one, under
that one's name as the caller and one level deeper, and runs in the language that the store
had for its contract when it began.

Depths count the levels, and a call that would be too deep is refused. A chain is therefore
no longer than the settings allow, and it ends the mutual calls of contracts.
-/

import ContractHost.Proofs.Call.Balance
import ContractHost.Proofs.Call.Course

namespace ContractHost

open Script (Machine Module)

/-! ## Chains of calls -/

/-- One call was made by another, going by what calls were made with and by the journal of
their beginnings. -/
structure MadeBy (cs : Contexts) (events : List Event) (inner outer : ContextId) : Prop where
  later : outer.number < inner.number
  setups : ∃ callee caller, cs.setup? inner = some callee ∧ cs.setup? outer = some caller ∧
    callee.caller = caller.contract ∧ callee.depth = caller.depth + 1 ∧
    ∃ tag, .began inner (some tag) ∈ events ∧ Utf8.decode tag = .ok callee.language

/-- The contexts of a chain of calls, innermost first. The outermost call was made from
outside, in the name of some caller. -/
inductive CallChain (cs : Contexts) (events : List Event) (caller : String) :
    List ContextId → Prop
  | outermost {id : ContextId} {setup : CallSetup} :
      cs.setup? id = some setup → setup.depth = 0 → setup.caller = caller →
      CallChain cs events caller [id]
  | inner {id outer : ContextId} {rest : List ContextId} :
      MadeBy cs events id outer → CallChain cs events caller (outer :: rest) →
      CallChain cs events caller (id :: outer :: rest)

/-- The contexts that are live when a syscall of a context is dispatched. -/
structure LiveChain (config : Config) (cs : Contexts) (events : List Event) (caller : String)
    (id : ContextId) (live : List ContextId) : Prop where
  innermost : live.head? = some id
  bounded : live.length ≤ config.maxCallDepth.toNat + 1
  chain : CallChain cs events caller live

section Chains

variable {config : Config} {cs cs' : Contexts} {events : List Event} {caller : String}
  {id outer : ContextId} {live rest : List ContextId}

theorem MadeBy.mono (made : MadeBy cs events id outer)
    (kept : ∀ {id setup}, cs.setup? id = some setup → cs'.setup? id = some setup)
    (later : List Event) : MadeBy cs' (later ++ events) id outer where
  later := made.later
  setups := by
    obtain ⟨callee, caller, inner, outer, called, deeper, tag, began, decoded⟩ := made.setups
    exact ⟨callee, caller, kept inner, kept outer, called, deeper, tag,
      List.mem_append_right _ began, decoded⟩

/-- A chain stays one, whatever else happens. -/
theorem CallChain.mono (chain : CallChain cs events caller live)
    (kept : ∀ {id setup}, cs.setup? id = some setup → cs'.setup? id = some setup)
    (later : List Event) : CallChain cs' (later ++ events) caller live := by
  induction chain with
  | outermost known depth called => exact .outermost (kept known) depth called
  | inner made _ ih => exact .inner (made.mono kept later) ih

theorem LiveChain.mono (chain : LiveChain config cs events caller id live)
    (kept : ∀ {id setup}, cs.setup? id = some setup → cs'.setup? id = some setup)
    (later : List Event) : LiveChain config cs' (later ++ events) caller id live :=
  { chain with chain := chain.chain.mono kept later }

/-- What the calls of a chain were made with is known. -/
theorem CallChain.known (chain : CallChain cs events caller live) :
    ∀ id ∈ live, ∃ setup, cs.setup? id = some setup := by
  induction chain with
  | outermost known _ _ => simpa using ⟨_, known⟩
  | inner made _ ih =>
      obtain ⟨callee, _, known, _⟩ := made.setups
      exact List.forall_mem_cons.2 ⟨⟨callee, known⟩, ih⟩

/-- The depth of the innermost call counts the calls around it. -/
theorem CallChain.depth_eq (chain : CallChain cs events caller (id :: rest)) :
    ∃ setup, cs.setup? id = some setup ∧ setup.depth = rest.length := by
  generalize same : id :: rest = live at chain
  induction chain generalizing id rest with
  | outermost known depth _ =>
      cases same
      exact ⟨_, known, depth⟩
  | inner made _ ih =>
      cases same
      obtain ⟨callee, maker, known, known', _, deeper, _⟩ := made.setups
      obtain ⟨setup, same, depth⟩ := ih rfl
      have one : maker = setup := Option.some.inj (known'.symm.trans same)
      exact ⟨callee, known, by rw [deeper, one, depth, List.length_cons]⟩

/-- The calls around the innermost one are a chain as well. -/
theorem LiveChain.uncover (chain : LiveChain config cs events caller id (id :: outer :: rest)) :
    LiveChain config cs events caller outer (outer :: rest) where
  innermost := rfl
  bounded := Nat.le_of_succ_le chain.bounded
  chain := by
    cases chain.chain with
    | inner _ chain => exact chain

end Chains

/-! ## What a request keeps in order -/

/-- True of the dispatch of a syscall. -/
def Event.isDispatch : Event → Bool
  | .syscall .. => true
  | _ => false

theorem Event.isDispatch_of_isBackstage {event : Event} (backstage : event.isBackstage) :
    event.isDispatch = false := by
  cases event <;> first | rfl | cases backstage

namespace Host

/-- A change that forgets no call and dispatches no syscall. -/
abbrev Onward (h g : Host Module) : Prop := h.Passes (fun event => event.isDispatch = false) g

/-- Since an earlier moment, with the given events, all syscalls were dispatched in chains of
calls. -/
structure Nested (config : Config) (caller : String) (start : Host Module) (events : List Event)
    (h : Host Module) : Prop where
  journal : h.journal = events ++ start.journal
  dispatched : ∀ id request live, .syscall id request live ∈ events →
    LiveChain config h.contexts events caller id live

variable {config : Config} {caller : String} {start h g f : Host Module} {events : List Event}

namespace Nested

/-- What goes on without syscalls keeps all in order. -/
theorem onward (nested : Nested config caller start events h) (onward : Onward h g) :
    ∃ later, Nested config caller start (later ++ events) g := by
  obtain ⟨later, journal, silent, _⟩ := onward.told
  refine ⟨later, by rw [journal, nested.journal, List.append_assoc], ?_⟩
  intro id request live mem
  rcases List.mem_append.1 mem with mem | mem
  · exact Bool.noConfusion (silent _ mem)
  · exact (nested.dispatched id request live mem).mono onward.kept.setup? later

/-- What the program of a context does keeps all in order, in a chain that ends with the
context. -/
theorem acts (nested : Nested config caller start events h) {id : ContextId}
    (chain : LiveChain config h.contexts events caller id h.contexts.live) (acts : h.Acts id g) :
    ∃ later, Nested config caller start (later ++ events) g := by
  obtain ⟨later, journal, own, _⟩ := acts.told
  refine ⟨later, by rw [journal, nested.journal, List.append_assoc], ?_⟩
  intro context request live mem
  rcases List.mem_append.1 mem with mem | mem
  · obtain ⟨rfl, rfl⟩ := own _ mem
    exact chain.mono acts.kept.setup? later
  · exact (nested.dispatched context request live mem).mono acts.kept.setup? later

end Nested

end Host

namespace Call

open Host (Onward Nested)

/-- All is in order since an earlier moment, and the live contexts are the chain of a
running call. -/
structure Within (config : Config) (caller : String) (start : Host Module) (nest : Nest)
    (h : Host Module) : Prop where
  live : h.contexts.live = nest.context :: nest.outer
  nested : ∃ events, Nested config caller start events h ∧
    LiveChain config h.contexts events caller nest.context (nest.context :: nest.outer)

/-- Inside a call the live contexts are its chain. -/
def nesting (config : Config) (caller : String) (start : Host Module) : Condition Nest where
  context nest := nest.context
  Holds nest h := Within config caller start nest h
  Broken nest _ h := Within config caller start nest h

variable {config : Config} {caller : String} {start h g f : Host Module} {nest : Nest}

namespace Within

theorem onward (within : Within config caller start nest h) (onward : h.Onward g)
    (live : g.contexts.live = h.contexts.live) : Within config caller start nest g where
  live := live.trans within.live
  nested := by
    obtain ⟨events, nested, chain⟩ := within.nested
    obtain ⟨later, nested⟩ := nested.onward onward
    exact ⟨later ++ events, nested, chain.mono onward.kept.setup? later⟩

theorem acts (within : Within config caller start nest h) (acts : h.Acts nest.context g) :
    Within config caller start nest g where
  live := acts.live.trans within.live
  nested := by
    obtain ⟨events, nested, chain⟩ := within.nested
    obtain ⟨later, nested⟩ := nested.acts (within.live ▸ chain) acts
    exact ⟨later ++ events, nested, chain.mono acts.kept.setup? later⟩

end Within

/-! ## The beginning and the end of a call -/

theorem onward_of_backstage (backstage : h.Backstage g) : h.Onward g :=
  .of_backstage backstage fun _ => Event.isDispatch_of_isBackstage

theorem clears (event : Event) (clear : event.isClearance) : event.isDispatch = false :=
  Event.isDispatch_of_isBackstage (Event.isBackstage_of_isClearance clear)

/-- A call that a program asks for continues the chain. -/
theorem Within.called {args : List ArgPair} {setup : CallSetup}
    (within : Within config caller start nest h)
    (requested : Requested config nest.context args setup h) :
    Within config caller start ⟨h.contexts.next, nest.context :: nest.outer⟩
      (Manager.beginCall setup (invoked setup.contract h)) where
  live := congrArg (List.cons _) within.live
  nested := by
    obtain ⟨events, nested, chain⟩ := within.nested
    have onward : h.Onward (Manager.beginCall setup (invoked setup.contract h)) :=
      (passes_invoked (by rfl) h).trans (passes_beginCall (by rfl))
    obtain ⟨ctx, found, called, deeper⟩ := requested.caller
    obtain ⟨tag, stored, decoded⟩ := requested.language
    have known : h.contexts.setup? nest.context = some ctx.setup :=
      congrArg (Option.map _) (Contexts.held?_of_find? found)
    let later : List Event := [.began h.contexts.next (some tag), .started setup.contract]
    have began : (Manager.beginCall setup (invoked setup.contract h)).journal =
        later ++ h.journal := by
      show Event.began _ (h.store.peek? _) :: _ = _
      rw [stored]
      rfl
    have ordered : Nested config caller start (later ++ events)
        (Manager.beginCall setup (invoked setup.contract h)) := by
      refine ⟨by rw [began, nested.journal, List.append_assoc], ?_⟩
      intro id request live mem
      have mem : Event.syscall id request live ∈ events := by simpa [later] using mem
      exact (nested.dispatched id request live mem).mono onward.kept.setup? later
    have made : MadeBy (h.contexts.create setup) (later ++ events) h.contexts.next
        nest.context := {
      later := by
        have bounded := Contexts.number_le_of_setup? known
        show nest.context.number < (h.contexts.created.size + 1 : Nat)
        omega
      setups := ⟨setup, ctx.setup, Contexts.setup?_create_next _ _,
        (Contexts.Keeps.create h.contexts setup).setup? known, called, deeper, tag,
        by simp [later], decoded⟩ }
    refine ⟨later ++ events, ordered, rfl, ?_,
      .inner made (chain.chain.mono onward.kept.setup? later)⟩
    obtain ⟨setup', known', depth⟩ := chain.chain.depth_eq
    have bounded := requested.bounded
    rw [deeper, Option.some.inj (known.symm.trans known'), depth] at bounded
    exact Nat.succ_le_succ bounded

/-- A call that is asked for from outside begins a chain. -/
theorem Within.outermost {events : List Event} (nested : Nested config caller start events h)
    (idle : h.contexts.live = []) {setup : CallSetup} (depth : setup.depth = 0)
    (called : setup.caller = caller) :
    Within config caller start ⟨h.contexts.next, []⟩ (Manager.beginCall setup h) where
  live := congrArg (List.cons _) idle
  nested := by
    obtain ⟨later, nested⟩ := nested.onward (passes_beginCall (by rfl))
    exact ⟨later ++ events, nested, rfl, Nat.succ_le_succ (Nat.zero_le _),
      .outermost (Contexts.setup?_create_next _ _) depth called⟩

/-- The contexts around a new one are others. -/
theorem Within.fresh (within : Within config caller start nest h) :
    h.contexts.next ∉ nest.context :: nest.outer := by
  obtain ⟨events, _, chain⟩ := within.nested
  intro mem
  obtain ⟨setup, known⟩ := chain.chain.known _ mem
  exact Contexts.ne_next_of_setup? known rfl

/-- A call that is over leaves the contexts around it live. -/
theorem live_endCall {id : ContextId} {rest : List ContextId} (fresh : id ∉ rest)
    (live : h.contexts.live = id :: rest) (result : Except HostError Outcome) :
    (Manager.endCall id result h).contexts.live = rest :=
  Contexts.live_destroy live fresh

/-- When a call is over the chain is that of the call that made it. -/
theorem Within.returned {id : ContextId}
    (within : Within config caller start ⟨id, nest.context :: nest.outer⟩ h)
    (onward : h.Onward g) (live : g.contexts.live = nest.context :: nest.outer) :
    Within config caller start nest g where
  live := live
  nested := by
    obtain ⟨events, nested, chain⟩ := within.nested
    obtain ⟨later, nested⟩ := nested.onward onward
    exact ⟨later ++ events, nested, chain.uncover.mono onward.kept.setup? later⟩

/-- Charging a call keeps all in order. -/
theorem Within.charged (within : Within config caller start nest h) (used : Resources) :
    Within config caller start nest
      { h with contexts := h.contexts.update nest.context (Context.addNestedUsage used) } where
  live := within.live
  nested := by
    obtain ⟨events, nested, chain⟩ := within.nested
    have kept {id : ContextId} {setup : CallSetup} (known : h.contexts.setup? id = some setup) :
        (h.contexts.update nest.context (Context.addNestedUsage used)).setup? id = some setup := by
      rw [Contexts.setup?_update]
      · exact known
      · exact fun _ => rfl
      · exact fun _ => rfl
    exact ⟨events, ⟨nested.journal, fun id request live mem =>
      (nested.dispatched id request live mem).mono kept []⟩, chain.mono kept []⟩

/-- Answering a call keeps all in order. -/
theorem Within.answered (within : Within config caller start nest h) (request : SyscallRequest)
    (result : Except HostError Outcome) :
    (nesting config caller start).Answered nest request result h := by
  match result with
  | .ok _ => exact (within.charged _).onward (.note _ (by rfl)) rfl
  | .error e =>
      cases e with
      | contract => exact (within.charged _).onward (.note _ (by rfl)) rfl
      | _ => exact within.onward (.note h (by rfl)) rfl

/-- However a call ends, it goes on without syscalls of its own and leaves the contexts
around it live. -/
theorem begins_of_within {Closed : Except HostError Outcome → Host Module → Prop}
    {load : CodeLoad} {ctx : Context} {rest : List ContextId} (fresh : ctx.id ∉ rest)
    (within : Within config caller start ⟨ctx.id, rest⟩ h)
    (closed : ∀ result f g, Within config caller start ⟨ctx.id, rest⟩ f → f.Onward g →
      g.contexts.live = rest → Closed result g) :
    (nesting config caller start).Begins config Closed load ctx h := by
  refine Condition.Begins.of_stages ⟨ctx.id, rest⟩ rfl ?_ ?_ ?_
  · intro e g _ backstage
    have live : g.contexts.live = ctx.id :: rest := by
      rw [backstage.contexts]
      exact within.live
    exact closed _ h _ within (.trans (onward_of_backstage backstage) (passes_endCall (by rfl) g))
      (live_endCall fresh live _)
  · intro g backstage
    have begun := within.onward (onward_of_backstage backstage) (congrArg _ backstage.contexts)
    exact begun.onward (passes_ready (fun _ => Event.isDispatch_of_isBackstage) ctx g) rfl
  · intro code g result m f _ ended _
    have within := ((nesting config caller start).ended_iff fun _ _ => Iff.rfl).1 ended
    refine closed _ f _ within (.trans (passes_conclude (by rfl) clears config code f)
      (passes_endCall (by rfl) _)) ?_
    refine live_endCall fresh ?_ _
    rw [conclude_live]
    exact within.live

theorem nesting_upheld (config : Config) (caller : String) (start : Host Module) :
    Upheld config (nesting config caller start) where
  broken _ _ within := within
  acted behaves within := within.acts behaves.toActs
  refused _ _ _ _ _ _ within := within.onward (.note _ (by rfl)) rfl
  called := by
    intro nest h setup args requested within
    refine begins_of_within within.fresh (within.called requested) ?_
    intro result f g inside onward live
    have finished : f.Onward (Manager.finish setup.contract result g) :=
      onward.trans (passes_finish (by rfl) clears g)
    refine Within.answered (inside.returned finished ?_) _ result
    rw [Manager.finish_contexts]
    exact live

/-- From one host to the next a request was served, and all syscalls were dispatched in chains
of calls that begin with the caller of the request. -/
def ServedInChains (config : Config) (request : HostRequest) (h g : Host Module) : Prop :=
  ∃ events, g.journal = events ++ h.journal ∧
    ∀ id asked live, .syscall id asked live ∈ events →
      ∃ accepted, request.accepted? = some accepted ∧
        LiveChain config g.contexts events accepted.caller id live

theorem Nested.served {accepted : CallRequest} {request : HostRequest} {events : List Event}
    (known : request.accepted? = some accepted)
    (nested : Nested config accepted.caller h events g) : ServedInChains config request h g :=
  ⟨events, nested.journal, fun id asked live mem =>
    ⟨accepted, known, nested.dispatched id asked live mem⟩⟩

/-- A request is served in chains of calls, on a host where no context is live. -/
theorem nested_serve (config : Config) (idle : h.contexts.live = []) (request : HostRequest) :
    ServedInChains config request h ((Manager.scripted config).serve h request).2 := by
  have start (caller : String) : Nested config caller h [] h := ⟨rfl, by simp⟩
  refine serve_cases config h request (P := fun _ => ServedInChains config request h) ?_ ?_ ?_ ?_
  · exact fun _ _ _ => ⟨[], rfl, by simp⟩
  · exact fun _ _ => ⟨[], rfl, by simp⟩
  · intro accepted fault g known offstage
    have counted : h.Onward g :=
      (Host.Passes.note h (by rfl)).trans (onward_of_backstage offstage.backstage)
    obtain ⟨events, nested⟩ :=
      (start accepted.caller).onward (counted.trans (passes_finish (by rfl) clears g))
    exact Nested.served known nested
  · intro accepted load setup g known _ asks offstage
    have counted : h.Onward g :=
      (Host.Passes.note h (by rfl)).trans (onward_of_backstage offstage.backstage)
    have idle : g.contexts.live = [] := by
      rw [offstage.backstage.contexts]
      exact idle
    obtain ⟨events, nested⟩ := (start accepted.caller).onward counted
    have within := Within.outermost nested idle asks.depth asks.caller
    have begins : (nesting config accepted.caller h).Begins config
        (fun result f => ServedInChains config request h
          (Manager.finish accepted.contract result f))
        load (created setup g) (Manager.beginCall setup g) := by
      refine begins_of_within List.not_mem_nil within fun result f k inside onward _ => ?_
      obtain ⟨events, nested, _⟩ := inside.nested
      obtain ⟨later, nested⟩ :=
        nested.onward (onward.trans (passes_finish (by rfl) clears k))
      exact Nested.served known nested
    exact (nesting_upheld config accepted.caller h).run config.maxCallDepth.toNat begins

/-- A call that would be too deep is refused, whoever asks for it, and before anything is
done for it. -/
theorem serve_too_deep (config : Config) (room : Nat) {id : ContextId} {ctx : Context}
    (found : h.contexts.find? id = some ctx)
    (deep : config.maxCallDepth.toNat < ctx.setup.depth + 1) (contract method : String)
    (args : List ArgPair) :
    let request := .contractCall SyscallRequest.contractModule contract method args
    let failure := .depthExceeded (ctx.setup.depth + 1) config.maxCallDepth.toNat
    runFrom (Syscall.serve (some ((Manager.scripted config).nestedCall room)) id request) h =
      (.error failure,
        (h.note (.syscall id request h.contexts.live)).note
          (.answered id request (.error failure))) := by
  intro request failure
  have found' : (h.note (.syscall id request h.contexts.live)).contexts.find? id = some ctx := found
  rw [Host.runFrom_serve, Host.runFrom_answer_call found',
    nestedCall_of_deep config room contract method _ deep]
  rfl

end Call

/-- Whatever a host was asked before and whatever happens around its store, while it serves a
request every syscall is dispatched for the innermost of the live contexts, and these are a
chain of calls within the settings. The outermost call has depth zero and the caller that the
request names; each other one was made by the one around it, in the name of its contract, one
level deeper and with a larger number, in the language that was stored for its contract when
it began.

A call that a program at the greatest depth asks for fails for its depth, whatever the state
of the host and however much room an invoker has: nothing but the request and its failure is
entered into the journal, and no context is created. -/
theorem session_calls_chained (config : Config) (store : Store) (surroundings : Surroundings)
    (requests : List HostRequest) (request : HostRequest) :
    let manager := Manager.scripted config
    let h := manager.session (.fresh store surroundings) requests
    let g := (manager.serve h request).2
    (∃ events, g.journal = events ++ h.journal ∧
      ∀ id asked live, .syscall id asked live ∈ events →
        ∃ accepted, request.accepted? = some accepted ∧
          live.head? = some id ∧ live.length ≤ config.maxCallDepth.toNat + 1 ∧
          CallChain g.contexts events accepted.caller live) ∧
    ∀ room (k : Host Module) id ctx contract method args,
      k.contexts.find? id = some ctx → ctx.setup.depth = config.maxCallDepth.toNat →
      let asked := .contractCall SyscallRequest.contractModule contract method args
      let failure := .depthExceeded (config.maxCallDepth.toNat + 1) config.maxCallDepth.toNat
      runFrom (Syscall.serve (some (manager.nestedCall room)) id asked) k =
        (.error failure, (k.note (.syscall id asked k.contexts.live)).note
          (.answered id asked (.error failure))) := by
  intro manager h g
  have idle : h.contexts.live = [] := (session_books config store surroundings requests).2.live
  constructor
  · obtain ⟨events, journal, chained⟩ := Call.nested_serve config idle request
    refine ⟨events, journal, fun id asked live mem => ?_⟩
    obtain ⟨accepted, known, chain⟩ := chained id asked live mem
    exact ⟨accepted, known, chain.innermost, chain.bounded, chain.chain⟩
  · intro room k id ctx contract method args found deepest
    have refused := Call.serve_too_deep config room found (by omega) contract method args
    rw [deepest] at refused
    exact refused

end ContractHost
