/-
# What a host counts

A host counts the deployments and invocations that were started, and the results of those
that were finished. The journal tells of both, so the counters can be compared with it:
what was started is what has succeeded, has failed, or is still open, and the gas is the
sum of what was charged for each finished call, cut off once.

An invocation is started for an accepted request, or for a call inside another one that
passed the checks of depth, name and language. Each of the latter has a context below the
outermost depth, and nothing else has, so counting contexts counts these calls.
-/

import ContractHost.Proofs.Call.Eviction
import ContractHost.Proofs.Call.Watch
import ContractHost.Proofs.Resources

namespace ContractHost

open Script (Machine Module)

namespace Event

/-- The result that was counted by an event. -/
def result? : Event → Option (Except HostError Outcome)
  | .finished _ result => some result
  | _ => none

theorem result?_of_uncounted {event : Event} (uncounted : event.isCount = false) :
    event.result? = none := by
  cases event <;> first | rfl | cases uncounted

end Event

/-- The results that were counted, latest first. -/
def resultsIn (events : List Event) : List (Except HostError Outcome) :=
  events.filterMap Event.result?

/-- The gas that is charged for a finished call. -/
def Manager.charged : Except HostError Outcome → UInt64
  | .ok outcome => outcome.gas
  | .error e => e.billedGas

/-- The gas that is charged for finished calls together, not cut off. -/
def gasOf (results : List (Except HostError Outcome)) : Nat :=
  (results.map fun result => (Manager.charged result).toNat).sum

/-- How many contexts were created for calls inside calls. -/
def Contexts.inner (cs : Contexts) : Nat := cs.setups.countP fun setup => 0 < setup.depth

theorem resultsIn_uncounted {events : List Event}
    (uncounted : ∀ event ∈ events, event.isCount = false) (earlier : List Event) :
    resultsIn (events ++ earlier) = resultsIn earlier := by
  unfold resultsIn
  rw [List.filterMap_append, List.filterMap_eq_nil_iff.2 fun event mem =>
    Event.result?_of_uncounted (uncounted event mem)]
  rfl

namespace Host

/-- A change by which nothing is counted. -/
structure Uncounted (h g : Host Module) : Prop where
  stats : g.stats = h.stats
  inner : g.contexts.inner = h.contexts.inner
  journal : ∃ events, g.journal = events ++ h.journal ∧ ∀ event ∈ events, event.isCount = false

namespace Uncounted

variable {h g f : Host Module}

theorem trans (first : h.Uncounted g) (second : g.Uncounted f) : h.Uncounted f where
  stats := second.stats.trans first.stats
  inner := second.inner.trans first.inner
  journal := by
    obtain ⟨events, journal, plain⟩ := first.journal
    obtain ⟨events', journal', plain'⟩ := second.journal
    exact ⟨events' ++ events, by rw [journal', journal, List.append_assoc],
      List.forall_mem_append.2 ⟨plain', plain⟩⟩

theorem of_quiet (quiet : h.Quiet g) : h.Uncounted g where
  stats := quiet.stats
  inner := by
    unfold Contexts.inner
    rw [quiet.setups]
  journal := by
    obtain ⟨events, same, inner⟩ := quiet.journal
    exact ⟨events, same, fun event mem =>
      Event.uncounted_of_unmarked (Event.unmarked_of_isInner (inner event mem))⟩

theorem of_stored {key value : Bytes} (stored : h.Stored key value g) : h.Uncounted g := by
  obtain ⟨f, quiet, rfl⟩ := stored
  exact { of_quiet quiet with }

theorem settle (change : Option (CompiledCode Module) × CodeCache Module) (h : Host Module) :
    h.Uncounted (h.settle change) where
  stats := by
    unfold Host.settle
    cases change.1 <;> rfl
  inner := by rw [Host.settle_contexts]
  journal := by
    refine ⟨releases change.1, Host.settle_journal change h, fun event mem => ?_⟩
    obtain ⟨_, _, rfl⟩ := List.mem_map.1 mem
    rfl

/-- Contexts may change, as long as none is made. -/
theorem with_contexts (uncounted : h.Uncounted g) {contexts : Contexts}
    (setups : contexts.setups = g.contexts.setups) :
    h.Uncounted { g with contexts } :=
  { uncounted with
    inner := by
      rw [← uncounted.inner]
      unfold Contexts.inner
      rw [setups] }

end Uncounted

/-- The counters of a host agree with its journal, while the given calls are open and the
given numbers of requests to deploy and to invoke were accepted. -/
structure Tally (deploys invokes : Nat) (calls : List String) (h : Host Module) : Prop where
  deploys : h.stats.deploys = deploys
  invocations : h.stats.invocations = invokes + h.contexts.inner
  successes : h.stats.successes = (resultsIn h.journal).countP (·.isOk)
  failures : h.stats.failures = (resultsIn h.journal).countP (! ·.isOk)
  evictions : h.stats.evictions = (resultsIn h.journal).countP Manager.evicts
  totalGas : h.stats.totalGas = cutOff (gasOf (resultsIn h.journal))
  opened : openCalls h.journal = calls
  started : h.stats.deploys + h.stats.invocations =
    h.stats.successes + h.stats.failures + calls.length

namespace Tally

variable {deploys invokes : Nat} {calls : List String} {h g : Host Module} {contract : String}

theorem fresh (store : Store) (surroundings : Surroundings) :
    Tally 0 0 [] (Host.fresh store surroundings) where
  deploys := rfl
  invocations := by simp [Host.fresh, Contexts.inner, Contexts.setups]
  successes := rfl
  failures := rfl
  evictions := rfl
  totalGas := rfl
  opened := rfl
  started := rfl

theorem uncounted (tally : Tally deploys invokes calls h) (uncounted : h.Uncounted g) :
    Tally deploys invokes calls g := by
  obtain ⟨events, journal, plain⟩ := uncounted.journal
  have results : resultsIn g.journal = resultsIn h.journal := by
    rw [journal, resultsIn_uncounted plain]
  exact {
    deploys := by rw [uncounted.stats, tally.deploys]
    invocations := by rw [uncounted.stats, uncounted.inner, tally.invocations]
    successes := by rw [uncounted.stats, results, tally.successes]
    failures := by rw [uncounted.stats, results, tally.failures]
    evictions := by rw [uncounted.stats, results, tally.evictions]
    totalGas := by rw [uncounted.stats, results, tally.totalGas]
    opened := by rw [journal, openCalls_uncounted plain, tally.opened]
    started := by rw [uncounted.stats, tally.started] }

/-- An accepted deployment is counted. -/
theorem deploying (tally : Tally deploys invokes calls h) (contract : String) :
    Tally (deploys + 1) invokes (contract :: calls) (Call.deploying contract h) :=
  { tally with
    deploys := congrArg (· + 1) tally.deploys
    opened := congrArg (contract :: ·) tally.opened
    started := by
      have started := tally.started
      show h.stats.deploys + 1 + h.stats.invocations =
        h.stats.successes + h.stats.failures + (calls.length + 1)
      omega }

/-- An accepted invocation is counted. -/
theorem invoked (tally : Tally deploys invokes calls h) (contract : String) :
    Tally deploys (invokes + 1) (contract :: calls) (Call.invoked contract h) :=
  { tally with
    invocations := by
      have counted := tally.invocations
      show h.stats.invocations + 1 = invokes + 1 + h.contexts.inner
      omega
    opened := congrArg (contract :: ·) tally.opened
    started := by
      have started := tally.started
      show h.stats.deploys + (h.stats.invocations + 1) =
        h.stats.successes + h.stats.failures + (calls.length + 1)
      omega }

/-- A call inside a call is counted, and gets a context of its own. -/
theorem called (tally : Tally deploys invokes calls h) (setup : CallSetup)
    (deep : 0 < setup.depth) :
    Tally deploys invokes (setup.contract :: calls)
      (Manager.beginCall setup (Call.invoked setup.contract h)) := by
  have inner : (Manager.beginCall setup (Call.invoked setup.contract h)).contexts.inner =
      h.contexts.inner + 1 := by
    show (h.contexts.create setup).inner = _
    unfold Contexts.inner
    rw [Contexts.setups_create, Array.countP_push, if_pos (decide_eq_true deep)]
  exact { tally with
    invocations := by
      have counted := tally.invocations
      show h.stats.invocations + 1 = _
      rw [inner]
      omega
    opened := congrArg (setup.contract :: ·) tally.opened
    started := (tally.invoked setup.contract).started }

/-- The result of the innermost call is counted. -/
theorem finish (tally : Tally deploys invokes (contract :: calls) h)
    (result : Except HostError Outcome) :
    Tally deploys invokes calls (Manager.finish contract result h) := by
  have counted : Tally deploys invokes calls (Manager.counted contract result h) := by
    have started := tally.started
    rw [List.length_cons] at started
    have results : resultsIn (Manager.counted contract result h).journal =
        result :: resultsIn h.journal := rfl
    have opened : openCalls (Manager.counted contract result h).journal = calls :=
      congrArg List.tail tally.opened
    have gas : addSaturating h.stats.totalGas (Manager.charged result) =
        cutOff (gasOf (result :: resultsIn h.journal)) :=
      calc
        _ = addSaturating (cutOff (gasOf (resultsIn h.journal)))
            (cutOff (Manager.charged result).toNat) := by rw [tally.totalGas, cutOff_toNat]
        _ = cutOff (gasOf (resultsIn h.journal) + (Manager.charged result).toNat) :=
            addSaturating_cutOff ..
        _ = cutOff (gasOf (result :: resultsIn h.journal)) := by
            rw [Nat.add_comm]
            rfl
    cases result with
    | ok outcome =>
        exact { tally with
          successes := by
            rw [results, List.countP_cons_of_pos rfl, ← tally.successes]
            rfl
          failures := by
            rw [results, List.countP_cons_of_neg (by simp [Except.isOk, Except.toBool]),
              ← tally.failures]
            rfl
          evictions := by
            rw [results, List.countP_cons_of_neg (by simp [Manager.evicts]), ← tally.evictions]
            rfl
          totalGas := by
            rw [results]
            exact gas
          opened
          started := by
            show h.stats.deploys + h.stats.invocations =
              h.stats.successes + 1 + h.stats.failures + calls.length
            omega }
    | error e =>
        exact { tally with
          successes := by
            rw [results, List.countP_cons_of_neg (by simp [Except.isOk, Except.toBool]),
              ← tally.successes]
            rfl
          failures := by
            rw [results, List.countP_cons_of_pos rfl, ← tally.failures]
            rfl
          evictions := by
            rw [results, List.countP_cons, ← tally.evictions]
            rfl
          totalGas := by
            rw [results]
            exact gas
          opened
          started := by
            show h.stats.deploys + h.stats.invocations =
              h.stats.successes + (h.stats.failures + 1) + calls.length
            omega }
  refine Manager.finish_induction counted (counted.uncounted (.settle _ _))

end Tally

end Host

namespace Call

open Host (Tally Uncounted)

variable {deploys invokes : Nat} {calls : List String} {h g : Host Module} {ctx : Context}

/-! ## The stages of a call -/

/-- A call from outside takes a context that is none of a call inside a call. -/
theorem uncounted_beginCall (setup : CallSetup) (outermost : setup.depth = 0) (h : Host Module) :
    h.Uncounted (Manager.beginCall setup h) where
  stats := rfl
  inner := by
    show (h.contexts.create setup).inner = h.contexts.inner
    unfold Contexts.inner
    rw [Contexts.setups_create, Array.countP_push, if_neg (by simp [outermost])]
    rfl
  journal := ⟨[_], rfl, by simp [Event.isCount]⟩

theorem uncounted_lent (ctx : Context) (code : CompiledCode Module) (h : Host Module) :
    h.Uncounted (lent ctx code h) where
  stats := rfl
  inner := rfl
  journal := ⟨[_], rfl, by simp [Event.isCount]⟩

theorem uncounted_kept (ctx : Context) (bytecode : Bytes) (module : Module) (h : Host Module) :
    h.Uncounted (kept ctx bytecode module h) := by
  have read : h.Uncounted (fetched ctx.setup.contract h) :=
    .of_quiet (fetched_quiet ctx.setup.contract h)
  obtain ⟨events, journal, plain⟩ := read.journal
  exact { read with
    journal := ⟨_ :: events, congrArg (List.cons _) journal, List.forall_mem_cons.2 ⟨rfl, plain⟩⟩ }

theorem uncounted_ready (ctx : Context) (h : Host Module) : h.Uncounted (ready ctx h) where
  stats := rfl
  inner := rfl
  journal := by
    refine ⟨preparations ctx, rfl, ?_⟩
    unfold preparations
    cases Language.ofTag? ctx.setup.language <;> simp [Event.isCount]

theorem uncounted_conclude (config : Config) (ctx : Context) (code : CompiledCode Module)
    (result : Except HostError Unit) (m : Machine) (h : Host Module) :
    h.Uncounted (conclude config ctx code result m h).2 := by
  obtain ⟨contexts, concluded, _, setups⟩ := conclude_eq config ctx code result m h
  have parted : h.Uncounted (part ctx.id result m code h) := by
    -- the machine is given up before the lease
    let closed : Host Module :=
      { (h.note (.measured ctx.id result (usage m))).addLines m.close.1 with
        engineUse.machinesClosed := h.engineUse.machinesClosed + 1
        journal := [.released ctx.id, .engine .closeMachine,
          .measured ctx.id result (usage m)] ++ h.journal }
    have gaveUp : h.Uncounted closed := ⟨rfl, rfl, _, rfl, by simp [Event.isCount]⟩
    exact gaveUp.trans (.settle _ closed)
  rw [concluded]
  exact parted.with_contexts (by rw [setups, part_contexts])

theorem uncounted_endCall (id : ContextId) (result : Except HostError Outcome) (h : Host Module) :
    h.Uncounted (Manager.endCall id result h) where
  stats := rfl
  inner := rfl
  journal := ⟨[_], rfl, by simp [Event.isCount]⟩

/-! ## Trees of calls -/

/-- Throughout a call and after it the counters agree with the journal. -/
def tallied (deploys invokes : Nat) : Condition Chain where
  context := Chain.context
  Holds chain := Tally deploys invokes chain.calls
  Broken chain _ := Tally deploys invokes chain.calls

/-- Nothing is counted in a call but the calls inside it. -/
theorem tallied_opens (config : Config) (load : CodeLoad) (ctx : Context)
    (tally : Tally deploys invokes calls h) :
    (tallied deploys invokes).Opens config (fun _ => Tally deploys invokes calls) load ctx h := by
  have opened {code : CompiledCode Module} {g : Host Module} (obtained : h.Uncounted g) :
      ∃ chain, (tallied deploys invokes).context chain = ctx.id ∧
        (tallied deploys invokes).Holds chain (ready ctx g) ∧
        ∀ result m f, (tallied deploys invokes).Ended chain result f →
          let p := conclude config ctx code result m f
          Tally deploys invokes calls (Manager.endCall ctx.id p.1 p.2) := by
    refine ⟨⟨ctx.id, calls⟩, rfl, tally.uncounted (obtained.trans (uncounted_ready ctx g)),
      fun result m f ended => ?_⟩
    have left : Tally deploys invokes calls f :=
      ((tallied deploys invokes).ended_iff fun _ _ => Iff.rfl).1 ended
    exact left.uncounted ((uncounted_conclude config ctx code result m f).trans
      (uncounted_endCall ..))
  refine obtain_ends ?_ ?_ ?_ ?_
  · intro code _ _
    exact tally.uncounted (uncounted_endCall ..)
  · intro code _ _
    exact opened (uncounted_lent ctx code h)
  · intro e g _ quiet
    exact tally.uncounted ((Uncounted.of_quiet quiet).trans (uncounted_endCall ..))
  · intro bytecode module _ _
    exact opened (uncounted_kept ctx bytecode module h)

theorem tallied_invariant (config : Config) (deploys invokes : Nat) :
    Invariant config (tallied deploys invokes) where
  broken _ tally := tally
  aborted _ tally := tally
  marked inner tally := tally.uncounted (.of_quiet (.note _ inner))
  quiet quiet tally := tally.uncounted (.of_quiet quiet)
  called := by
    intro chain h setup asked tally
    obtain ⟨_, _, _, deep⟩ := asked.caller
    have begun := Tally.called tally setup (by omega)
    refine (tallied_opens config .reuse _ begun).mono fun result g tally => ?_
    exact (Condition.returned_iff fun _ _ => Iff.rfl).2 (tally.finish result)

end Call

/-! ## Requests -/

/-- True of the deployments that are not refused for their form. -/
def HostRequest.deploys : HostRequest → Bool
  | .deploy fields => (CallRequest.parse fields true).isOk
  | _ => false

/-- True of the invocations that are not refused for their form. -/
def HostRequest.invokes : HostRequest → Bool
  | .invoke _ fields => (CallRequest.parse fields false).isOk
  | _ => false

namespace Call

open Host (Tally Uncounted)

variable {deploys invokes : Nat} {h : Host Module}

/-- A call from outside is counted with its result, and so are all calls inside it. -/
theorem tally_run (config : Config) (load : CodeLoad) (setup : CallSetup)
    (outside : setup.depth = 0) (tally : Tally deploys invokes [setup.contract] h) :
    let p := run config (outermost config) load (created setup h) (Manager.beginCall setup h)
    Tally deploys invokes [] (Manager.finish setup.contract p.1 p.2) := by
  have begun := tally.uncounted (uncounted_beginCall setup outside h)
  have left := (tallied_invariant config deploys invokes).run config.maxCallDepth.toNat
    (tallied_opens config load (created setup h) begun)
  exact Tally.finish left _

theorem tally_deploy (config : Config) (tally : Tally deploys invokes [] h)
    (request : CallRequest) :
    let p := runFrom ((Manager.scripted config).deployAccepted request)
      (deploying request.contract h)
    Tally (deploys + 1) invokes [] (Manager.finish request.contract p.1 p.2) := by
  have counted := tally.deploying request.contract
  refine deployAccepted_cases config
    (fun result g => Tally (deploys + 1) invokes [] (Manager.finish request.contract result g))
    ?_ ?_ ?_
  · intro fault g quiet
    exact (counted.uncounted (.of_quiet quiet)).finish _
  · intro fault f g stored quiet
    exact ((counted.uncounted (.of_stored stored)).uncounted (.of_quiet quiet)).finish _
  · intro f g stored described
    have written := (counted.uncounted (.of_stored stored)).uncounted (.of_stored described)
    exact tally_run config .compile request.initSetup rfl written

theorem tally_serve (config : Config) (tally : Tally deploys invokes [] h) (request : HostRequest) :
    Tally (deploys + request.deploys.toNat) (invokes + request.invokes.toNat) []
      ((Manager.scripted config).serve h request).2 := by
  cases request with
  | deploy fields =>
      show Tally (deploys + (CallRequest.parse fields true).isOk.toNat) invokes []
        (runFrom ((Manager.scripted config).deploy fields) h).2
      rw [runFrom_deploy]
      cases CallRequest.parse fields true with
      | error e => exact tally
      | ok request => exact tally_deploy config tally request
  | invoke method fields =>
      show Tally deploys (invokes + (CallRequest.parse fields false).isOk.toNat) []
        (runFrom ((Manager.scripted config).invokeContract method fields) h).2
      rw [runFrom_invokeContract]
      cases CallRequest.parse fields false with
      | error e => exact tally
      | ok request =>
          exact tally_run config .reuse (request.callSetup method) rfl
            (tally.invoked request.contract)
  | abort contract message => exact tally.uncounted ⟨rfl, rfl, [], rfl, by simp⟩

theorem tally_session (config : Config) (tally : Tally deploys invokes [] h)
    (requests : List HostRequest) :
    Tally (deploys + requests.countP HostRequest.deploys)
      (invokes + requests.countP HostRequest.invokes) []
      ((Manager.scripted config).session h requests) := by
  induction requests generalizing deploys invokes h with
  | nil => exact tally
  | cons request rest ih =>
      have served := ih (tally_serve config tally request)
      have counted (p : HostRequest → Bool) (n : Nat) :
          n + (p request).toNat + rest.countP p = n + (request :: rest).countP p := by
        rw [List.countP_cons]
        cases p request <;> simp [Nat.add_comm, Nat.add_left_comm]
      rw [← counted, ← counted]
      exact served

/-! ## Under watch -/

/-- The started calls that the counters miss among the finished ones are those that are
open. -/
def countsOpenCalls (h : Host Module) : Bool :=
  h.stats.deploys + h.stats.invocations ==
    h.stats.successes + h.stats.failures + (openCalls h.journal).length

theorem tallied_passed (deploys invokes : Nat) :
    Passed (tallied deploys invokes) countsOpenCalls where
  holds {chain h} tally := by
    unfold countsOpenCalls
    rw [tally.opened, tally.started, beq_self_eq_true]
  broken {chain e h} tally := by
    unfold countsOpenCalls
    rw [tally.opened, tally.started, beq_self_eq_true]

theorem stored_of_putKey {key value : Bytes} {f : Host Module}
    (put : runFrom ((HostM.putKey key value).mapError HostError.storage) h = (.ok (), f)) :
    h.Stored key value f := by
  have stored := Host.putKey_ends key value h
  rw [runFrom_mapError] at put
  revert put stored
  rcases runFrom (HostM.putKey key value) h with ⟨fault | _, g⟩
  · exact nofun
  · intro put stored
    cases put
    exact stored

theorem tally_deploy_watched (config : Config) (tally : Tally deploys invokes [] h)
    (fields : RequestFields) :
    runFrom (((Manager.scripted config).watched countsOpenCalls).deploy fields) h =
      runFrom ((Manager.scripted config).deploy fields) h := by
  refine runFrom_bind_congr rfl fun request g parsed => ?_
  rw [runFrom_liftExcept] at parsed
  obtain ⟨_, rfl⟩ := Prod.mk.inj parsed
  rw [runFrom_modify_bind, runFrom_modify_bind]
  refine runFrom_bind_congr ?_ fun _ _ _ => rfl
  rw [runFrom_attempt, runFrom_attempt]
  let manager := Manager.scripted config
  let start := deploying request.contract h
  suffices same : runFrom ((manager.watched countsOpenCalls).deployAccepted request) start =
      runFrom (manager.deployAccepted request) start from
    congrArg (fun p => (Except.ok p.1, p.2)) same
  refine runFrom_bind_congr rfl fun _ f put => ?_
  refine runFrom_bind_congr rfl fun _ k put' => ?_
  have written := ((tally.deploying request.contract).uncounted
    (.of_stored (stored_of_putKey put))).uncounted (.of_stored (stored_of_putKey put'))
  have begun := written.uncounted (uncounted_beginCall request.initSetup rfl k)
  have inv := tallied_invariant config (deploys + 1) invokes
  exact runCall_outermost_watched inv.upheld (tallied_passed (deploys + 1) invokes)
    (inv.begins (tallied_opens config .compile (created request.initSetup k) begun))

theorem tally_invoke_watched (config : Config) (tally : Tally deploys invokes [] h)
    (method : String) (fields : RequestFields) :
    runFrom (((Manager.scripted config).watched countsOpenCalls).invokeContract method fields) h =
      runFrom ((Manager.scripted config).invokeContract method fields) h := by
  refine runFrom_bind_congr rfl fun request g parsed => ?_
  rw [runFrom_liftExcept] at parsed
  obtain ⟨_, rfl⟩ := Prod.mk.inj parsed
  have begun := (tally.invoked request.contract).uncounted
    (uncounted_beginCall (request.callSetup method) rfl _)
  have inv := tallied_invariant config deploys (invokes + 1)
  have passed := tallied_passed deploys (invokes + 1)
  exact invoke_watched inv.upheld passed (nestedCall_watched inv.upheld passed _)
    (inv.upheld.nestedCall _) (request.callSetup method)
    (inv.begins (tallied_opens config .reuse _ begun))

/-- A request is served under watch as it is without. -/
theorem tally_watched (config : Config) (tally : Tally deploys invokes [] h)
    (request : HostRequest) :
    ((Manager.scripted config).watched countsOpenCalls).serve h request =
      (Manager.scripted config).serve h request := by
  cases request with
  | deploy fields =>
      rw [Manager.serve_deploy, Manager.serve_deploy, tally_deploy_watched config tally fields]
  | invoke method fields =>
      rw [Manager.serve_invoke, Manager.serve_invoke,
        tally_invoke_watched config tally method fields]
  | abort contract message => rfl

/-! ## What is checked before a call inside a call -/

/-- The checks that a call of a contract has to pass before it is made for a context: of its
depth, of the contract's name, and of its language. -/
def checks (config : Config) (caller : Context) (contract : String) :
    HostM Module HostError String := do
  if config.maxCallDepth.toNat < caller.setup.depth + 1 then
    throw (.depthExceeded (caller.setup.depth + 1) config.maxCallDepth.toNat)
  Naming.validate contract
  HostM.contractLanguage contract

section Checks

variable (config : Config) (caller : Context) (contract : String) (h : Host Module)

theorem quiet_checks : h.Quiet (runFrom (checks config caller contract) h).2 := by
  unfold checks
  by_cases deep : config.maxCallDepth.toNat < caller.setup.depth + 1
  · rw [if_pos deep]
    exact .refl h
  · rw [if_neg deep]
    dsimp only
    rw [runFrom_bind, runFrom_liftExcept]
    cases Naming.validate contract with
    | error e => exact .refl h
    | ok _ =>
        have read : Ends (fun _ => h.Quiet) (fun _ => h.Quiet)
            (runFrom (HostM.contractLanguage contract : HostM Module HostError String) h) :=
          (Host.unseen_contractLanguage contract h).mono
            (fun _ _ read => read.1.quiet) fun _ _ read => read.2.quiet
        exact read.state

/-- A call that a context asks for fails a check and is answered so, or is counted and made. -/
theorem runFrom_invokerAt (method : String) (args : Arguments) :
    runFrom ((Manager.scripted config).invokerAt caller.setup.depth caller contract method args) h =
      match runFrom (checks config caller contract) h with
      | (.error e, g) => (.error e, g)
      | (.ok language, g) =>
        let setup := nestedSetup caller contract method args language
        let f := invoked contract g
        let p := run config ((Manager.scripted config).invokerAt setup.depth) .reuse
          (created setup f) (Manager.beginCall setup f)
        runFrom (relay p.1) (Manager.finish contract p.1 p.2) := by
  unfold Manager.invokerAt checks
  by_cases deep : config.maxCallDepth.toNat < caller.setup.depth + 1
  · rw [nestedCall_of_deep config _ contract method args deep, if_pos deep]
    rfl
  · have room : (Manager.scripted config).config.maxCallDepth.toNat - caller.setup.depth =
        config.maxCallDepth.toNat - (caller.setup.depth + 1) + 1 := by
      show config.maxCallDepth.toNat - _ = _
      omega
    rw [room, nestedCall_succ config _ contract method args deep, if_neg deep]
    dsimp only
    rw [runFrom_bind, runFrom_bind, runFrom_liftExcept]
    cases Naming.validate contract with
    | error e => rfl
    | ok _ =>
        dsimp only
        rw [runFrom_bind]
        rcases runFrom (HostM.contractLanguage contract : HostM Module HostError String) h with
          ⟨e | language, g⟩
        · rfl
        · dsimp only
          rw [runFrom_bind, runFrom_attempt, runFrom_invoke]
          rfl

end Checks

end Call

/-- What a host counts after any requests, whatever programs do and whatever happens around
the store. Deployments and invocations together are successes and failures together. The
deployments are the requests to deploy that were accepted, the invocations the requests to
invoke that were accepted and the calls inside calls, each with a context of its own below
the outermost depth. Evictions are the finished calls whose errors cost code. The gas is
the sum of what was charged for each finished call, or the largest word. A request that is
refused changes nothing at all.

Whenever in a request a program is entered or left, asks for a service or is answered, what
was started and has neither succeeded nor failed are the open calls: a test of that, which would
leave a line in the debug output each time it fails, makes no difference at all.

Whatever the state of the host, a call that a context asks for and that fails the checks of
its depth, name or language is answered with that failure, and nothing is counted. One that
passes is counted as an invocation, its context is created, and then the call is run. -/
theorem session_stats_conserved (config : Config) (store : Store) (surroundings : Surroundings)
    (requests : List HostRequest) :
    let manager := Manager.scripted config
    let h := manager.session (.fresh store surroundings) requests
    let results := resultsIn h.journal
    openCalls h.journal = [] ∧
    h.stats.deploys + h.stats.invocations = h.stats.successes + h.stats.failures ∧
    h.stats.deploys = requests.countP HostRequest.deploys ∧
    h.stats.invocations = requests.countP HostRequest.invokes + h.contexts.inner ∧
    h.stats.successes = results.countP (·.isOk) ∧
    h.stats.failures = results.countP (! ·.isOk) ∧
    h.stats.evictions = results.countP Manager.evicts ∧
    h.stats.totalGas.toNat = min (2 ^ 64 - 1) (gasOf results) ∧
    (∀ request e, request.parsed? = some (.error e) →
      manager.serve h request = (some (.error e), h)) ∧
    (∀ request,
      (manager.watched Call.countsOpenCalls).serve h request = manager.serve h request) ∧
    ∀ (k : Host Module) caller contract method args,
      let checked := runFrom (Call.checks config caller contract) k
      let answered :=
        runFrom (manager.invokerAt caller.setup.depth caller contract method args) k
      checked.2.stats = k.stats ∧ checked.2.contexts.setups = k.contexts.setups ∧
      match checked.1 with
      | .error e => answered = (.error e, checked.2)
      | .ok language =>
        let setup := Call.nestedSetup caller contract method args language
        let counted := Call.invoked contract checked.2
        let begun := Manager.beginCall setup counted
        let p := Call.run config (manager.invokerAt setup.depth) .reuse
          (Call.created setup counted) begun
        begun.stats = { k.stats with invocations := k.stats.invocations + 1 } ∧
          begun.contexts.setups = k.contexts.setups.push setup ∧ 0 < setup.depth ∧
          answered = runFrom (Call.relay p.1) (Manager.finish contract p.1 p.2) := by
  intro manager h results
  have tally := Call.tally_session config (.fresh store surroundings) requests
  rw [Nat.zero_add, Nat.zero_add] at tally
  refine ⟨tally.opened, tally.started, tally.deploys, tally.invocations, tally.successes,
    tally.failures, tally.evictions, ?gas, ?refused, Call.tally_watched config tally, ?nested⟩
  case gas =>
    rw [tally.totalGas, toNat_cutOff]
    rfl
  case refused =>
    intro request e refused
    cases request with
    | deploy fields =>
        rw [Manager.serve_deploy, Call.runFrom_deploy, Option.some.inj refused]
    | invoke method fields =>
        rw [Manager.serve_invoke, Call.runFrom_invokeContract, Option.some.inj refused]
    | abort => cases refused
  case nested =>
    intro k caller contract method args
    have quiet := Call.quiet_checks config caller contract k
    have made := Call.runFrom_invokerAt config caller contract k method args
    dsimp only
    revert quiet made
    rcases runFrom (Call.checks config caller contract) k with ⟨e | language, g⟩
    · exact fun quiet made => ⟨quiet.stats, quiet.setups, made⟩
    · intro quiet made
      refine ⟨quiet.stats, quiet.setups, ?_, ?_, Nat.succ_pos _, made⟩
      · show { g.stats with invocations := g.stats.invocations + 1 } = _
        rw [quiet.stats]
      · show (g.contexts.create _).setups = _
        rw [Contexts.setups_create, quiet.setups]

end ContractHost
