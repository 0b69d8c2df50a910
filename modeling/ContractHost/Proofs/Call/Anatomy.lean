/-
# The parts of a call

A call on the script engine goes through fixed stages. It is begun: it gets a context.
It obtains the compiled code of its contract, or fails there. It is made ready: a machine
is booted and prepared and the call is listed as running; on the script engine nothing of
that can fail. Its program is entered. It is parted from machine and code, and what it
left behind decides its result. It is ended, and the result is counted, which may drop
the code of the contract.

Every stage but the run of the program is a plain function of the host, given here, so
that statements about calls speak of a few records and of one run of a program.
-/

import ContractHost.Proofs.Call.Code
import ContractHost.Proofs.CodeCache.Ledger

namespace ContractHost

open Script (Machine Module)

/-- Handing out a signal forgets nothing. -/
theorem Signals.issue_injective {s t : Signals} (same : s.issue = t.issue) : s = t := by
  cases s
  cases t
  exact congrArg Signals.mk (Array.push_inj_left.1 (Signals.mk.inj same))

@[simp]
theorem CodeCache.remove_leases {M : Type} (cache : CodeCache M) (name : String) :
    (cache.remove name).2.leases = cache.leases := by
  unfold CodeCache.remove
  cases cache.find? name <;> rfl

namespace Host

variable {M : Type}

section Settle

variable (change : Option (CompiledCode M) × CodeCache M) (h : Host M)

@[simp]
theorem settle_store : (h.settle change).store = h.store := by
  unfold settle
  cases change.1 <;> rfl

@[simp]
theorem settle_surroundings : (h.settle change).surroundings = h.surroundings := by
  unfold settle
  cases change.1 <;> rfl

@[simp]
theorem settle_contexts : (h.settle change).contexts = h.contexts := by
  unfold settle
  cases change.1 <;> rfl

@[simp]
theorem settle_cache : (h.settle change).cache = change.2 := by
  unfold settle
  cases change.1 <;> rfl

@[simp]
theorem settle_running : (h.settle change).running = h.running := by
  unfold settle
  cases change.1 <;> rfl

@[simp]
theorem settle_modulesCompiled :
    (h.settle change).engineUse.modulesCompiled = h.engineUse.modulesCompiled := by
  unfold settle
  cases change.1 <;> rfl

/-- What is released is counted. -/
theorem settle_modulesReleased : (h.settle change).engineUse.modulesReleased =
    h.engineUse.modulesReleased + change.1.toList.length := by
  unfold settle
  cases change.1 <;> rfl

/-- The event by which a module is given up, if one is. -/
def releases (released? : Option (CompiledCode M)) : List Event :=
  released?.toList.map fun _ => .engine .releaseModule

theorem settle_journal : (h.settle change).journal = releases change.1 ++ h.journal := by
  unfold settle
  cases change.1 <;> rfl

/-- Settling a change leaves the running calls out of account. -/
theorem with_running_settle (running : List RunningCall) :
    { h.settle change with running } = ({ h with running } : Host M).settle change := by
  unfold settle
  cases change.1 <;> rfl

end Settle

end Host

namespace Manager

variable {M : Type}

/-- The host with a result counted. -/
def counted (contract : String) (result : Except HostError Outcome) (h : Host M) : Host M :=
  { h.note (.finished contract result) with stats := h.stats.count result }

/-- True of the results that cost a contract its compiled code. -/
def evicts : Except HostError Outcome → Bool
  | .ok _ => false
  | .error e => e.evictsCode

theorem finish_eq (contract : String) (result : Except HostError Outcome) (h : Host M) :
    finish contract result h =
      if evicts result then (counted contract result h).evict contract
      else counted contract result h := by
  cases result with
  | ok outcome => rfl
  | error e => rfl

/-- What holds of a host with the result counted, whether or not code is dropped, holds of
it when the call is finished. -/
theorem finish_induction {P : Host M → Prop} {contract : String}
    {result : Except HostError Outcome} {h : Host M} (kept : P (counted contract result h))
    (dropped : P ((counted contract result h).evict contract)) :
    P (finish contract result h) := by
  rw [finish_eq]
  split
  · exact dropped
  · exact kept

variable (contract : String) (result : Except HostError Outcome) (h : Host M)

@[simp]
theorem finish_store : (finish contract result h).store = h.store :=
  finish_induction (P := fun g => g.store = h.store) rfl (Host.settle_store ..)

@[simp]
theorem finish_surroundings : (finish contract result h).surroundings = h.surroundings :=
  finish_induction (P := fun g => g.surroundings = h.surroundings) rfl
    (Host.settle_surroundings ..)

@[simp]
theorem finish_contexts : (finish contract result h).contexts = h.contexts :=
  finish_induction (P := fun g => g.contexts = h.contexts) rfl (Host.settle_contexts ..)

@[simp]
theorem finish_running : (finish contract result h).running = h.running :=
  finish_induction (P := fun g => g.running = h.running) rfl (Host.settle_running ..)

@[simp]
theorem finish_leases : (finish contract result h).cache.leases = h.cache.leases := by
  refine finish_induction (P := fun g => g.cache.leases = h.cache.leases) rfl ?_
  show (Host.settle _ _).cache.leases = _
  rw [Host.settle_cache]
  exact CodeCache.remove_leases ..

theorem finish_journal :
    (finish contract result h).journal =
      ((if evicts result then Host.releases (h.cache.remove contract).1 else []) ++
        [.finished contract result]) ++ h.journal := by
  rw [finish_eq, List.append_assoc]
  split
  · exact Host.settle_journal ..
  · rfl

theorem finish_find? (name : String) :
    (finish contract result h).cache.find? name =
      if evicts result ∧ name = contract then none else h.cache.find? name := by
  rw [finish_eq]
  by_cases evicting : evicts result
  · simp only [evicting, ↓reduceIte, true_and]
    show (Host.settle _ _).cache.find? name = _
    rw [Host.settle_cache]
    exact CodeCache.find?_remove ..
  · simp only [evicting, Bool.false_eq_true, ↓reduceIte, false_and]
    rfl

end Manager

/-- Runs a function of a program on a machine, whatever program the machine was booted with. -/
def Script.Program.exec (program : Script.Program) (handler : SyscallHandler Module)
    (machine : Machine) (entry : String) (params : List Int) :
    StateM (Host Module) (Except EngineError Int × Machine) := fun host =>
  if params.length ≠ machine.expectedParams then
    ((.error (.trap .invalidArgument), machine), host)
  else
    match program.exports.get? entry with
    | none => ((.error (.other ("export " ++ entry ++ " not found")), machine), host)
    | some ops =>
      let (result, task) := (Script.Run.operations handler ops).run { machine, host }
      ((result.map fun _ => 0, task.machine), task.host)

/-- A machine runs the program that it was booted with. -/
theorem Script.Machine.exec_eq (handler : SyscallHandler Module) (machine : Machine) :
    machine.exec handler = machine.module.program.exec handler machine := rfl

namespace Call

/-! ## Before the program -/

/-- Code that was obtained for a call is the code cached for its contract. -/
theorem obtain_cached (load : CodeLoad) (ctx : Context) (h : Host Module) :
    Ends (fun code g => g.cache.find? ctx.setup.contract = some code) (fun _ _ => True)
      (obtain load ctx h) := by
  refine obtain_ends (fun _ _ _ => trivial) (fun _ _ found => found) (fun _ _ _ _ => trivial) ?_
  intro bytecode module _ _
  exact (CodeCache.find?_insert h.cache _ bytecode module _).trans (if_pos rfl)

/-- The machine of a call, prepared for its context. -/
def machine (config : Config) (ctx : Context) (module : Module) (signal : SignalId) : Machine :=
  { Machine.ofModule module config.gasLimit with
    language := Language.ofTag? ctx.setup.language
    context := some ctx.id
    writer := some { contract := ctx.setup.contract, context := ctx.id }
    signal := some signal }

/-- The instance of a call on given code. -/
def instanceOn (config : Config) (ctx : Context) (code : CompiledCode Module)
    (signal : SignalId) : Instance Module Machine where
  context := ctx.id
  setup := ctx.setup
  machine := machine config ctx code.module signal
  signal
  code

/-- The events by which the machine of a call is prepared, latest first. -/
def preparations (ctx : Context) : List Event :=
  .engine .attachSignal :: .engine .attachWriter :: .engine (.bind ctx.id) ::
    (Language.ofTag? ctx.setup.language).toList.map fun language =>
      .engine (.installRuntime language)

/-- The host with a machine prepared for a call. -/
def prepare (ctx : Context) (h : Host Module) : Host Module :=
  { h with
    engineUse.machinesBooted := h.engineUse.machinesBooted + 1
    signals := h.signals.issue
    journal := preparations ctx ++ h.journal }

/-- The host with a call made ready to run. -/
def ready (ctx : Context) (h : Host Module) : Host Module :=
  (prepare ctx h).addRunning
    { context := ctx.id, contract := ctx.setup.contract, signal := h.signals.next }

/-! ## The program -/

/-- The result of a program, unless the call was asked to end. -/
def overruled (signals : Signals) (signal : SignalId) (result : Except HostError Unit) :
    Except HostError Unit :=
  match signals.trap? signal with
  | some trap => .error (.trap trap)
  | none => result

/-- Enters the program of an instance. -/
def enter (nested : Invoker Module) (inst : Instance Module Machine) (h : Host Module) :
    (Except HostError Unit × Machine) × Host Module :=
  match inst.entryPoint with
  | .error e => ((.error e, inst.machine), h)
  | .ok entry =>
    match h.signals.trap? inst.signal with
    | some trap => ((.error (.trap trap), inst.machine), h)
    | none =>
      if inst.machine.memory.isNone then
        ((.error (.engine "bad contract, no memory"), inst.machine), h)
      else
        let p := inst.machine.exec (Syscall.serve (some nested)) entry inst.entryParams
          (h.note (.engine (.exec entry inst.entryParams)))
        let result :=
          match p.1.1 with
          | .ok _ => .ok ()
          | .error e => .error e.toHostError
        ((overruled p.2.signals inst.signal result, p.1.2), p.2)

/-! ## After the program -/

/-- What a call used by itself, as its machine tells. -/
def usage (m : Machine) : Resources where
  cpu := m.gasUsed
  memory := m.memory.getD 0

/-- The host after a call gave up its machine and its lease. -/
def part (id : ContextId) (result : Except HostError Unit) (m : Machine)
    (code : CompiledCode Module) (h : Host Module) : Host Module :=
  let closed := (h.note (.measured id result (usage m))).addLines m.close.1
  ({ closed with
      engineUse.machinesClosed := closed.engineUse.machinesClosed + 1
      journal := .released id :: .engine .closeMachine :: closed.journal }).giveBack code

/-- The result of a call whose program ran to its end, by what the registry knows of it. -/
def verdict (config : Config) (cs : Contexts) (created : Context) (own : Resources) :
    Except HostError Outcome :=
  let ctx := (cs.held? created.id).getD created
  let used := own.add ctx.nestedUsage
  if used.exceeds config.maxLimits then .error (.trap .gasExhausted)
  else
    match ctx.output with
    | none => .error (.missingOutput ctx.setup.contract)
    | some response =>
      let outcome := Outcome.priced response used config.rates
      if response.isError then .error (.contract response outcome.resources outcome.gas)
      else .ok outcome

/-- The registry after that: within limits, the output is taken out. -/
def judged (config : Config) (cs : Contexts) (created : Context) (own : Resources) : Contexts :=
  let ctx := (cs.held? created.id).getD created
  if (own.add ctx.nestedUsage).exceeds config.maxLimits then cs
  else cs.update ctx.id Context.dropOutput

/-- How a call ends whose program ended with a result, and the host then. -/
def conclude (config : Config) (ctx : Context) (code : CompiledCode Module)
    (result : Except HostError Unit) (m : Machine) (h : Host Module) :
    Except HostError Outcome × Host Module :=
  let g := part ctx.id result m code h
  match result with
  | .ok () =>
    (verdict config g.contexts ctx (usage m),
      { g with contexts := judged config g.contexts ctx (usage m) })
  | .error e => (.error e, g)

@[simp]
theorem part_contexts (id : ContextId) (result : Except HostError Unit) (m : Machine)
    (code : CompiledCode Module) (h : Host Module) :
    (part id result m code h).contexts = h.contexts :=
  Host.settle_contexts ..

@[simp]
theorem part_running (id : ContextId) (result : Except HostError Unit) (m : Machine)
    (code : CompiledCode Module) (h : Host Module) :
    (part id result m code h).running = h.running :=
  Host.settle_running ..

@[simp]
theorem part_cache (id : ContextId) (result : Except HostError Unit) (m : Machine)
    (code : CompiledCode Module) (h : Host Module) :
    (part id result m code h).cache = (h.cache.giveBack code).2 :=
  Host.settle_cache ..

@[simp]
theorem part_store (id : ContextId) (result : Except HostError Unit) (m : Machine)
    (code : CompiledCode Module) (h : Host Module) : (part id result m code h).store = h.store :=
  Host.settle_store ..

@[simp]
theorem part_surroundings (id : ContextId) (result : Except HostError Unit) (m : Machine)
    (code : CompiledCode Module) (h : Host Module) :
    (part id result m code h).surroundings = h.surroundings :=
  Host.settle_surroundings ..

theorem part_journal (id : ContextId) (result : Except HostError Unit) (m : Machine)
    (code : CompiledCode Module) (h : Host Module) :
    (part id result m code h).journal =
      (Host.releases (h.cache.giveBack code).1 ++
        [.released id, .engine .closeMachine, .measured id result (usage m)]) ++ h.journal := by
  rw [List.append_assoc]
  exact Host.settle_journal ..

theorem judged_quiet (config : Config) (cs : Contexts) (created : Context) (own : Resources) :
    (judged config cs created own).live = cs.live ∧
      (judged config cs created own).setups = cs.setups := by
  unfold judged
  dsimp only
  split
  · exact ⟨rfl, rfl⟩
  · exact ⟨rfl, cs.setups_update _ fun _ => rfl⟩

/-- Whatever decides the result, only what the registry knows of outputs changes by it. -/
theorem conclude_eq (config : Config) (ctx : Context) (code : CompiledCode Module)
    (result : Except HostError Unit) (m : Machine) (h : Host Module) :
    ∃ contexts, (conclude config ctx code result m h).2 =
        { part ctx.id result m code h with contexts } ∧
      contexts.live = h.contexts.live ∧ contexts.setups = h.contexts.setups := by
  cases result with
  | error e =>
      refine ⟨(part ctx.id (.error e) m code h).contexts, rfl, ?_⟩
      rw [part_contexts]
      exact ⟨rfl, rfl⟩
  | ok _ =>
      refine ⟨_, rfl, ?_⟩
      rw [part_contexts]
      exact judged_quiet config h.contexts ctx (usage m)

/-! ## The whole call -/

/-- The context that a call gets. -/
def created (setup : CallSetup) (h : Host Module) : Context := { id := h.contexts.next, setup }

/-- A call whose context was created, to the end of it. -/
def run (config : Config) (nested : Invoker Module) (load : CodeLoad) (ctx : Context)
    (h : Host Module) : Except HostError Outcome × Host Module :=
  match obtain load ctx h with
  | (.error e, g) => (.error e, Manager.endCall ctx.id (.error e) g)
  | (.ok code, g) =>
    let p := enter nested (instanceOn config ctx code g.signals.next) (ready ctx g)
    let q := conclude config ctx code p.1.1 p.1.2 p.2
    (q.1, Manager.endCall ctx.id q.1 q.2)

/-- A call that is to run on freshly compiled code refuses code that is cached. -/
theorem run_stale (config : Config) (nested : Invoker Module) {ctx : Context} {h : Host Module}
    {code : CompiledCode Module} (found : h.cache.find? ctx.setup.contract = some code) :
    run config nested .compile ctx h =
      (.error (.staleCode ctx.setup.contract),
        Manager.endCall ctx.id (.error (.staleCode ctx.setup.contract)) h) := by
  unfold run obtain
  simp only [found]

/-- The host when an invocation is counted as started. -/
def invoked (contract : String) (h : Host Module) : Host Module :=
  { h.note (.started contract) with stats.invocations := h.stats.invocations + 1 }

variable (config : Config)

theorem runFrom_bootFor (ctx : Context) (code : CompiledCode Module) (h : Host Module) :
    runFrom ((Manager.scripted config).backend.bootFor ctx code) h =
      (.ok (instanceOn config ctx code h.signals.next), prepare ctx h) := by
  unfold Backend.bootFor Backend.installLanguage
  cases tag : Language.ofTag? ctx.setup.language
  all_goals
    simp only [runFrom_bind, runFrom_mapError, runFrom_attempt]
    unfold instanceOn machine prepare preparations
    rw [tag]
    rfl

/-- An instance that comes by its code is made ready. -/
theorem runFrom_createInstance (load : CodeLoad) (ctx : Context) (h : Host Module) :
    runFrom ((Manager.scripted config).backend.createInstance load ctx) h =
      match obtain load ctx h with
      | (.error e, g) => (.error e, g)
      | (.ok code, g) => (.ok (instanceOn config ctx code g.signals.next), prepare ctx g) := by
  unfold Backend.createInstance
  rw [runFrom_bind, runFrom_obtainCode]
  rcases obtain load ctx h with ⟨e | code, g⟩
  · rfl
  · dsimp only
    rw [runFrom_bind, runFrom_attempt, runFrom_bootFor]
    rfl

/-- How a function of an instance runs, whoever serves it. -/
theorem exec_scripted (handler : SyscallHandler Module) (inst : Instance Module Machine)
    (entry : String) (h : Host Module) :
    inst.exec Script.engine handler entry h =
      match h.signals.trap? inst.signal with
      | some trap => ((.error (.trap trap), inst), h)
      | none =>
        if inst.machine.memory.isNone then
          ((.error (.engine "bad contract, no memory"), inst), h)
        else
          let p := inst.machine.exec handler entry inst.entryParams
            (h.note (.engine (.exec entry inst.entryParams)))
          let result :=
            match p.1.1 with
            | .ok _ => .ok ()
            | .error e => .error e.toHostError
          ((overruled p.2.signals inst.signal result, { inst with machine := p.1.2 }), p.2) := by
  unfold Instance.exec
  rw [runState_bind, runState_get]
  dsimp only
  cases h.signals.trap? inst.signal with
  | some trap => rfl
  | none =>
      change (ite (inst.machine.memory.isNone = true) _ _ : StateM _ _) h = _
      cases inst.machine.memory.isNone with
      | true => rfl
      | false =>
          simp only [Bool.false_eq_true, ↓reduceIte, runState_bind, runState_get,
            runState_modify, Engine.run, show Script.engine.exec = Machine.exec from rfl]
          rcases Machine.exec _ inst.machine entry inst.entryParams _ with ⟨⟨result, machine⟩, g⟩
          unfold overruled
          cases g.signals.trap? inst.signal with
          | some trap => rfl
          | none => cases result <;> rfl

theorem exec_eq (nested : Invoker Module) (inst : Instance Module Machine) {entry : String}
    (named : inst.entryPoint = .ok entry) (h : Host Module) :
    inst.exec Script.engine (Syscall.serve (some nested)) entry h =
      let p := enter nested inst h
      ((p.1.1, { inst with machine := p.1.2 }), p.2) := by
  unfold enter
  rw [exec_scripted, named]
  dsimp only
  cases h.signals.trap? inst.signal with
  | some trap => rfl
  | none => cases inst.machine.memory.isNone <;> rfl

theorem runInstance_eq (nested : Invoker Module) {inst : Instance Module Machine}
    (opened : inst.closed = false) (h : Host Module) :
    (Manager.scripted config).runInstance nested inst h =
      let p := enter nested inst h
      ((p.1.1, usage p.1.2), part inst.context p.1.1 p.1.2 inst.code p.2) := by
  unfold Manager.runInstance
  cases named : inst.entryPoint with
  | error e =>
      have entered : enter nested inst h = ((.error e, inst.machine), h) := by
        unfold enter
        rw [named]
      simp only [runState_bind, runState_pure, entered]
      obtain ⟨context, setup, machine, signal, closed, code⟩ := inst
      subst opened
      rfl
  | ok entry =>
      simp only [runState_bind]
      rw [show (Manager.scripted config).backend.engine = Script.engine from rfl,
        exec_eq nested inst named]
      obtain ⟨context, setup, machine, signal, closed, code⟩ := inst
      subst opened
      rfl

/-- Only the module of the code matters to the program. -/
theorem enter_instanceOn (nested : Invoker Module) (ctx : Context)
    {code code' : CompiledCode Module} (same : code.module = code'.module) (signal : SignalId)
    (h : Host Module) :
    enter nested (instanceOn config ctx code signal) h =
      enter nested (instanceOn config ctx code' signal) h := by
  unfold enter instanceOn
  rw [same]
  rfl

theorem runFrom_settle (created : Context) (own : Resources) (h : Host Module) :
    runFrom ((Manager.scripted config).settle created own) h =
      (verdict config h.contexts created own,
        { h with contexts := judged config h.contexts created own }) := by
  unfold Manager.settle verdict judged
  rw [runFrom_bind, runFrom_get]
  dsimp only
  generalize (h.contexts.held? created.id).getD created = ctx
  rw [show (Manager.scripted config).config = config from rfl]
  cases (own.add ctx.nestedUsage).exceeds config.maxLimits with
  | true => rfl
  | false =>
      cases ctx.output with
      | none => rfl
      | some response =>
          dsimp only
          cases response.isError <;> rfl

theorem runFrom_runIn (nested : Invoker Module) (load : CodeLoad) (ctx : Context)
    (h : Host Module) :
    runFrom ((Manager.scripted config).runIn nested load ctx) h =
      match obtain load ctx h with
      | (.error e, g) => (.error e, g)
      | (.ok code, g) =>
        let p := enter nested (instanceOn config ctx code g.signals.next) (ready ctx g)
        conclude config ctx code p.1.1 p.1.2 p.2 := by
  unfold Manager.runIn
  simp only [runFrom_bind, runFrom_createInstance]
  rcases obtain load ctx h with ⟨e | code, g⟩
  · rfl
  · have listed : Host.addRunning ⟨ctx.id, ctx.setup.contract,
        (instanceOn config ctx code g.signals.next).signal⟩ (prepare ctx g) = ready ctx g := rfl
    have opened : (instanceOn config ctx code g.signals.next).closed = false := rfl
    simp only [runFrom_modify, runFrom_liftState, runFrom_liftExcept, listed,
      runInstance_eq config nested opened]
    rcases enter nested (instanceOn config ctx code g.signals.next) (ready ctx g) with
      ⟨⟨e | _, machine⟩, f⟩
    · rfl
    · exact runFrom_settle config ctx _ _

theorem runFrom_runCall (nested : Invoker Module) (load : CodeLoad) (setup : CallSetup)
    (h : Host Module) :
    runFrom ((Manager.scripted config).runCall nested load setup) h =
      run config nested load (created setup h) (Manager.beginCall setup h) := by
  unfold Manager.runCall run created
  simp only [runFrom_bind, runFrom_get, runFrom_modify, runFrom_attempt, runFrom_runIn,
    runFrom_liftExcept]
  rcases obtain load _ (Manager.beginCall setup h) with ⟨e | code, g⟩ <;> rfl

theorem runFrom_invoke (nested : Invoker Module) (setup : CallSetup) (h : Host Module) :
    runFrom ((Manager.scripted config).invoke nested setup) h =
      let g := invoked setup.contract h
      let p := run config nested .reuse (created setup g) (Manager.beginCall setup g)
      (p.1, Manager.finish setup.contract p.1 p.2) := by
  unfold Manager.invoke invoked
  simp only [runFrom_bind, runFrom_modify, runFrom_attempt, runFrom_runCall, runFrom_liftExcept]

/-! ## Calls inside calls -/

/-- The call that a program makes of another contract. -/
def nestedSetup (caller : Context) (contract method : String) (args : Arguments)
    (language : String) : CallSetup where
  contract; method; args; language
  caller := caller.setup.contract
  depth := caller.setup.depth + 1

/-- What a program is answered for such a call: a failure that the called contract reports
itself is an answer like any other. -/
def relay : Except HostError Outcome → HostM Module HostError (Response × Resources)
  | .ok outcome => return (outcome.response, outcome.resources)
  | .error (.contract response resources _) => return (response, resources)
  | .error e => throw e

section Nested

variable (room : Nat) {caller : Context} (contract method : String) (args : Arguments)

/-- A call that would be too deep fails, however much room there is. -/
theorem nestedCall_of_deep (deep : config.maxCallDepth.toNat < caller.setup.depth + 1) :
    (Manager.scripted config).nestedCall room caller contract method args =
      throw (.depthExceeded (caller.setup.depth + 1) config.maxCallDepth.toNat) := by
  cases room with
  | zero => rfl
  | succ room => exact if_pos deep

/-- Any other call is made where there is room, in the language that is stored for the
contract. -/
theorem nestedCall_succ (bounded : ¬ config.maxCallDepth.toNat < caller.setup.depth + 1) :
    (Manager.scripted config).nestedCall (room + 1) caller contract method args = (do
      Naming.validate contract
      let language ← HostM.contractLanguage contract
      let result ← ((Manager.scripted config).invoke ((Manager.scripted config).nestedCall room)
        (nestedSetup caller contract method args language)).attempt
      relay result) :=
  if_neg bounded

end Nested

end Call

end ContractHost
