/-
# Runs under watch

What is said of a host at every moment inside calls is made visible by a watch. A manager
under watch tests its host whenever a program is entered or left, asks for a service, or
is answered, at whatever depth, and each time the test fails it leaves a line in the debug
output, which nothing takes out again. If it serves requests exactly as the manager without
a watch does, then the test never failed.

That is so for every test that is passed wherever a condition holds that is upheld
throughout calls.
-/

import ContractHost.Proofs.Call.Course
import ContractHost.Proofs.Call.Session

namespace ContractHost

open Script (Machine Module)

/-- Actions on a state that come to the same go on alike. -/
theorem runState_bind_congr {σ α β : Type} {first second : StateM σ α} {next next' : α → StateM σ β}
    {s : σ} (same : first s = second s) (rest : ∀ x t, next x t = next' x t) :
    (first >>= next) s = (second >>= next') s := by
  rw [runState_bind, runState_bind, same]
  exact rest _ _

section Bind

variable {σ ε α β : Type} {s : σ}

theorem runFrom_get_bind (next : σ → ExceptT ε (StateM σ) α) :
    runFrom (get >>= next) s = runFrom (next s) s := rfl

theorem runFrom_modify_bind (f : σ → σ) (next : PUnit → ExceptT ε (StateM σ) α) :
    runFrom (modify f >>= next) s = runFrom (next ⟨⟩) (f s) := rfl

/-- Actions that may fail and come to the same go on alike where what follows does. -/
theorem runFrom_bind_congr {first second : ExceptT ε (StateM σ) α}
    {next next' : α → ExceptT ε (StateM σ) β} (same : runFrom first s = runFrom second s)
    (rest : ∀ x t, runFrom second s = (.ok x, t) → runFrom (next x) t = runFrom (next' x) t) :
    runFrom (first >>= next) s = runFrom (second >>= next') s := by
  rw [runFrom_bind, runFrom_bind, same]
  revert rest
  rcases runFrom second s with ⟨e | x, t⟩
  · exact fun _ => rfl
  · exact fun rest => rest x t rfl

end Bind

/-- Engines that run the machine of an instance alike run the instance alike. -/
theorem Instance.exec_congr {M P : Type} {engine engine' : Engine M P}
    {handler handler' : SyscallHandler M} {inst : Instance M P} {entry : String} {h : Host M}
    (memory : engine.memorySize inst.machine = engine'.memorySize inst.machine)
    (ran : engine.run handler inst.machine entry inst.entryParams h =
      engine'.run handler' inst.machine entry inst.entryParams h) :
    inst.exec engine handler entry h = inst.exec engine' handler' entry h := by
  unfold Instance.exec
  rw [runState_bind, runState_bind, runState_get]
  dsimp only
  cases h.signals.trap? inst.signal with
  | some trap => rfl
  | none =>
      dsimp only
      rw [memory]
      split
      · rfl
      · exact runState_bind_congr ran fun _ _ => rfl

section Watch

variable {M P : Type} (test : Host M → Bool)

/-- The line that a failed test leaves. It is nobody's own, since every contract has a name. -/
def LogLine.ofFailedTest : LogLine where
  contract := ""
  context := default
  octets := Utf8.encode "test failed"

/-- The host after it was tested. -/
def Host.tested (h : Host M) : Host M := if test h then h else h.addLines [.ofFailedTest]

/-- A handler that tests the host whenever a service is asked for and whenever it was
served. -/
def SyscallHandler.watched (handler : SyscallHandler M) : SyscallHandler M := fun id request => do
  modify (Host.tested test)
  let result ← (handler id request).attempt
  modify (Host.tested test)
  return ← result

/-- An engine that tests the host whenever a program is entered or left as well. -/
def Engine.watched (engine : Engine M P) : Engine M P :=
  { engine with
    exec := fun handler machine entry params => do
      modify (Host.tested test)
      let left ← engine.exec (SyscallHandler.watched test handler) machine entry params
      modify (Host.tested test)
      return left }

/-- A manager whose programs run under watch. -/
def Manager.watched (manager : Manager M P) : Manager M P :=
  { manager with backend.engine := manager.backend.engine.watched test }

variable {test}

/-- A host that passes the test is as it was. -/
theorem Host.tested_of_passed {h : Host M} (passes : test h = true) : h.tested test = h :=
  if_pos passes

/-- A service is not disturbed where the host passes the test before and after it. -/
theorem SyscallHandler.runFrom_watched {handler : SyscallHandler M} {id : ContextId}
    {request : SyscallRequest} {h : Host M} (before : test h = true)
    (after : test (runFrom (handler id request) h).2 = true) :
    runFrom (SyscallHandler.watched test handler id request) h =
      runFrom (handler id request) h := by
  unfold SyscallHandler.watched
  simp only [runFrom_bind, runFrom_modify, Host.tested_of_passed before, runFrom_attempt,
    Host.tested_of_passed after, runFrom_liftExcept]

end Watch

/-- A script that runs to its end returns zero. -/
theorem Script.Machine.exec_returns {handler : SyscallHandler Module} {machine : Machine}
    {entry : String} {params : List Int} {h : Host Module} {value : Int}
    (ran : (machine.exec handler entry params h).1.1 = .ok value) : value = 0 := by
  unfold Machine.exec at ran
  split at ran
  · cases ran
  · split at ran
    · cases ran
    · revert ran
      rcases (Run.operations handler _).run _ with ⟨e | _, _⟩
      · exact nofun
      · exact fun ran => (Except.ok.inj ran).symm

namespace Call

/-- A test that is passed wherever a condition holds. -/
structure Passed {ι : Type} (C : Condition ι) (test : Host Module → Bool) : Prop where
  holds : ∀ {frame h}, C.Holds frame h → test h = true
  broken : ∀ {frame e h}, C.Broken frame e h → test h = true

/-- One invoker serves the calls of running calls just as another one does. -/
def Matches {ι : Type} (C : Condition ι) (first second : Invoker Module) : Prop :=
  ∀ ⦃frame h ctx⦄ contract method args, h.contexts.find? (C.context frame) = some ctx →
    C.Holds frame h →
    Dispatched (C.context frame)
      (.contractCall SyscallRequest.contractModule contract method args) h →
    runFrom (first ctx contract method (Arguments.ofPairs args)) h =
      runFrom (second ctx contract method (Arguments.ofPairs args)) h

section Watch

variable {ι : Type} {config : Config} {C : Condition ι} (up : Upheld config C)
  {test : Host Module → Bool} (passed : Passed C test) {first second : Invoker Module}
  (matching : Matches C first second) {frame : ι} {h : Host Module}

include up matching in
theorem serve_matching (holds : C.Holds frame h) (request : SyscallRequest) :
    runFrom (Syscall.serve (some first) (C.context frame) request) h =
      runFrom (Syscall.serve (some second) (C.context frame) request) h := by
  rw [Host.runFrom_serve, Host.runFrom_serve]
  suffices same : runFrom (Syscall.answer (some first) (C.context frame) request)
      (h.note (.syscall (C.context frame) request h.contexts.live)) =
        runFrom (Syscall.answer (some second) (C.context frame) request)
          (h.note (.syscall (C.context frame) request h.contexts.live)) by rw [same]
  cases request with
  | contractCall module contract method args =>
      have dispatched := up.acted (.dispatchCall h module contract method args) holds
      generalize asked : h.note (.syscall (C.context frame) _ h.contexts.live) = g at dispatched ⊢
      cases found : g.contexts.find? (C.context frame) with
      | none => rw [Host.runFrom_answer_unknown found, Host.runFrom_answer_unknown found]
      | some ctx =>
          by_cases known : module = SyscallRequest.contractModule
          · subst known
            have here : Dispatched (C.context frame)
                (.contractCall SyscallRequest.contractModule contract method args) g :=
              ⟨[], h.contexts.live, h.journal, by rw [← asked]; rfl, by simp⟩
            rw [Host.runFrom_answer_call found, Host.runFrom_answer_call found, runFrom_bind,
              runFrom_bind, matching contract method args found dispatched here]
          · rw [Host.runFrom_answer_foreign found known, Host.runFrom_answer_foreign found known]
  | _ => rfl

include up passed matching

/-- Programs that run under watch are served alike. -/
theorem servedAlike_watched (serves : C.Serves second) (frame : ι) :
    Script.ServedAlike (C.accord config frame)
      (SyscallHandler.watched test (Syscall.serve (some first))) (Syscall.serve (some second)) := by
  have plain := up.servedAlike serves frame
  have undisturbed {h : Host Module} (holds : C.Holds frame h) (request : SyscallRequest) :
      runFrom (SyscallHandler.watched test (Syscall.serve (some first)) (C.context frame) request)
          h =
        runFrom (Syscall.serve (some second) (C.context frame) request) h := by
    have same := serve_matching up matching holds request
    rw [SyscallHandler.runFrom_watched (passed.holds holds) ?_, same]
    have served := up.serve serves holds request
    rw [same]
    revert served
    rcases runFrom (Syscall.serve (some second) (C.context frame) request) h with ⟨e | x, g⟩
    · exact fun broken => passed.broken broken
    · exact fun holds => passed.holds holds
  exact { plain with
    lasts := fun _ _ _ => False.elim
    served := by
      rintro h _ request ⟨rfl, holds⟩
      show Unless _ _ _ (runFrom (SyscallHandler.watched test _ (C.context frame) request) h) _
      rw [undisturbed holds]
      exact plain.served request ⟨rfl, holds⟩
    read := by
      rintro h _ key ⟨rfl, holds⟩
      show Both _ _ (runFrom (SyscallHandler.watched test _ (C.context frame) _) h) _
      rw [undisturbed holds]
      exact plain.read key ⟨rfl, holds⟩ }

/-- A machine comes to the same under watch. -/
theorem exec_watched (serves : C.Serves second) {machine : Machine}
    (begins : machine.Begins (C.accord config frame)) (entry : String) (params : List Int)
    (holds : C.Holds frame h) :
    (Script.engine.watched test).exec (Syscall.serve (some first)) machine entry params h =
      Script.engine.exec (Syscall.serve (some second)) machine entry params h := by
  have ran := Script.Machine.exec_alike (servedAlike_watched up passed matching serves frame) begins
    entry params (h := h) (k := h) ⟨rfl, holds⟩
  have value := @Script.Machine.exec_returns
    (SyscallHandler.watched test (Syscall.serve (some first))) machine entry params h
  have value' := @Script.Machine.exec_returns (Syscall.serve (some second)) machine entry params h
  simp only [Engine.watched, runState_bind, runState_modify,
    Host.tested_of_passed (passed.holds holds), show Script.engine.exec = Machine.exec from rfl]
  revert ran value value'
  rcases Machine.exec (SyscallHandler.watched test _) machine entry params h with ⟨⟨result, m⟩, g⟩
  rcases Machine.exec (Syscall.serve (some second)) machine entry params h with ⟨⟨result', m'⟩, g'⟩
  rintro (excused | ⟨rfl, ended⟩) value value'
  · exact excused.elim
  · cases result with
    | ok x =>
        cases result' with
        | error e => exact ended.elim
        | ok y =>
            obtain ⟨_, same, holds⟩ := ended
            obtain rfl : g = g' := same
            rw [Host.tested_of_passed (passed.holds holds), value rfl, value' rfl]
            rfl
    | error e =>
        cases result' with
        | ok y => exact ended.elim
        | error e' =>
            obtain ⟨rfl, same, broken⟩ := ended
            obtain rfl : g = g' := same
            rw [Host.tested_of_passed (passed.broken broken)]
            rfl

/-- So does the instance of a call. -/
theorem runInstance_watched (serves : C.Serves second) {ctx : Context}
    (framed : C.context frame = ctx.id) (code : CompiledCode Module) (signal : SignalId)
    (holds : C.Holds frame h) :
    ((Manager.scripted config).watched test).runInstance first
        (instanceOn config ctx code signal) h =
      (Manager.scripted config).runInstance second (instanceOn config ctx code signal) h := by
  have begins : (instanceOn config ctx code signal).machine.Begins (C.accord config frame) := {
    context := congrArg some framed.symm
    limit := rfl
    metered := UInt64.zero_le }
  have same (entry : String) :
      (instanceOn config ctx code signal).exec (Script.engine.watched test)
          (Syscall.serve (some first)) entry h =
        (instanceOn config ctx code signal).exec Script.engine (Syscall.serve (some second))
          entry h := by
    generalize instanceOn config ctx code signal = inst at begins
    have entered : C.Holds frame (h.note (.engine (.exec entry inst.entryParams))) :=
      up.acted (.note h rfl rfl rfl rfl) holds
    exact Instance.exec_congr rfl
      (exec_watched up passed matching serves begins entry inst.entryParams entered)
  unfold Manager.runInstance
  cases (instanceOn config ctx code signal).entryPoint with
  | error e => rfl
  | ok entry => exact runState_bind_congr (same entry) fun _ _ => rfl

/-- So does a call that begins well. -/
theorem runIn_watched (serves : C.Serves second)
    {Closed : Except HostError Outcome → Host Module → Prop}
    {load : CodeLoad} {ctx : Context} (begins : C.Begins config Closed load ctx h) :
    runFrom (((Manager.scripted config).watched test).runIn first load ctx) h =
      runFrom ((Manager.scripted config).runIn second load ctx) h := by
  unfold Condition.Begins at begins
  have opened : ((Manager.scripted config).watched test).backend.createInstance load ctx =
      (Manager.scripted config).backend.createInstance load ctx := rfl
  refine runFrom_bind_congr (by rw [opened]) fun inst f made => ?_
  rw [runFrom_createInstance] at made
  revert begins made
  rcases obtain load ctx h with ⟨e | code, g⟩
  · exact nofun
  · rintro ⟨frame, framed, holds, _⟩ made
    cases made
    rw [runFrom_modify_bind, runFrom_modify_bind]
    refine runFrom_bind_congr ?_ fun _ _ _ => rfl
    rw [runFrom_liftState, runFrom_liftState]
    have ran := runInstance_watched up passed matching serves framed code g.signals.next holds
    exact congrArg (fun p => (Except.ok p.1, p.2)) ran

theorem runCall_watched (serves : C.Serves second)
    {Closed : Except HostError Outcome → Host Module → Prop} {load : CodeLoad} {setup : CallSetup}
    (begins : C.Begins config Closed load (created setup h) (Manager.beginCall setup h)) :
    runFrom (((Manager.scripted config).watched test).runCall first load setup) h =
      runFrom ((Manager.scripted config).runCall second load setup) h := by
  have ran := runIn_watched up passed matching serves begins
  unfold Manager.runCall
  rw [runFrom_get_bind, runFrom_get_bind, runFrom_modify_bind, runFrom_modify_bind]
  refine runFrom_bind_congr ?_ fun _ _ _ => rfl
  rw [runFrom_attempt, runFrom_attempt]
  exact congrArg (fun p => (Except.ok p.1, p.2)) ran

theorem invoke_watched (serves : C.Serves second)
    {Closed : Except HostError Outcome → Host Module → Prop} (setup : CallSetup)
    (begins : C.Begins config Closed .reuse (created setup (invoked setup.contract h))
      (Manager.beginCall setup (invoked setup.contract h))) :
    runFrom (((Manager.scripted config).watched test).invoke first setup) h =
      runFrom ((Manager.scripted config).invoke second setup) h := by
  have ran := runCall_watched up passed matching serves begins
  unfold Manager.invoke
  rw [runFrom_modify_bind, runFrom_modify_bind]
  refine runFrom_bind_congr ?_ fun _ _ _ => rfl
  rw [runFrom_attempt, runFrom_attempt]
  exact congrArg (fun p => (Except.ok p.1, p.2)) ran

end Watch

section Watch

variable {ι : Type} {config : Config} {C : Condition ι} (up : Upheld config C)
  {test : Host Module → Bool} (passed : Passed C test)

include up passed

/-- Calls that nest to any depth come to the same under watch. -/
theorem nestedCall_watched (room : Nat) :
    Matches C (((Manager.scripted config).watched test).nestedCall room)
      ((Manager.scripted config).nestedCall room) := by
  induction room with
  | zero => exact fun _ _ _ _ _ _ _ _ _ => rfl
  | succ room ih =>
      intro frame h ctx contract method args found holds dispatched
      by_cases deep : config.maxCallDepth.toNat < ctx.setup.depth + 1
      · rw [nestedCall_of_deep config (room + 1) contract method _ deep]
        exact congrArg (runFrom · h) (if_pos deep)
      · have made : ((Manager.scripted config).watched test).nestedCall (room + 1) ctx contract
            method (Arguments.ofPairs args) = (do
              Naming.validate contract
              let language ← HostM.contractLanguage contract
              let result ← (((Manager.scripted config).watched test).invoke
                (((Manager.scripted config).watched test).nestedCall room)
                (nestedSetup ctx contract method (Arguments.ofPairs args) language)).attempt
              relay result) := if_neg deep
        rw [nestedCall_succ config room contract method _ deep, made]
        refine runFrom_bind_congr rfl fun _ g valid => ?_
        rw [runFrom_liftExcept] at valid
        obtain ⟨named, rfl⟩ := Prod.mk.inj valid
        refine runFrom_bind_congr rfl fun language g read => ?_
        have requested := up.requested method found holds deep named dispatched
        rw [read] at requested
        obtain ⟨holds, requested⟩ := requested
        refine runFrom_bind_congr ?_ fun _ _ _ => rfl
        rw [runFrom_attempt, runFrom_attempt]
        have ran := invoke_watched up passed ih (up.nestedCall room) _ (up.called requested holds)
        exact congrArg (fun p => (Except.ok p.1, p.2)) ran

/-- A call that begins well comes to the same under watch, with all calls inside it. -/
theorem runCall_outermost_watched {h : Host Module}
    {Closed : Except HostError Outcome → Host Module → Prop} {load : CodeLoad} {setup : CallSetup}
    (begins : C.Begins config Closed load (created setup h) (Manager.beginCall setup h)) :
    runFrom (((Manager.scripted config).watched test).runCall
        (((Manager.scripted config).watched test).invokerAt 0) load setup) h =
      runFrom ((Manager.scripted config).runCall ((Manager.scripted config).invokerAt 0) load setup)
        h :=
  runCall_watched up passed (nestedCall_watched up passed _) (up.nestedCall _) begins

end Watch

end Call

end ContractHost
