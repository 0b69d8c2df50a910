/-
# Who reports stale code

A call that insists on fresh code refuses code that is cached already, and only a deployment
makes such a call. Nothing else a host does fails in that way: not the store, not the engine,
not the services, and no call that a program makes, since such calls are content with cached
code. So whether a deployment reports stale code is decided when its call looks for the code.
-/

import ContractHost.Proofs.Call.Course
import ContractHost.Proofs.Script.Congruence

namespace ContractHost

open Script (Machine Module)

/-- True of the report that code was never dropped. -/
def HostError.isStale : HostError → Bool
  | .staleCode _ => true
  | _ => false

/-- Whatever state an action is run from, what it fails with is of a kind. -/
def FailsWith {σ ε α : Type} (Kind : ε → Prop) (action : ExceptT ε (StateM σ) α) : Prop :=
  ∀ s, Ends (fun _ _ => True) (fun e _ => Kind e) (runFrom action s)

namespace FailsWith

variable {σ ε ε' α β M : Type} {Kind : ε → Prop}

theorem pure (x : α) : FailsWith Kind (pure x : ExceptT ε (StateM σ) α) := fun _ => trivial

theorem throw {e : ε} (kind : Kind e) : FailsWith Kind (throw e : ExceptT ε (StateM σ) α) :=
  fun _ => kind

theorem get : FailsWith Kind (get : ExceptT ε (StateM σ) σ) := fun _ => trivial

theorem modify (f : σ → σ) : FailsWith Kind (modify f : ExceptT ε (StateM σ) PUnit) :=
  fun _ => trivial

theorem liftExcept {result : Except ε α} (kind : ∀ e, result = .error e → Kind e) :
    FailsWith Kind (liftM result : ExceptT ε (StateM σ) α) := by
  intro s
  cases result with
  | ok x => exact trivial
  | error e => exact kind e rfl

theorem bind {action : ExceptT ε (StateM σ) α} {next : α → ExceptT ε (StateM σ) β}
    (first : FailsWith Kind action) (rest : ∀ x, FailsWith Kind (next x)) :
    FailsWith Kind (action >>= next) :=
  fun s => (first s).bind fun x s' _ => rest x s'

theorem mapError {f : ε' → ε} {action : HostM M ε' α}
    (fails : FailsWith (fun e => Kind (f e)) action) : FailsWith Kind (action.mapError f) :=
  fun h => (fails h).mapError

end FailsWith

/-! ## Services -/

/-- True of the failures that are not about stale code. -/
abbrev Unstale (e : HostError) : Prop := e.isStale = false

section Services

variable {M : Type} {nested : Invoker M}

theorem unstale_storage {α : Type} (action : HostM M StoreError α) :
    FailsWith Unstale (action.mapError HostError.storage) := by
  refine FailsWith.mapError fun h => ?_
  rcases runFrom action h with ⟨fault | x, g⟩
  · exact rfl
  · exact trivial

theorem unstale_requireContext (id : ContextId) :
    FailsWith Unstale (Syscall.requireContext id : HostM M HostError Context) := by
  refine FailsWith.bind .get fun h => ?_
  split
  · exact .pure _
  · exact .throw rfl

theorem unstale_contractLanguage (contract : String) :
    FailsWith Unstale (HostM.contractLanguage contract : HostM M HostError String) := by
  refine FailsWith.bind (unstale_storage _) fun tag? => ?_
  cases tag? with
  | none => exact .throw rfl
  | some tag =>
      dsimp only
      split
      · exact .pure _
      · exact .throw rfl

variable (serves : ∀ ctx contract method args, FailsWith Unstale (nested ctx contract method args))

include serves

/-- No service reports stale code where calls do not. -/
theorem unstale_answer (id : ContextId) (request : SyscallRequest) :
    FailsWith Unstale (Syscall.answer (some nested) id request) := by
  have known := unstale_requireContext (M := M) id
  cases request with
  | putObject key value =>
      refine FailsWith.bind (.bind known fun ctx => ?_) fun _ => .pure _
      cases value with
      | none => exact .throw rfl
      | some value => exact unstale_storage _
  | getObject key =>
      refine FailsWith.bind (.bind known fun ctx => ?_) fun _ => .pure _
      refine FailsWith.bind (unstale_storage _) fun value? => ?_
      cases value? with
      | none => exact .throw rfl
      | some value => exact .pure _
  | deleteObject key =>
      exact .bind (.bind known fun ctx => unstale_storage _) fun _ => .pure _
  | getCallArgs => exact .bind (.bind known fun _ => .pure _) fun _ => .pure _
  | setOutput response => exact .bind (.bind known fun _ => .modify _) fun _ => .pure _
  | transfer payer payee amount => exact .bind (.bind known fun _ => .pure _) fun _ => .pure _
  | contractCall module contract method args =>
      refine FailsWith.bind (.bind known fun ctx => ?_) fun _ => .pure _
      dsimp only
      split
      · exact .bind (.throw rfl) fun _ => .bind (serves ctx contract method _) fun _ =>
          .bind (.modify _) fun _ => .pure _
      · exact .bind (serves ctx contract method _) fun _ => .bind (.modify _) fun _ => .pure _

theorem unstale_serve (id : ContextId) (request : SyscallRequest) :
    FailsWith Unstale (Syscall.serve (some nested) id request) := by
  intro h
  rw [Host.runFrom_serve]
  have answered := unstale_answer serves id request (h.note (.syscall id request h.contexts.live))
  revert answered
  rcases runFrom (Syscall.answer (some nested) id request) _ with ⟨e | answer, g⟩
  · exact fun kind => kind
  · exact fun _ => trivial

end Services

/-! ## Programs -/

namespace Script

/-- True of the failures of a program that are not about stale code. -/
abbrev Unstale (e : EngineError) : Prop := e.toHostError.isStale = false

variable {handler : SyscallHandler Module}
  (serves : ∀ id request, FailsWith ContractHost.Unstale (handler id request))

namespace Run

theorem unstale_orTrap {α : Type} (result : Except Trap α) : FailsWith Unstale (orTrap result) := by
  cases result with
  | ok x => exact .pure x
  | error trap => exact .throw rfl

theorem unstale_expand (template : String) : FailsWith Unstale (expand template) :=
  .bind .get fun _ => unstale_orTrap _

theorem unstale_checkSignal : FailsWith Unstale checkSignal := by
  refine FailsWith.bind .get fun task => ?_
  split
  · exact .throw rfl
  · exact .pure _

theorem unstale_charge (gas : UInt64) : FailsWith Unstale (charge gas) := by
  refine FailsWith.bind (.modify _) fun _ => .bind .get fun task => ?_
  dsimp only
  split
  · exact .throw rfl
  · exact .pure _

theorem unstale_onHost {α : Type} {action : HostM Module EngineError α}
    (fails : FailsWith Unstale action) : FailsWith Unstale (onHost action) := by
  intro task
  have ends := fails task.host
  change Ends _ _ ((runFrom action task.host).1, { task with host := (runFrom action task.host).2 })
  revert ends
  rcases runFrom action task.host with ⟨e | x, g⟩
  · exact id
  · exact id

include serves

theorem unstale_syscall (request : SyscallRequest) :
    FailsWith Unstale (syscall handler request) := by
  refine FailsWith.bind .get fun task => ?_
  dsimp only
  split
  · exact .throw rfl
  · split
    · exact .throw rfl
    · refine unstale_onHost ?_
      unfold Syscall.callBound
      split
      · exact .throw rfl
      · exact .mapError (serves _ _)

theorem unstale_readObject (key : Bytes) (fallback : Option String) :
    FailsWith Unstale (readObject handler key fallback) := by
  intro task
  rw [runFrom_readObject]
  have read := unstale_syscall serves (.getObject key) task
  revert read
  rcases runFrom (syscall handler (.getObject key)) task with ⟨e | answer, after⟩
  · intro kind
    unfold afterRead
    dsimp only
    split
    · exact trivial
    · exact trivial
    · exact unstale_expand _ after
    · next same _ =>
      cases same
      exact kind
  · intro _
    cases answer <;> exact trivial

theorem unstale_congruence :
    Congruence (fun _ => True) handler handler fun action _ => FailsWith Unstale action where
  pure x := .pure x
  bind first rest := .bind first rest
  trap _ _ := .throw rfl
  expand template _ := unstale_expand template
  expandNumber _ _ := .bind .get fun _ => unstale_orTrap _
  assign _ _ := .modify _
  checkSignal _ _ := unstale_checkSignal
  burn gas _ := unstale_charge gas
  start _ := .bind unstale_checkSignal fun _ => .bind (unstale_charge _) fun _ =>
    .bind .get fun _ => unstale_onHost (.modify _)
  grow _ := .modify _
  writeLine _ := .modify _
  syscall request _ := unstale_syscall serves request
  readObject key fallback _ _ := unstale_readObject serves key fallback
  select := unstale_expand

end Run

include serves in
/-- No program reports stale code where its services do not. -/
theorem Machine.unstale_exec (machine : Machine) (entry : String) (params : List Int)
    (h : Host Module) :
    ∀ e, (machine.exec handler entry params h).1.1 = .error e → Unstale e := by
  unfold Machine.exec
  split
  · rintro _ ⟨⟩
    rfl
  · split
    · rintro _ ⟨⟩
      rfl
    · next ops _ =>
      have ran := (Run.unstale_congruence serves).operations ops (fun _ _ _ _ => trivial)
        { machine, host := h }
      revert ran
      unfold runFrom
      rcases (Run.operations handler ops).run { machine, host := h } with ⟨e | _, task⟩
      · rintro kind _ ⟨⟩
        exact kind
      · exact fun _ => nofun

end Script

/-! ## Calls -/

namespace Call

variable (config : Config)

theorem unstale_verdict (cs : Contexts) (created : Context) (own : Resources) :
    ∀ e, verdict config cs created own = .error e → Unstale e := by
  unfold verdict
  dsimp only
  split
  · rintro _ ⟨⟩
    rfl
  · split
    · rintro _ ⟨⟩
      rfl
    · split
      · rintro _ ⟨⟩
        rfl
      · exact nofun

theorem unstale_conclude {result : Except HostError Unit}
    (entered : ∀ e, result = .error e → Unstale e) (ctx : Context) (code : CompiledCode Module)
    (m : Machine) (h : Host Module) :
    ∀ e, (conclude config ctx code result m h).1 = .error e → Unstale e := by
  cases result with
  | ok _ => exact unstale_verdict config _ ctx (usage m)
  | error e =>
      rintro _ ⟨⟩
      exact entered e rfl

theorem unstale_relay {result : Except HostError Outcome}
    (called : ∀ e, result = .error e → Unstale e) : FailsWith Unstale (relay result) := by
  intro h
  cases result with
  | ok outcome => exact trivial
  | error e =>
      cases e with
      | contract response used gas => exact trivial
      | _ => exact called _ rfl

section Nested

variable {nested : Invoker Module}
  (serves : ∀ ctx contract method args, FailsWith Unstale (nested ctx contract method args))

include serves

theorem unstale_enter (inst : Instance Module Machine) (h : Host Module) :
    ∀ e, (enter nested inst h).1.1 = .error e → Unstale e := by
  unfold enter
  cases entered : inst.entryPoint with
  | error e =>
      rintro _ ⟨⟩
      rw [unsupported_of_entryPoint entered]
      rfl
  | ok entry =>
      dsimp only
      cases h.signals.trap? inst.signal with
      | some trap =>
          rintro _ ⟨⟩
          rfl
      | none =>
          dsimp only
          split
          · rintro _ ⟨⟩
            rfl
          · have ran := Script.Machine.unstale_exec (unstale_serve serves) inst.machine entry
              inst.entryParams (h.note (.engine (.exec entry inst.entryParams)))
            revert ran
            rcases inst.machine.exec _ entry inst.entryParams _ with ⟨⟨result, m⟩, g⟩
            intro ran e failed
            dsimp only at failed
            rcases overruled_cases g.signals inst.signal _ with same | ⟨reason, aborted⟩
            · rw [same] at failed
              cases result with
              | ok _ => cases failed
              | error e =>
                  cases failed
                  exact ran e rfl
            · rw [aborted] at failed
              cases failed
              rfl

/-- A call that is content with cached code does not report stale code, and neither does one
that insists on fresh code where none is cached. -/
theorem unstale_run {load : CodeLoad} {ctx : Context} {h : Host Module}
    (content : load = .compile → h.cache.find? ctx.setup.contract = none) :
    ∀ e, (run config nested load ctx h).1 = .error e → Unstale e := by
  have obtained : Ends (fun _ _ => True) (fun e _ => Unstale e) (obtain load ctx h) := by
    unfold obtain
    dsimp only
    cases found : h.cache.find? ctx.setup.contract with
    | some code =>
        cases load with
        | compile =>
          rw [content rfl] at found
          cases found
        | reuse => exact trivial
    | none =>
        cases h.surroundings.fault? h.accesses .get (StoreKey.code ctx.setup.contract) with
        | some fault => exact rfl
        | none =>
            cases built : h.store.build ctx.setup.contract with
            | ok _ => exact trivial
            | error e =>
                obtain rfl | rfl | ⟨_, rfl⟩ | ⟨_, rfl⟩ := Store.error_of_build built
                all_goals exact rfl
  unfold run
  revert obtained
  rcases obtain load ctx h with ⟨e | code, g⟩
  · rintro kind _ ⟨⟩
    exact kind
  · exact fun _ => unstale_conclude config (unstale_enter serves _ (ready ctx g)) ctx code _ _

end Nested

/-- No call that a program makes reports stale code. -/
theorem unstale_nestedCall (room : Nat) (caller : Context) (contract method : String)
    (args : Arguments) :
    FailsWith Unstale
      ((Manager.scripted config).nestedCall room caller contract method args) := by
  induction room generalizing caller contract method args with
  | zero => exact .throw rfl
  | succ room ih =>
      by_cases deep : config.maxCallDepth.toNat < caller.setup.depth + 1
      · rw [nestedCall_of_deep config (room + 1) contract method args deep]
        exact .throw rfl
      · rw [nestedCall_succ config room contract method args deep]
        refine FailsWith.bind (.liftExcept fun e named => ?_) fun _ => ?_
        · rw [Naming.eq_invalidName_of_validate named]
          rfl
        · refine FailsWith.bind (unstale_contractLanguage contract) fun language h => ?_
          rw [runFrom_bind, runFrom_attempt, runFrom_invoke]
          dsimp only
          refine unstale_relay (unstale_run config ih ?_) _
          exact nofun

end Call

end ContractHost
