/-
# Scripts under a higher limit

A program never learns how much gas it may use. The limit is looked at in one place, when
gas is charged, and a program that passes it breaks off there, with nothing in it that could
go on from such a failure. So a program that does not break off over its limit does the same
under every higher one, as far as its syscalls are served the same.
-/

import ContractHost.Proofs.Script.Congruence

namespace ContractHost

/-- True of the failures over a limit: that of the gas, or that of how deep calls may nest. -/
def HostError.isLimit : HostError → Bool
  | .trap .gasExhausted | .depthExceeded .. => true
  | _ => false

namespace Script

/-- The machine under another limit of its gas. -/
def Machine.withLimit (gasLimit : UInt64) (machine : Machine) : Machine := { machine with gasLimit }

/-- The debug output that is gathered has nothing to do with the limit. -/
theorem Machine.close_withLimit (gasLimit : UInt64) (machine : Machine) :
    (machine.withLimit gasLimit).close =
      (machine.close.1, machine.close.2.withLimit gasLimit) := by
  rcases machine with ⟨module, limit, gasUsed, memory, language, context, writer, signal⟩
  cases writer <;> rfl

/-- The task with its machine under another limit. -/
def Task.withLimit (gasLimit : UInt64) (task : Task) : Task :=
  { task with machine := task.machine.withLimit gasLimit }

/-- Two limits of gas, and what is known of a host while a program runs on it. -/
structure Latitude where
  strict : UInt64
  lenient : UInt64
  eased : strict ≤ lenient
  Holds : Host Module → Prop

namespace Latitude

variable (L : Latitude)

/-- Two runs on hosts end alike, unless the first one breaks off over a limit. -/
abbrev OnHosts {α : Type} (p q : Except EngineError α × Host Module) : Prop :=
  UpTo (fun e h => e.toHostError.isLimit ∧ L.Holds h) (fun h k => h = k ∧ L.Holds h) p q

/-- Handlers that serve all syscalls alike, as far as the first one keeps to its limits. -/
structure Served (first second : SyscallHandler Module) : Prop where
  operation : ∀ {h} context op, L.Holds h → L.Holds (h.note (.operation context op))
  lines : ∀ {h} lines, L.Holds h → L.Holds (h.addLines lines)
  served : ∀ {h} id request, L.Holds h →
    UpTo (fun e h => e.isLimit ∧ L.Holds h) (fun h k => h = k ∧ L.Holds h)
      (runFrom (first id request) h) (runFrom (second id request) h)

/-- A task under the strict limit, and the same one under the lenient limit. -/
structure Eases (t u : Task) : Prop where
  strict : t.machine.gasLimit = L.strict
  lenient : u = t.withLimit L.lenient
  holds : L.Holds t.host

/-- Two runs of which the second comes to the same under the lenient limit, unless the first
one breaks off over a limit. -/
def Lax {α : Type} (a b : Run α) : Prop :=
  ∀ t u, L.Eases t u →
    UpTo (fun e t => e.toHostError.isLimit ∧ L.Holds t.host) L.Eases (runFrom a t) (runFrom b u)

namespace Lax

variable {L} {first second : SyscallHandler Module} {α β : Type}

theorem pure (x : α) : L.Lax (Pure.pure x) (Pure.pure x) :=
  fun _ _ eases => .inr ⟨rfl, eases⟩

theorem throw (e : EngineError) : L.Lax (α := α) (MonadExcept.throw e) (MonadExcept.throw e) :=
  fun _ _ eases => .inr ⟨rfl, eases⟩

theorem bind {a b : Run α} {f g : α → Run β} (head : L.Lax a b) (rest : ∀ x, L.Lax (f x) (g x)) :
    L.Lax (a >>= f) (b >>= g) :=
  fun t u eases => (head t u eases).bind fun x t u eases => rest x t u eases

/-- A run that goes on by what it finds in its task. -/
theorem ofGet {f g : Task → Run α} (step : ∀ t u, L.Eases t u → L.Lax (f t) (g u)) :
    L.Lax (get >>= f) (get >>= g) :=
  fun t u eases => step t u eases t u eases

/-- A change of tasks to which the limit makes no difference. -/
theorem ofModify {f : Task → Task}
    (blind : ∀ limit t, f (t.withLimit limit) = (f t).withLimit limit)
    (step : ∀ t, L.Holds t.host → L.Holds (f t).host) : L.Lax (modify f) (modify f) := by
  rintro t _ ⟨strict, rfl, holds⟩
  have kept : (f t).machine.gasLimit = t.machine.gasLimit :=
    congrArg (·.machine.gasLimit) (blind t.machine.gasLimit t)
  exact .inr ⟨rfl, kept.trans strict, blind L.lenient t, step t holds⟩

/-- Actions on the host. -/
theorem onHost {a b : HostM Module EngineError α}
    (step : ∀ h, L.Holds h → L.OnHosts (runFrom a h) (runFrom b h)) :
    L.Lax (Run.onHost a) (Run.onHost b) := by
  rintro t _ ⟨strict, rfl, holds⟩
  rcases step t.host holds with ⟨e, failed, limit⟩ | ⟨same, hosts, holds⟩
  · exact .inl ⟨e, failed, limit⟩
  · refine .inr ⟨same, strict, ?_, holds⟩
    exact congrArg (Task.mk (t.machine.withLimit L.lenient) t.vars) hosts.symm

theorem assign (name value : String) : L.Lax (Run.assign name value) (Run.assign name value) :=
  ofModify (fun _ _ => rfl) fun _ holds => holds

theorem orTrap (result : Except Trap α) : L.Lax (Run.orTrap result) (Run.orTrap result) := by
  cases result with
  | ok x => exact pure x
  | error trap => exact throw (.trap trap)

theorem expand (template : String) : L.Lax (Run.expand template) (Run.expand template) := by
  apply ofGet
  rintro t _ ⟨_, rfl, _⟩
  exact orTrap _

theorem expandNumber (template : String) :
    L.Lax (Run.expandNumber template) (Run.expandNumber template) := by
  apply ofGet
  rintro t _ ⟨_, rfl, _⟩
  exact orTrap _

theorem checkSignal : L.Lax Run.checkSignal Run.checkSignal := by
  apply ofGet
  rintro t _ ⟨_, rfl, _⟩
  dsimp only [Task.withLimit, Machine.withLimit]
  cases t.machine.signal.bind t.host.signals.trap? with
  | some trap => exact throw (.trap trap)
  | none => exact pure ()

/-- Gas that is within the strict limit is within the lenient one. -/
theorem charge (gas : UInt64) : L.Lax (Run.charge gas) (Run.charge gas) := by
  have charged : L.Lax
      (modify fun task : Task =>
        { task with machine.gasUsed := addSaturating task.machine.gasUsed gas })
      (modify fun task : Task =>
        { task with machine.gasUsed := addSaturating task.machine.gasUsed gas }) :=
    ofModify (fun _ _ => rfl) fun _ holds => holds
  apply bind charged
  rintro _ t _ ⟨strict, rfl, holds⟩
  rw [runFrom_bind, runFrom_bind, runFrom_get, runFrom_get]
  dsimp only [Task.withLimit, Machine.withLimit]
  rw [strict]
  by_cases passed : L.strict < t.machine.gasUsed
  · left
    rw [if_pos passed]
    exact ⟨.trap .gasExhausted, rfl, rfl, holds⟩
  · have within : ¬ L.lenient < t.machine.gasUsed :=
      UInt64.not_lt.2 (UInt64.le_trans (UInt64.not_lt.1 passed) L.eased)
    right
    rw [if_neg passed, if_neg within]
    exact ⟨rfl, strict, rfl, holds⟩

section Served

variable (served : L.Served first second)

include served

theorem start (op : Op) : L.Lax (Run.start op) (Run.start op) := by
  apply bind checkSignal
  intro _
  apply bind (charge Run.operationPrice)
  intro _
  apply ofGet
  rintro t _ ⟨_, rfl, _⟩
  exact onHost fun h holds => .inr ⟨rfl, rfl, served.operation t.machine.context op holds⟩

theorem callBound (bound : SyscallKind) (id : ContextId) (request : SyscallRequest)
    (h : Host Module) (holds : L.Holds h) :
    L.OnHosts (runFrom (Syscall.callBound first bound id request) h)
      (runFrom (Syscall.callBound second bound id request) h) := by
  unfold Syscall.callBound
  by_cases other : request.kind ≠ bound
  · rw [if_pos other, if_pos other]
    exact .inr ⟨rfl, rfl, holds⟩
  · rw [if_neg other, if_neg other]
    exact (served.served id request holds).mapError

theorem syscall (request : SyscallRequest) :
    L.Lax (Run.syscall first request) (Run.syscall second request) := by
  apply ofGet
  rintro t _ ⟨_, rfl, _⟩
  dsimp only [Task.withLimit, Machine.withLimit]
  cases t.machine.context with
  | none => exact throw _
  | some id =>
      dsimp only
      cases t.machine.module.binding? request.kind with
      | none => exact throw _
      | some bound => exact onHost (callBound served bound id request)

omit served in
/-- How a read goes on that did not break off over a limit. -/
theorem afterRead (answer : Except EngineError SyscallResponse) (fallback : Option String) :
    L.Lax (Run.afterRead answer fallback) (Run.afterRead answer fallback) := by
  unfold Run.afterRead
  split
  · exact pure _
  · exact pure _
  · exact expand _
  · exact throw _

/-- A fallback takes the place of a missing object, and never of a failure over a limit. -/
theorem readObject (key : Bytes) (fallback : Option String) :
    L.Lax (Run.readObject first key fallback) (Run.readObject second key fallback) := by
  intro t u eases
  rw [Run.runFrom_readObject, Run.runFrom_readObject]
  rcases syscall served (.getObject key) t u eases with ⟨e, failed, limit, holds⟩ | ⟨same, eases⟩
  · left
    dsimp only
    rw [failed]
    cases e with
    | host error =>
        cases error with
        | objectNotFound => cases limit
        | _ => exact ⟨_, rfl, limit, holds⟩
    | _ => exact ⟨_, rfl, limit, holds⟩
  · dsimp only
    rw [← same]
    exact afterRead _ fallback _ _ eases

theorem writeLine (line : String) : L.Lax (Run.writeLine line) (Run.writeLine line) := by
  apply ofModify
  · rintro limit ⟨⟨module, gasLimit, gasUsed, memory, language, context, writer, signal⟩, vars, host⟩
    cases writer <;> rfl
  · intro t holds
    dsimp only
    cases t.machine.writer with
    | none => exact holds
    | some writer => exact served.lines _ holds

/-- No step of a program is changed by a higher limit. -/
theorem congruence : Run.Congruence (fun _ => True) first second L.Lax where
  pure := pure
  bind := bind
  trap cause _ := throw (.trap cause)
  expand template _ := expand template
  expandNumber template _ := expandNumber template
  assign := assign
  checkSignal _ _ := checkSignal
  burn gas _ := charge gas
  start := start served
  select := expand
  grow _ := ofModify (fun _ _ => rfl) fun _ holds => holds
  writeLine := writeLine served
  syscall request _ := syscall served request
  readObject key fallback _ _ := readObject served key fallback

end Served

end Lax

end Latitude

/-- A machine comes to the same under a higher limit, unless it breaks off over one. -/
theorem Machine.exec_withLimit {L : Latitude} {first second : SyscallHandler Module}
    (served : L.Served first second) {machine : Machine} (strict : machine.gasLimit = L.strict)
    (entry : String) (params : List Int) {h : Host Module} (holds : L.Holds h) :
    let p := machine.exec first entry params h
    (∃ e, p.1.1 = .error e ∧ e.toHostError.isLimit ∧ L.Holds p.2) ∨
      (machine.withLimit L.lenient).exec second entry params h =
        ((p.1.1, p.1.2.withLimit L.lenient), p.2) ∧ L.Holds p.2 := by
  unfold Machine.exec
  by_cases misfit : params.length ≠ machine.expectedParams
  · have misfit' : params.length ≠ (machine.withLimit L.lenient).expectedParams := misfit
    rw [if_pos misfit, if_pos misfit']
    exact .inr ⟨rfl, holds⟩
  · have fit : ¬ params.length ≠ (machine.withLimit L.lenient).expectedParams := misfit
    rw [if_neg misfit, if_neg fit]
    rw [show (machine.withLimit L.lenient).module = machine.module from rfl]
    cases machine.module.program.exports.get? entry with
    | none => exact .inr ⟨rfl, holds⟩
    | some ops =>
        dsimp only
        have ended := (Latitude.Lax.congruence served).operations ops (fun _ _ _ _ => trivial)
          { machine, host := h } { machine := machine.withLimit L.lenient, host := h } ⟨strict, rfl, holds⟩
        revert ended
        unfold runFrom
        rcases (Run.operations first ops).run { machine, host := h } with ⟨result, t⟩
        rcases (Run.operations second ops).run
          { machine := machine.withLimit L.lenient, host := h } with ⟨result', u⟩
        rintro (⟨e, failed, limit⟩ | ⟨same, _, lenient, holds⟩)
        · obtain rfl : result = .error e := failed
          exact .inl ⟨e, rfl, limit⟩
        · obtain rfl : result = result' := same
          obtain rfl : u = t.withLimit L.lenient := lenient
          exact .inr ⟨rfl, holds⟩

end Script

end ContractHost
