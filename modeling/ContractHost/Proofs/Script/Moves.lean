/-
# What the steps of a program do to its task

Every step of a program is a short list of changes: a variable is set, gas is charged, an
operation is entered into the journal, memory grows, a line is written, or a handler changes
the host. Whatever else a step does is decided by what it finds, and changes nothing. So a
relation that goes along with these few changes, and with doing them in turn, holds between
the beginning and the end of every run.
-/

import ContractHost.Proofs.Script.Congruence

namespace ContractHost.Script

namespace Task

/-- The task with a variable set. -/
def assigned (name value : String) (task : Task) : Task :=
  { task with vars := task.vars.insert name value }

/-- The task with more gas used. -/
def charged (gas : UInt64) (task : Task) : Task :=
  { task with machine.gasUsed := addSaturating task.machine.gasUsed gas }

/-- The task with an operation charged and entered into the journal. -/
def started (op : Op) (task : Task) : Task :=
  { task.charged Run.operationPrice with
    host := task.host.note (.operation task.machine.context op) }

/-- The task with a line of debug output written. -/
def written (line : String) (task : Task) : Task :=
  match task.machine.writer with
  | none => task
  | some writer =>
    let (lines, writer) := writer.write (Utf8.encode line ++ [DebugWriter.newline])
    { task with machine.writer := some writer, host := task.host.addLines lines }

/-- The task after its host was changed. -/
def onHost (change : Host Module → Host Module) (task : Task) : Task :=
  { task with host := change task.host }

/-- Why the task is to end, if it was asked to. -/
def asked? (task : Task) : Option Trap := task.machine.signal.bind task.host.signals.trap?

/-- More gas was used than the limit allows. -/
def Over (task : Task) : Prop := task.machine.gasLimit < task.machine.gasUsed

instance (task : Task) : Decidable task.Over :=
  inferInstanceAs (Decidable (task.machine.gasLimit < task.machine.gasUsed))

end Task

namespace Run

variable {α : Type} (t : Task)

/-! ## Single steps -/

theorem runFrom_orTrap (result : Except Trap α) :
    runFrom (orTrap result) t = (result.mapError .trap, t) := by
  cases result <;> rfl

theorem runFrom_expand (template : String) :
    runFrom (expand template) t = ((Template.expand t.vars template).mapError .trap, t) :=
  runFrom_orTrap t _

theorem runFrom_expandNumber (template : String) :
    runFrom (expandNumber template) t =
      ((Template.expandNumber t.vars template).mapError .trap, t) :=
  runFrom_orTrap t _

theorem runFrom_checkSignal :
    runFrom checkSignal t = ((match t.asked? with
      | some trap => .error (.trap trap)
      | none => .ok ()), t) := by
  show runFrom (match t.asked? with
    | some trap => throw (EngineError.trap trap)
    | none => pure () : Run Unit) t = _
  cases t.asked? <;> rfl

theorem runFrom_charge (gas : UInt64) :
    runFrom (charge gas) t =
      (if (t.charged gas).Over then .error (.trap .gasExhausted) else .ok (), t.charged gas) := by
  show runFrom (if (t.charged gas).Over then throw (EngineError.trap .gasExhausted)
    else pure () : Run Unit) (t.charged gas) = _
  split <;> rfl

/-- An operation is started after a look at the signal and another one at the gas. -/
theorem runFrom_start (op : Op) :
    runFrom (start op) t =
      match t.asked? with
      | some trap => (.error (.trap trap), t)
      | none =>
        (if (t.charged operationPrice).Over then
          (.error (.trap .gasExhausted), t.charged operationPrice)
        else (.ok (), t.started op)) := by
  unfold start
  rw [runFrom_bind, runFrom_checkSignal]
  cases t.asked? with
  | some trap => rfl
  | none =>
      dsimp only
      rw [runFrom_bind, runFrom_charge]
      by_cases beyond : (t.charged operationPrice).Over
      · simp only [if_pos beyond]
      · simp only [if_neg beyond]
        rfl

/-- A syscall does what its handler does, if it comes to the handler at all. -/
theorem runFrom_syscall (handler : SyscallHandler Module) (request : SyscallRequest) :
    runFrom (syscall handler request) t =
      match t.machine.context with
      | none => (.error (.other "context id not bound"), t)
      | some id =>
        match t.machine.module.binding? request.kind with
        | none => (.error (.trap (.symbolNotFound Resolver.syscallModule request.kind.name)), t)
        | some bound =>
          (if request.kind ≠ bound then
            (.error (.trap (.signatureMismatch Resolver.syscallModule bound.name)), t)
          else ((runFrom (handler id request) t.host).1.mapError .host,
            t.onHost fun h => (runFrom (handler id request) h).2)) := by
  unfold syscall
  rw [runFrom_bind, runFrom_get]
  dsimp only
  cases t.machine.context with
  | none => rfl
  | some id =>
      dsimp only
      cases t.machine.module.binding? request.kind with
      | none => rfl
      | some bound =>
          dsimp only [Syscall.callBound]
          split <;> rfl

theorem syscall_cases (handler : SyscallHandler Module) (request : SyscallRequest) :
    (runFrom (syscall handler request) t).2 = t ∨
      ∃ id, t.machine.context = some id ∧
        (runFrom (syscall handler request) t).2 =
          t.onHost fun h => (runFrom (handler id request) h).2 := by
  rw [runFrom_syscall]
  cases t.machine.context with
  | none => exact .inl rfl
  | some id =>
      dsimp only
      cases t.machine.module.binding? request.kind with
      | none => exact .inl rfl
      | some bound =>
          dsimp only
          split
          · exact .inl rfl
          · exact .inr ⟨id, rfl, rfl⟩

theorem afterRead_task (answer : Except EngineError SyscallResponse) (fallback : Option String) :
    (runFrom (afterRead answer fallback) t).2 = t := by
  unfold afterRead
  split
  · rfl
  · rfl
  · rw [runFrom_expand]
  · rfl

/-! ## Whole runs -/

/-- From wherever a run begins, its end is related to its beginning. -/
def Leads (T : Task → Task → Prop) (action : Run α) : Prop := ∀ t, T t (runFrom action t).2

/-- A relation that goes along with all that instructions of a kind change of a task. -/
structure Moves (Does : Instruction → Prop) (handler : SyscallHandler Module)
    (T : Task → Task → Prop) : Prop where
  refl : ∀ t, T t t
  trans : ∀ {t u v}, T t u → T u v → T t v
  assigned : ∀ t name value, T t (t.assigned name value)
  burnt : ∀ t gas, Does (.burn gas) → T t (t.charged gas)
  grown : ∀ t octets, T t (t.grown octets)
  written : ∀ t line, T t (t.written line)
  served : ∀ t id (request : SyscallRequest), t.machine.context = some id →
    T t (t.onHost fun h => (runFrom (handler id request) h).2)

/-- A relation that goes along with starting an operation as well, which happens only while the
task was not asked to end. -/
structure Marches (Does : Instruction → Prop) (handler : SyscallHandler Module)
    (T : Task → Task → Prop) : Prop extends Moves Does handler T where
  priced : ∀ t, T t (t.charged operationPrice)
  started : ∀ t op, t.asked? = none → T t (t.started op)

variable {Does : Instruction → Prop} {handler : SyscallHandler Module} {T : Task → Task → Prop}

namespace Moves

variable (moves : Moves Does handler T)

include moves

theorem still {action : Run α} (same : ∀ t, (runFrom action t).2 = t) : Leads T action := by
  intro t
  rw [same]
  exact moves.refl t

theorem bind {β : Type} {action : Run α} {next : α → Run β} (head : Leads T action)
    (rest : ∀ x, Leads T (next x)) : Leads T (action >>= next) := by
  intro t
  have first := head t
  rw [runFrom_bind]
  revert first
  rcases runFrom action t with ⟨e | x, u⟩
  · exact id
  · exact fun first => moves.trans first (rest x u)

theorem syscall (request : SyscallRequest) : Leads T (Run.syscall handler request) := by
  intro t
  rcases syscall_cases t handler request with same | ⟨id, context, served⟩
  · rw [same]
    exact moves.refl t
  · rw [served]
    exact moves.served t id request context

theorem expand (template : String) : Leads T (Run.expand template) :=
  moves.still fun t => by rw [runFrom_expand]

/-- All that instructions of the kind do goes along. -/
theorem steps : Steps Does handler handler fun action _ => Leads T action where
  pure _ := moves.still fun _ => rfl
  bind := moves.bind
  trap _ _ := moves.still fun _ => rfl
  expand template _ := moves.expand template
  expandNumber template _ := moves.still fun t => by rw [runFrom_expandNumber]
  assign name value t := moves.assigned t name value
  checkSignal _ _ := moves.still fun t => by rw [runFrom_checkSignal]
  burn gas does t := by
    rw [runFrom_charge]
    exact moves.burnt t gas does
  grow octets t := moves.grown t octets
  writeLine line t := moves.written t line
  syscall request _ := moves.syscall request
  readObject key fallback _ _ t := by
    rw [runFrom_readObject]
    dsimp only
    rw [afterRead_task]
    exact moves.syscall (.getObject key) t

end Moves

/-- All that programs with such instructions do goes along. -/
theorem Marches.congruence (marches : Marches Does handler T) :
    Congruence Does handler handler fun action _ => Leads T action where
  toSteps := marches.toMoves.steps
  start op t := by
    rw [runFrom_start]
    cases unasked : t.asked? with
    | some trap => exact marches.refl t
    | none =>
        dsimp only
        split
        · exact marches.priced t
        · exact marches.started t op unasked
  select := marches.toMoves.expand

end Run

/-! ## What a run takes no notice of -/

/-- The task with another limit of gas and another signal, or none. -/
def Task.altered (limit : UInt64 → UInt64) (signal : Option SignalId → Option SignalId)
    (task : Task) : Task :=
  { task with
    machine := { task.machine with
      gasLimit := limit task.machine.gasLimit
      signal := signal task.machine.signal } }

namespace Run

/-- To the run the limit of gas and the signal make no difference. -/
def Blind {α : Type} (limit : UInt64 → UInt64) (signal : Option SignalId → Option SignalId)
    (a : Run α) : Prop :=
  ∀ t : Task, runFrom a (t.altered limit signal) =
    ((runFrom a t).1, (runFrom a t).2.altered limit signal)

namespace Blind

variable {α β : Type} {Does : Instruction → Prop} {handler : SyscallHandler Module}
  {limit : UInt64 → UInt64} {signal : Option SignalId → Option SignalId}

theorem bind {a : Run α} {f : α → Run β} (head : Blind limit signal a)
    (rest : ∀ x, Blind limit signal (f x)) : Blind limit signal (a >>= f) := by
  intro t
  rw [runFrom_bind, runFrom_bind, head t]
  rcases runFrom a t with ⟨e | x, u⟩
  · rfl
  · exact rest x u

theorem expand (template : String) : Blind limit signal (expand template) := by
  intro t
  rw [runFrom_expand, runFrom_expand]
  rfl

theorem syscall (request : SyscallRequest) : Blind limit signal (syscall handler request) := by
  intro t
  have context : (t.altered limit signal).machine.context = t.machine.context := rfl
  have module : (t.altered limit signal).machine.module = t.machine.module := rfl
  rw [runFrom_syscall, runFrom_syscall, context, module]
  cases t.machine.context with
  | none => rfl
  | some id =>
      dsimp only
      cases t.machine.module.binding? request.kind with
      | none => rfl
      | some bound =>
          dsimp only
          split <;> rfl

theorem afterRead (answer : Except EngineError SyscallResponse) (fallback : Option String) :
    Blind limit signal (afterRead answer fallback) := by
  unfold Run.afterRead
  split
  · exact fun _ => rfl
  · exact fun _ => rfl
  · exact expand _
  · exact fun _ => rfl

/-- Only charges look at the limit, and only the check of the signal at the signal. -/
theorem steps (burn : ∀ gas, Does (.burn gas) → Blind limit signal (charge gas))
    (look : ∀ millis, Does (.spin millis) → Blind limit signal checkSignal) :
    Steps Does handler handler fun a _ => Blind limit signal a where
  pure _ _ := rfl
  bind := bind
  trap _ _ _ := rfl
  expand template _ := expand template
  expandNumber template _ t := by
    rw [runFrom_expandNumber, runFrom_expandNumber]
    rfl
  assign _ _ _ := rfl
  checkSignal := look
  burn := burn
  grow _ _ := rfl
  writeLine line := by
    rintro ⟨⟨module, gasLimit, gasUsed, memory, language, context, writer, signal⟩, vars, host⟩
    cases writer <;> rfl
  syscall request _ := syscall request
  readObject key fallback _ _ t := by
    rw [runFrom_readObject, runFrom_readObject, syscall (.getObject key) t]
    exact afterRead _ fallback _

end Blind

end Run

/-- What goes along with everything that a program does leads from the beginning of an execution
to its end. -/
theorem Machine.exec_leads {handler : SyscallHandler Module} {T : Task → Task → Prop}
    (marches : Run.Marches (fun _ => True) handler T) (machine : Machine) (entry : String)
    (params : List Int) (h : Host Module) :
    ∃ vars, T { machine, host := h }
      { machine := (machine.exec handler entry params h).1.2, vars,
        host := (machine.exec handler entry params h).2 } := by
  unfold Machine.exec
  split
  · exact ⟨_, marches.refl _⟩
  · cases machine.module.program.exports.get? entry with
    | none => exact ⟨_, marches.refl _⟩
    | some ops =>
        exact ⟨_, marches.congruence.operations ops (fun _ _ _ _ => trivial)
          { machine, host := h }⟩

end ContractHost.Script
