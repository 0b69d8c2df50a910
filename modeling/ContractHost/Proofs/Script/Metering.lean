/-
# The meter of a program

What a program is charged can be read off the operations that it started: a price for each of
them, and for an operation that burns gas the gas that it burns. Under the largest of all limits
nothing ever stops a program but itself, and the sum of these charges, cut off at the largest
amount, is what it has used at the end.

A lower limit does no more than to cut a run short. Up to where the limit is passed the run is
the same, and there it ends. The gas that was used is never given back, so a machine that has
passed its limit does not start another operation.
-/

import ContractHost.Proofs.Call.Stages
import ContractHost.Proofs.Resources
import ContractHost.Proofs.Script.Limits
import ContractHost.Proofs.Script.Moves

namespace ContractHost

open Script (Instruction Machine Module Op Task)

/-- The gas that an operation burns. -/
def Script.Op.burnt : Op → Nat
  | .single (.burn gas) => gas.toNat
  | _ => 0

namespace Event

/-- True of the start of an operation. -/
def isOperation : Event → Bool
  | .operation .. => true
  | _ => false

/-- The gas that an operation burns that has started. -/
def burnt : Event → Nat
  | .operation _ op => op.burnt
  | _ => 0

theorem burnt_of_not_isOperation {event : Event} (other : event.isOperation = false) :
    event.burnt = 0 := by
  cases event <;> first | rfl | cases other

end Event

/-- What the operations that were started are charged with: a price for each, and what they
burn. -/
def chargesIn (events : List Event) : Nat :=
  Script.Run.operationPrice.toNat * events.countP Event.isOperation + (events.map Event.burnt).sum

theorem chargesIn_append (later events : List Event) :
    chargesIn (later ++ events) = chargesIn later + chargesIn events := by
  simp only [chargesIn, List.countP_append, List.map_append, List.sum_append, Nat.mul_add]
  omega

theorem chargesIn_operation (context : Option ContextId) (op : Op) :
    chargesIn [.operation context op] = Script.Run.operationPrice.toNat + op.burnt := by
  simp [chargesIn, Event.isOperation, Event.burnt]

theorem chargesIn_eq_zero {events : List Event}
    (none : ∀ event ∈ events, event.isOperation = false) : chargesIn events = 0 := by
  induction events with
  | nil => rfl
  | cons event rest ih =>
      obtain ⟨other, none⟩ := List.forall_mem_cons.1 none
      have here : chargesIn [event] = 0 := by
        simp [chargesIn, other, Event.burnt_of_not_isOperation other]
      rw [← List.singleton_append, chargesIn_append, here, ih none]

/-- The services that were asked for, earliest first. -/
def requestsIn (events : List Event) : List SyscallRequest :=
  events.reverse.filterMap fun
    | .syscall _ request _ => some request
    | _ => none

theorem requestsIn_append (later events : List Event) :
    requestsIn (later ++ events) = requestsIn events ++ requestsIn later := by
  simp [requestsIn]

/-! ## Services without operations -/

namespace Host

variable {M : Type}

/-- From one host to the next no operation was started. -/
abbrev StartsNone (h g : Host M) : Prop := Passes (fun event => event.isOperation = false) h g

/-- Without an invoker no service starts an operation. -/
theorem startsNone_serve (id : ContextId) (request : SyscallRequest) (h : Host Module) :
    StartsNone h (runFrom (Syscall.serve none id request) h).2 := by
  apply Call.passes_serve_uninvoked
  · intro event backstage
    cases event <;> first | rfl | cases backstage
  · exact fun _ => rfl
  · exact fun _ => rfl

end Host

namespace Script

/-! ## What a run is charged -/

/-- The largest limit of all. -/
def boundless : UInt64 := UInt64.ofNat maxAmount

theorem le_boundless (amount : UInt64) : amount ≤ boundless := by
  rw [UInt64.le_iff_toNat_le]
  exact Nat.le_of_lt_succ amount.toNat_lt

theorem Task.not_over_of_boundless {task : Task} (limit : task.machine.gasLimit = boundless) :
    ¬ task.Over := by
  unfold Task.Over
  rw [limit]
  exact UInt64.not_lt.2 (le_boundless _)

namespace Task

/-- From one task to the next no gas was charged and no operation started. -/
structure Free (t u : Task) : Prop where
  limit : u.machine.gasLimit = t.machine.gasLimit
  gas : u.machine.gasUsed = t.machine.gasUsed
  calm : t.host.StartsNone u.host

/-- From one task to the next an amount was charged besides what the operations cost that were
started. -/
structure Charges (owed : Nat) (t u : Task) : Prop where
  limit : u.machine.gasLimit = t.machine.gasLimit
  gas : ∃ events, u.host.journal = events ++ t.host.journal ∧
    u.machine.gasUsed = cutOff (t.machine.gasUsed.toNat + owed + chargesIn events)

theorem Free.trans {t u v : Task} (first : Free t u) (second : Free u v) : Free t v :=
  ⟨second.limit.trans first.limit, second.gas.trans first.gas, first.calm.trans second.calm⟩

namespace Charges

variable {owed owed' : Nat} {t u v : Task}

theorem of_free (free : t.Free u) : Charges 0 t u where
  limit := free.limit
  gas := by
    obtain ⟨events, journal, none, -⟩ := free.calm.told
    exact ⟨events, journal, by rw [free.gas, chargesIn_eq_zero none]; exact (cutOff_toNat _).symm⟩

theorem refl (t : Task) : Charges 0 t t where
  limit := rfl
  gas := ⟨[], rfl, (cutOff_toNat _).symm⟩

theorem trans (first : Charges owed t u) (second : Charges owed' u v) :
    Charges (owed + owed') t v where
  limit := second.limit.trans first.limit
  gas := by
    obtain ⟨events, journal, gas⟩ := first.gas
    obtain ⟨later, journal', gas'⟩ := second.gas
    refine ⟨later ++ events, by rw [journal', journal, List.append_assoc], ?_⟩
    rw [gas', gas, Nat.add_assoc (cutOff _).toNat, cutOff_add, chargesIn_append]
    congr 1
    omega

theorem charged (t : Task) (gas : UInt64) : Charges gas.toNat t (t.charged gas) where
  limit := rfl
  gas := ⟨[], rfl, rfl⟩

/-- An operation that has started owes what it burns. -/
theorem started (t : Task) (op : Op) {v : Task} (inside : Charges op.burnt (t.started op) v) :
    Charges 0 t v where
  limit := inside.limit
  gas := by
    obtain ⟨events, journal, gas⟩ := inside.gas
    refine ⟨events ++ [.operation t.machine.context op], by rw [journal, List.append_assoc]; rfl, ?_⟩
    have begun : (t.started op).machine.gasUsed =
        cutOff (t.machine.gasUsed.toNat + Run.operationPrice.toNat) := rfl
    rw [gas, begun, Nat.add_assoc (cutOff _).toNat, cutOff_add, chargesIn_append,
      chargesIn_operation]
    congr 1
    omega

end Charges

end Task

namespace Run

/-- True of the instructions that burn no gas. -/
def Unburning (instruction : Instruction) : Prop := ∀ gas, instruction ≠ .burn gas

theorem free_moves : Moves Unburning (Syscall.serve none) Task.Free where
  refl t := ⟨rfl, rfl, .refl t.host⟩
  trans := .trans
  assigned t _ _ := ⟨rfl, rfl, .refl t.host⟩
  burnt t gas does := absurd rfl (does gas)
  grown t _ := ⟨rfl, rfl, .refl t.host⟩
  written t line := by
    unfold Task.written
    cases t.machine.writer with
    | none => exact ⟨rfl, rfl, .refl t.host⟩
    | some writer => exact ⟨rfl, rfl, .addLines t.host _⟩
  served t id request _ := ⟨rfl, rfl, Host.startsNone_serve id request t.host⟩

/-- Under the largest limit, an amount is charged besides what operations cost. -/
def Charging (owed : Nat) {α : Type} (a : Run α) : Prop :=
  ∀ t : Task, t.machine.gasLimit = boundless → Task.Charges owed t (runFrom a t).2

theorem Charging.bind {α β : Type} {a : Run α} {f : α → Run β} {owed : Nat}
    (head : Charging owed a) (rest : ∀ x, Charging 0 (f x)) : Charging owed (a >>= f) := by
  intro t limit
  have first := head t limit
  rw [runFrom_bind]
  revert first
  rcases runFrom a t with ⟨e | x, u⟩
  · exact id
  · intro first
    exact first.trans (rest x u (first.limit.trans limit))

theorem charging_of_leads {α : Type} {a : Run α} (free : Leads Task.Free a) : Charging 0 a :=
  fun t _ => .of_free (free t)

/-- What an operation costs is charged when it starts, and what it burns when it is done. -/
theorem charging_descent : Descent (fun _ => True) (Syscall.serve none) (Syscall.serve none)
    (fun a _ => Charging 0 a) (fun op a _ => Charging op.burnt a) where
  nil t _ := .refl t
  cons := by
    intro op a b c d inside rest t limit
    have unstopped : ¬ (t.charged operationPrice).Over := Task.not_over_of_boundless limit
    rw [runFrom_bind, runFrom_start]
    cases t.asked? with
    | some trap => exact .refl t
    | none =>
        dsimp only
        rw [if_neg unstopped]
        have continued : Charging op.burnt (a >>= Flow.andThen c) :=
          inside.bind fun flow => match flow with
            | .stop => fun t _ => .refl t
            | .next => rest
        exact .started t op (continued (t.started op) limit)
  single := by
    intro instruction _
    by_cases burns : ∃ gas, instruction = .burn gas
    · obtain ⟨gas, rfl⟩ := burns
      have charged : Charging gas.toNat (charge gas) := by
        intro t _
        rw [runFrom_charge]
        exact .charged t gas
      exact charged.bind fun _ t _ => .refl t
    · have unburning : Unburning instruction := fun gas same => burns ⟨gas, same⟩
      have free := free_moves.steps.perform instruction unburning
      have none : (Op.single instruction).burnt = 0 := by
        cases instruction <;> first | rfl | exact absurd rfl (unburning _)
      rw [none]
      exact charging_of_leads free
  branch selector cases otherwise _ _ inside := by
    have selects : Charging 0 (expand selector) := by
      intro t _
      rw [runFrom_expand]
      exact .refl t
    exact selects.bind inside

end Run

/-! ## What a limit cuts off -/

namespace Task

/-- From one task to the next gas was charged only, under the same limit. -/
structure Dearer (t u : Task) : Prop where
  limit : u.machine.gasLimit = t.machine.gasLimit
  gas : t.machine.gasUsed ≤ u.machine.gasUsed

theorem Dearer.exceeds {t u : Task} (dearer : t.Dearer u) (beyond : t.Over) : u.Over := by
  unfold Over
  rw [dearer.limit]
  exact UInt64.lt_of_lt_of_le beyond dearer.gas

/-- The next task comes after the first: gas was charged only, and entries were made into the
journal. -/
structure Before (t u : Task) : Prop extends Dearer t u where
  journal : t.host.journal <:+ u.host.journal

variable {t u v : Task}

theorem Dearer.refl (t : Task) : Dearer t t := ⟨rfl, UInt64.le_refl _⟩

theorem Dearer.trans (first : Dearer t u) (second : Dearer u v) : Dearer t v :=
  ⟨second.limit.trans first.limit, UInt64.le_trans first.gas second.gas⟩

theorem Dearer.charged (t : Task) (gas : UInt64) : Dearer t (t.charged gas) :=
  ⟨rfl, le_addSaturating _ _⟩

theorem Before.refl (t : Task) : Before t t := ⟨.refl t, List.suffix_rfl⟩

theorem Before.trans (first : Before t u) (second : Before u v) : Before t v :=
  ⟨first.toDearer.trans second.toDearer, first.journal.trans second.journal⟩

theorem Before.of_free (free : Free t u) : Before t u where
  limit := free.limit
  gas := by
    rw [free.gas]
    exact UInt64.le_refl _
  journal := by
    obtain ⟨events, journal, -⟩ := free.calm.told
    exact ⟨events, journal.symm⟩

theorem Before.charged (t : Task) (gas : UInt64) : Before t (t.charged gas) :=
  ⟨.charged t gas, List.suffix_rfl⟩

theorem Before.started (t : Task) (op : Op) : Before t (t.started op) :=
  ⟨⟨rfl, le_addSaturating _ _⟩, List.suffix_cons _ _⟩

end Task

namespace Run

variable {handler : SyscallHandler Module} {limit : UInt64} {α β : Type}

/-- Whatever a program does, gas is charged only. -/
theorem dearer_marches (handler : SyscallHandler Module) :
    Marches (fun _ => True) handler Task.Dearer where
  refl := .refl
  trans := .trans
  assigned t _ _ := ⟨rfl, UInt64.le_refl _⟩
  burnt t gas _ := .charged t gas
  grown t _ := ⟨rfl, UInt64.le_refl _⟩
  written t line := by
    unfold Task.written
    cases t.machine.writer with
    | none => exact .refl t
    | some writer => exact ⟨rfl, UInt64.le_refl _⟩
  served t _ _ _ := ⟨rfl, UInt64.le_refl _⟩
  priced t := .charged t operationPrice
  started t _ _ := ⟨rfl, le_addSaturating _ _⟩

/-- Where no gas is charged the limit makes no difference. -/
theorem blind_steps : Steps Unburning handler handler fun a _ => Blind (fun _ => limit) id a :=
  Blind.steps (fun gas does => absurd rfl (does gas)) fun _ _ t => by
    rw [runFrom_checkSignal, runFrom_checkSignal]
    rfl

/-- How a run under a limit ends beside that under the largest one: within the limit and in the
same way, or where the limit is passed and no later than the other. -/
def Cut (limit : UInt64) (p q : Except EngineError α × Task) : Prop :=
  p.2.machine.gasLimit = limit ∧
    (¬ p.2.Over ∧ q = (p.1, p.2.withLimit boundless) ∨
      p.2.Over ∧ p.1 = .error (.trap .gasExhausted) ∧ (p.2.withLimit boundless).Before q.2)

/-- A limit does no more to a run than to cut it short. -/
structure Truncates (limit : UInt64) (a : Run α) : Prop where
  grows : Leads Task.Before a
  cut : ∀ t : Task, t.machine.gasLimit = limit → ¬ t.Over →
    Cut limit (runFrom a t) (runFrom a (t.withLimit boundless))

namespace Truncates

/-- A run that charges no gas. -/
theorem of_free {a : Run α} (blind : Blind (fun _ => boundless) id a) (free : Leads Task.Free a) :
    Truncates limit a where
  grows t := .of_free (free t)
  cut t own within := by
    refine ⟨(free t).limit.trans own, .inl ⟨?_, blind t⟩⟩
    unfold Task.Over
    rw [(free t).limit, (free t).gas]
    exact within

theorem bind {a : Run α} {f : α → Run β} (head : Truncates limit a)
    (rest : ∀ x, Truncates limit (f x)) : Truncates limit (a >>= f) where
  grows t := by
    have first := head.grows t
    rw [runFrom_bind]
    revert first
    rcases runFrom a t with ⟨e | x, u⟩
    · exact id
    · exact fun first => first.trans ((rest x).grows u)
  cut t own within := by
    have first := head.cut t own within
    rw [runFrom_bind, runFrom_bind]
    revert first
    rcases runFrom a t with ⟨e | x, u⟩
    · rintro ⟨own, ⟨within, alike⟩ | ⟨beyond, failed, before⟩⟩
      · rw [alike]
        exact ⟨own, .inl ⟨within, rfl⟩⟩
      · cases failed
        refine ⟨own, .inr ⟨beyond, rfl, ?_⟩⟩
        -- The run under the largest limit may go on.
        revert before
        rcases runFrom a (t.withLimit boundless) with ⟨e | x, v⟩
        · exact id
        · exact fun before => before.trans ((rest x).grows v)
    · rintro ⟨own, ⟨within, alike⟩ | ⟨_, failed, _⟩⟩
      · rw [alike]
        exact (rest x).cut u own within
      · cases failed

theorem charge (gas : UInt64) : Truncates limit (charge gas) where
  grows t := by
    rw [runFrom_charge]
    exact .charged t gas
  cut t own within := by
    have unstopped : ¬ (Task.charged gas (t.withLimit boundless)).Over :=
      Task.not_over_of_boundless rfl
    rw [runFrom_charge, runFrom_charge, if_neg unstopped]
    refine ⟨own, ?_⟩
    by_cases beyond : (t.charged gas).Over
    · rw [if_pos beyond]
      exact .inr ⟨beyond, rfl, .refl _⟩
    · rw [if_neg beyond]
      exact .inl ⟨beyond, rfl⟩

/-- Charged for an operation first, a run is cut before the operation starts. -/
theorem start (op : Op) : Truncates limit (start op) where
  grows t := by
    rw [runFrom_start]
    cases t.asked? with
    | some trap => exact .refl t
    | none =>
        dsimp only
        split
        · exact .charged t operationPrice
        · exact .started t op
  cut t own within := by
    have unstopped : ¬ (Task.charged operationPrice (t.withLimit boundless)).Over :=
      Task.not_over_of_boundless rfl
    have asked : (t.withLimit boundless).asked? = t.asked? := rfl
    rw [runFrom_start, runFrom_start, if_neg unstopped, asked]
    cases t.asked? with
    | some trap => exact ⟨own, .inl ⟨within, rfl⟩⟩
    | none =>
        dsimp only
        by_cases beyond : (t.charged operationPrice).Over
        · rw [if_pos beyond]
          exact ⟨own, .inr ⟨beyond, rfl, ⟨rfl, UInt64.le_refl _⟩, List.suffix_cons _ _⟩⟩
        · rw [if_neg beyond]
          exact ⟨own, .inl ⟨beyond, rfl⟩⟩

theorem descent : Descent (fun _ => True) (Syscall.serve none) (Syscall.serve none)
    (fun a _ => Truncates limit a) (fun _ a _ => Truncates limit a) where
  nil := .of_free (fun _ => rfl) (free_moves.steps.pure _)
  cons op _ _ _ _ inside rest := by
    apply bind (start op)
    intro _
    apply bind inside
    intro flow
    cases flow with
    | stop => exact .of_free (fun _ => rfl) (free_moves.steps.pure _)
    | next => exact rest
  single := by
    intro instruction _
    by_cases burns : ∃ gas, instruction = .burn gas
    · obtain ⟨gas, rfl⟩ := burns
      exact bind (charge gas) fun _ => .of_free (fun _ => rfl) (free_moves.steps.pure _)
    · have unburning : Unburning instruction := fun gas same => burns ⟨gas, same⟩
      exact .of_free (blind_steps.perform instruction unburning)
        (free_moves.steps.perform instruction unburning)
  branch selector _ _ _ _ inside :=
    bind (.of_free (Blind.expand selector) (free_moves.expand selector)) inside

end Truncates

end Run

/-! ## Machines -/

namespace Machine

/-- More gas was used than the limit allows. -/
def Over (machine : Machine) : Prop := machine.gasLimit < machine.gasUsed

/-- What a machine has used at the end of an execution under the largest limit. -/
theorem exec_charges {machine : Machine} (limit : machine.gasLimit = boundless) (entry : String)
    (params : List Int) (h : Host Module) :
    let p := machine.exec (Syscall.serve none) entry params h
    ∃ events, p.2.journal = events ++ h.journal ∧
      p.1.2.gasUsed = cutOff (machine.gasUsed.toNat + chargesIn events) := by
  have idle : ∃ events, h.journal = events ++ h.journal ∧
      machine.gasUsed = cutOff (machine.gasUsed.toNat + chargesIn events) :=
    ⟨[], rfl, (cutOff_toNat _).symm⟩
  unfold exec
  split
  · exact idle
  · cases machine.module.program.exports.get? entry with
    | none => exact idle
    | some ops =>
        exact (Run.charging_descent.operations ops (fun _ _ _ _ => trivial)
          { machine, host := h } limit).gas

/-- An execution under a limit beside that under the largest one. -/
theorem exec_cut {machine : Machine} (within : ¬ machine.Over) (entry : String)
    (params : List Int) (h : Host Module) :
    let p := machine.exec (Syscall.serve none) entry params h
    let q := (machine.withLimit boundless).exec (Syscall.serve none) entry params h
    ¬ p.1.2.Over ∧ q = ((p.1.1, p.1.2.withLimit boundless), p.2) ∨
      p.1.2.Over ∧ p.1.1 = .error (.trap .gasExhausted) ∧ p.1.2.gasUsed ≤ q.1.2.gasUsed ∧
        h.journal <:+ p.2.journal ∧ p.2.journal <:+ q.2.journal := by
  have expected : (machine.withLimit boundless).expectedParams = machine.expectedParams := rfl
  have module : (machine.withLimit boundless).module = machine.module := rfl
  unfold exec
  rw [expected, module]
  split
  · exact .inl ⟨within, rfl⟩
  · cases machine.module.program.exports.get? entry with
    | none => exact .inl ⟨within, rfl⟩
    | some ops =>
        obtain ⟨grows, cut⟩ := Run.Truncates.descent.operations ops fun _ _ _ _ => trivial
        have ended := cut { machine, host := h } rfl within
        have grown := (grows { machine, host := h }).journal
        revert ended grown
        unfold runFrom
        dsimp only [Task.withLimit]
        rcases (Run.operations (Syscall.serve none) ops).run { machine, host := h } with ⟨result, t⟩
        rintro ⟨-, ⟨within, alike⟩ | ⟨beyond, rfl, before⟩⟩ grown
        · rw [alike]
          exact .inl ⟨within, rfl⟩
        · exact .inr ⟨beyond, rfl, before.gas, grown, before.journal⟩

/-- A machine that has passed its limit traps where it is to start an operation, and has done
nothing by then. -/
theorem exec_over {machine : Machine} (beyond : machine.Over) (handler : SyscallHandler Module)
    {entry : String} {params : List Int} (expected : params.length = machine.expectedParams)
    {op : Op} {ops : List Op} (exported : machine.module.program.exports.get? entry = some (op :: ops))
    (h : Host Module) :
    let p := machine.exec handler entry params h
    (∃ trap, p.1.1 = .error (.trap trap)) ∧ p.2 = h := by
  unfold exec
  rw [if_neg (not_not_intro expected), exported]
  dsimp only
  have stopped : ∃ trap t, (Run.operations handler (op :: ops)).run { machine, host := h } =
      (.error (.trap trap), t) ∧ t.host = h := by
    have charged : (Task.charged Run.operationPrice { machine, host := h }).Over :=
      (Task.Dearer.charged { machine, host := h } _).exceeds beyond
    rw [Run.operations_cons]
    change ∃ trap t, runFrom _ _ = _ ∧ _
    rw [runFrom_bind, Run.runFrom_start]
    cases Task.asked? { machine, host := h } with
    | some trap => exact ⟨trap, _, rfl, rfl⟩
    | none =>
        dsimp only
        rw [if_pos charged]
        exact ⟨.gasExhausted, _, rfl, rfl⟩
  obtain ⟨trap, t, ran, kept⟩ := stopped
  rw [ran]
  exact ⟨⟨trap, rfl⟩, kept⟩

/-- No execution gives gas back. -/
theorem exec_keeps_over {machine : Machine} (beyond : machine.Over) (handler : SyscallHandler Module)
    (entry : String) (params : List Int) (h : Host Module) :
    (machine.exec handler entry params h).1.2.Over := by
  obtain ⟨_, dearer⟩ := machine.exec_leads (Run.dearer_marches handler) entry params h
  exact dearer.exceeds beyond

end Machine

/-- One execution that a machine is made to do. -/
structure Execution where
  handler : SyscallHandler Module
  entry : String
  params : List Int
  host : Host Module

/-- The machine after some executions, each on a host of its own. -/
def Machine.after (machine : Machine) : List Execution → Machine
  | [] => machine
  | run :: rest => (machine.exec run.handler run.entry run.params run.host).1.2.after rest

theorem Machine.over_after {machine : Machine} (beyond : machine.Over) (runs : List Execution) :
    (machine.after runs).Over := by
  induction runs generalizing machine with
  | nil => exact beyond
  | cons run rest ih => exact ih (exec_keeps_over beyond run.handler run.entry run.params run.host)

/-- Metering is exact, and does no more than to cut runs short.

A new machine is prepared in any way and runs a function of any module on any host, with a
dispatcher that makes no calls, once under a limit and once under the largest of all. What it has
used under the largest limit is the price of an operation for every operation that was started,
and all that was burnt, cut off at the largest amount.

If that is within the limit, the two runs do not differ at all. If it is not, the run under the
limit ends where the limit is passed: the services that it asked for are the first of those that
the other one asks for. And whatever the machine is made to do after that, a function with
operations traps on it at once, and leaves the host alone. -/
theorem metering_is_exact (module : Module) (limit : UInt64) (language : Option Language)
    (context : Option ContextId) (writer : Option DebugWriter) (signal : Option SignalId)
    (entry : String) (params : List Int) (h : Host Module) :
    let prepared (gasLimit : UInt64) : Machine :=
      { Machine.ofModule module gasLimit with language, context, writer, signal }
    let bounded := (prepared limit).exec (Syscall.serve none) entry params h
    let free := (prepared boundless).exec (Syscall.serve none) entry params h
    let gas := free.1.2.gasUsed
    (∃ events, free.2.journal = events ++ h.journal ∧
      gas.toNat = min maxAmount
        (100 * events.countP Event.isOperation + (events.map Event.burnt).sum)) ∧
    (gas ≤ limit → free = ((bounded.1.1, bounded.1.2.withLimit boundless), bounded.2)) ∧
    (limit < gas →
      bounded.1.1 = .error (.trap .gasExhausted) ∧ limit < bounded.1.2.gasUsed ∧
      (∃ events later, bounded.2.journal = events ++ h.journal ∧
        free.2.journal = later ++ events ++ h.journal ∧
        requestsIn events <+: requestsIn (later ++ events)) ∧
      ∀ (runs : List Execution) (handler : SyscallHandler Module) (entry : String)
        (params : List Int) (op : Op) (ops : List Op) (g : Host Module),
        let machine := bounded.1.2.after runs
        params.length = machine.expectedParams →
        machine.module.program.exports.get? entry = some (op :: ops) →
        let p := machine.exec handler entry params g
        (∃ trap, p.1.1 = .error (.trap trap)) ∧ p.2 = g) := by
  intro prepared bounded free gas
  have fresh : ¬ (prepared limit).Over := UInt64.not_lt.2 (UInt64.zero_le)
  have cut := Machine.exec_cut fresh entry params h
  have own : bounded.1.2.gasLimit = limit := by
    obtain ⟨_, dearer⟩ := (prepared limit).exec_leads
      (Run.dearer_marches (Syscall.serve none)) entry params h
    exact dearer.limit
  have over_iff : bounded.1.2.Over ↔ limit < bounded.1.2.gasUsed := by
    unfold Machine.Over
    rw [own]
  refine ⟨?_, fun within => ?_, fun passed => ?_⟩
  · have limit : (prepared boundless).gasLimit = boundless := rfl
    obtain ⟨events, journal, used⟩ := Machine.exec_charges limit entry params h
    refine ⟨events, journal, ?_⟩
    show free.1.2.gasUsed.toNat = _
    rw [show free.1.2.gasUsed = _ from used, toNat_cutOff]
    simp [prepared, Machine.ofModule, chargesIn, Run.operationPrice]
  · rcases cut with ⟨_, alike⟩ | ⟨beyond, _, dearer, _⟩
    · exact alike
    · exact absurd within (UInt64.not_le.2 (UInt64.lt_of_lt_of_le (over_iff.1 beyond) dearer))
  · rcases cut with ⟨within, alike⟩ | ⟨beyond, trapped, _, grown, further⟩
    · have same : gas = bounded.1.2.gasUsed := congrArg (·.1.2.gasUsed) alike
      rw [same, ← over_iff] at passed
      exact absurd passed within
    · refine ⟨trapped, over_iff.1 beyond, ?_, ?_⟩
      · obtain ⟨events, journal⟩ := grown
        obtain ⟨later, journal'⟩ := further
        refine ⟨events, later, journal.symm, ?_, ?_⟩
        · rw [List.append_assoc, journal]
          exact journal'.symm
        · rw [requestsIn_append]
          exact List.prefix_append _ _
      · intro runs handler entry params op ops g machine expected exported
        exact Machine.exec_over (Machine.over_after beyond runs) handler expected exported g

end Script

end ContractHost
