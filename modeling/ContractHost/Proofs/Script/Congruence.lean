/-
# Relating two runs of one program

A program is put together from a few kinds of steps. A relation between runs that holds of
each kind of step, and of composed runs whose parts it relates, relates the whole program
to itself. The two runs may have different handlers of syscalls, and the relation may speak
of different hosts and machines, so this is the one place where a statement about programs
has to look at instructions and operations.

What a relation has to hold of may be narrowed down to programs with instructions of some
kind. Then it need not hold of the syscalls, traps and charges that no such program comes to.
-/

import ContractHost.Proofs.Lockstep
import ContractHost.Script.Run

namespace ContractHost.Script

/-! ## What programs consist of -/

namespace Op

/-- An instruction stands in an operation, or at any depth in a case of it. -/
inductive Contains (instruction : Instruction) : Op → Prop
  | single : Contains instruction (.single instruction)
  | case {selector : String} {cases : List (String × List Op)} {otherwise : List Op}
      {label : String} {ops : List Op} {op : Op} : (label, ops) ∈ cases → op ∈ ops →
      op.Contains instruction → Contains instruction (.branch selector cases otherwise)
  | otherwise {selector : String} {cases : List (String × List Op)} {otherwise : List Op}
      {op : Op} : op ∈ otherwise → op.Contains instruction →
      Contains instruction (.branch selector cases otherwise)

/-- All instructions in operations are of a kind. -/
def Within (Does : Instruction → Prop) (ops : List Op) : Prop :=
  ∀ op ∈ ops, ∀ instruction, op.Contains instruction → Does instruction

variable {Does : Instruction → Prop}

theorem within_cons {op : Op} {rest : List Op} :
    Within Does (op :: rest) ↔ Within Does [op] ∧ Within Does rest := by
  simp [Within]

theorem Within.single {instruction : Instruction} (within : Within Does [.single instruction]) :
    Does instruction := within _ List.mem_cons_self _ .single

variable {selector : String} {cases : List (String × List Op)} {otherwise : List Op}

theorem Within.case (within : Within Does [.branch selector cases otherwise])
    {label : String} {ops : List Op} (mem : (label, ops) ∈ cases) : Within Does ops :=
  fun _ inside _ contains => within _ List.mem_cons_self _ (.case mem inside contains)

theorem Within.default (within : Within Does [.branch selector cases otherwise]) :
    Within Does otherwise :=
  fun _ inside _ contains => within _ List.mem_cons_self _ (.otherwise inside contains)

end Op

/-- The templates that an instruction fills in. -/
def Instruction.templates : Instruction → List String
  | put key value => [key, value]
  | putNil key | delete key => [key]
  | get key _ fallback => key :: fallback.toList
  | output _ message body => [message, body]
  | requireAtLeast left right _ message => [left, right, message]
  | add _ left right | sub _ left right => [left, right]
  | call _ contract method args _ => args.map (·.2) ++ [contract, method]
  | transfer payer payee amount => [payer, payee, amount]
  | log message => [message]
  | getCallArgs | burn _ | grow _ | trap _ | spin _ | stop => []

/-- The task with more memory. -/
def Task.grown (octets : UInt64) (task : Task) : Task :=
  { task with machine.memory := task.machine.memory.map (addSaturating · octets) }

/-- What follows an operation: no more, or the rest of the run. -/
def Flow.andThen (rest : Run Flow) : Flow → Run Flow
  | .stop => return .stop
  | .next => rest

namespace Run

theorem operations_cons (handler : SyscallHandler Module) (op : Op) (rest : List Op) :
    operations handler (op :: rest) =
      start op >>= fun _ => operation handler op >>= Flow.andThen (operations handler rest) := by
  rw [operations]
  rfl

/-- How a read goes on, by what it was answered. -/
def afterRead (answer : Except EngineError SyscallResponse) (fallback : Option String) :
    Run String :=
  match answer, fallback with
  | .ok (.value value), _ => return Utf8.lossy value
  | .ok _, _ => return ""
  | .error (.host (.objectNotFound _)), some fallback => expand fallback
  | .error e, _ => throw e

theorem runFrom_readObject (handler : SyscallHandler Module) (key : Bytes)
    (fallback : Option String) (t : Task) :
    runFrom (readObject handler key fallback) t =
      let p := runFrom (syscall handler (.getObject key)) t
      runFrom (afterRead p.1 fallback) p.2 := rfl

/-! ## From operations to programs -/

/-- How runs of operations are related, by the recursion over operations: `R` relates runs of
lists of operations, `W` what an operation does once it has started. -/
structure Descent (Does : Instruction → Prop) (first second : SyscallHandler Module)
    (R : Run Flow → Run Flow → Prop) (W : Op → Run Flow → Run Flow → Prop) : Prop where
  nil : R (pure .next) (pure .next)
  cons : ∀ op {a b c d : Run Flow}, W op a b → R c d →
    R (start op >>= fun _ => a >>= Flow.andThen c) (start op >>= fun _ => b >>= Flow.andThen d)
  single : ∀ instruction, Does instruction →
    W (.single instruction) (perform first instruction) (perform second instruction)
  branch : ∀ selector cases otherwise {a b : String → Run Flow}, (∀ label, R (a label) (b label)) →
    W (.branch selector cases otherwise) (expand selector >>= a) (expand selector >>= b)

section Descent

variable {Does : Instruction → Prop} {first second : SyscallHandler Module}
  {R : Run Flow → Run Flow → Prop} {W : Op → Run Flow → Run Flow → Prop}

mutual

/-- A list of operations is related to itself. -/
theorem Descent.operations (descent : Descent Does first second R W) : (ops : List Op) →
    Op.Within Does ops → R (operations first ops) (operations second ops)
  | [], _ => by
      unfold Run.operations
      exact descent.nil
  | op :: rest, within => by
      rw [operations_cons, operations_cons]
      obtain ⟨head, tail⟩ := Op.within_cons.1 within
      exact descent.cons op (Descent.operation descent op head)
        (Descent.operations descent rest tail)

/-- An operation is related to itself, by the operations inside it. -/
theorem Descent.operation (descent : Descent Does first second R W) : (op : Op) →
    Op.Within Does [op] → W op (operation first op) (operation second op)
  | .single instruction, within => by
      unfold Run.operation
      exact descent.single instruction within.single
  | .branch selector cases otherwise, within => by
      unfold Run.operation
      exact descent.branch selector cases otherwise fun selected =>
        Descent.oneOf descent selected (Descent.operations descent otherwise within.default)
          cases fun mem => within.case mem

/-- So is the case of a branch, whichever is selected. -/
theorem Descent.oneOf (descent : Descent Does first second R W) (selected : String)
    {otherwise otherwise' : Run Flow} (rest : R otherwise otherwise') :
    (cases : List (String × List Op)) →
      (∀ {label : String} {ops : List Op}, (label, ops) ∈ cases → Op.Within Does ops) →
      R (oneOf first selected cases otherwise) (oneOf second selected cases otherwise')
  | [], _ => by
      unfold Run.oneOf
      exact rest
  | (label, ops) :: more, within => by
      unfold Run.oneOf
      split
      · exact Descent.operations descent ops (within List.mem_cons_self)
      · exact Descent.oneOf descent selected rest more fun mem =>
          within (List.mem_cons_of_mem _ mem)

end

end Descent

/-! ## From steps to operations -/

/-- A service that some instruction of a kind asks for. -/
def Asked (Does : Instruction → Prop) (kind : SyscallKind) : Prop :=
  ∃ instruction, Does instruction ∧ instruction.syscall? = some kind

/-- A template that some instruction of a kind fills in. -/
def Filled (Does : Instruction → Prop) (template : String) : Prop :=
  ∃ instruction, Does instruction ∧ template ∈ instruction.templates

/-- A relation between runs to which all that instructions of a kind do keeps, with a clause for
each kind of step. -/
structure Steps (Does : Instruction → Prop) (first second : SyscallHandler Module)
    (R : ∀ {α : Type}, Run α → Run α → Prop) : Prop where
  pure : ∀ {α : Type} (x : α), R (pure x) (pure x)
  bind : ∀ {α β : Type} {a b : Run α} {f g : α → Run β}, R a b → (∀ x, R (f x) (g x)) →
    R (a >>= f) (b >>= g)
  trap : ∀ {α : Type} (cause : Trap), cause = .integerOverflow ∨ Does (.trap cause) →
    R (α := α) (throw (.trap cause)) (throw (.trap cause))
  expand : ∀ template, Filled Does template → R (expand template) (expand template)
  expandNumber : ∀ template, Filled Does template →
    R (expandNumber template) (expandNumber template)
  assign : ∀ name value, R (assign name value) (assign name value)
  checkSignal : ∀ millis, Does (.spin millis) → R checkSignal checkSignal
  burn : ∀ gas, Does (.burn gas) → R (charge gas) (charge gas)
  grow : ∀ octets, R (modify (Task.grown octets)) (modify (Task.grown octets))
  writeLine : ∀ line, R (writeLine line) (writeLine line)
  syscall : ∀ request : SyscallRequest, Asked Does request.kind →
    R (syscall first request) (syscall second request)
  readObject : ∀ key fallback, Asked Does .getObject →
    (∀ template, fallback = some template → Filled Does template) →
    R (readObject first key fallback) (readObject second key fallback)

/-- A relation between runs to which all steps of such programs keep. -/
structure Congruence (Does : Instruction → Prop) (first second : SyscallHandler Module)
    (R : ∀ {α : Type}, Run α → Run α → Prop) : Prop extends Steps Does first second R where
  start : ∀ op, R (start op) (start op)
  select : ∀ selector, R (Run.expand selector) (Run.expand selector)

namespace Steps

variable {Does : Instruction → Prop} {first second : SyscallHandler Module}
  {R : ∀ {α : Type}, Run α → Run α → Prop} (steps : Steps Does first second R)

include steps

/-- A loop whose body is related to itself. -/
theorem loop {β : Type} {items : List β} {body : β → PUnit → Run (ForInStep PUnit)}
    (step : ∀ item, R (body item ⟨⟩) (body item ⟨⟩)) :
    R (forIn items PUnit.unit body) (forIn items PUnit.unit body) := by
  induction items with
  | nil => exact steps.pure PUnit.unit
  | cons item rest ih =>
      rw [List.forIn_cons]
      apply steps.bind (step item)
      intro next
      cases next with
      | done => exact steps.pure _
      | yield => exact ih

theorem learn (call : CallArgs) : R (learn call) (learn call) := by
  apply steps.bind (steps.assign _ _)
  intro _
  apply steps.bind (steps.assign _ _)
  intro _
  apply steps.bind _ fun _ => steps.pure ()
  exact steps.loop fun _ => steps.bind (steps.assign _ _) fun _ => steps.pure _

theorem receive (into : Option String) (answer : SyscallResponse) :
    R (receive into answer) (receive into answer) := by
  unfold Run.receive
  split
  · exact steps.bind (steps.assign _ _) fun _ => steps.assign _ _
  · exact steps.pure ()

theorem expandArgs (args : List (String × String))
    (filled : ∀ template ∈ args.map (·.2), Filled Does template) :
    R (expandArgs args) (expandArgs args) := by
  induction args with
  | nil => exact steps.pure []
  | cons arg rest ih =>
      obtain ⟨first, others⟩ := List.forall_mem_cons.1 filled
      unfold Run.expandArgs
      rw [List.mapM_cons]
      have value : R (Run.expand arg.2 >>= fun value => Pure.pure ⟨arg.1, Utf8.encode value⟩)
          (Run.expand arg.2 >>= fun value => Pure.pure (⟨arg.1, Utf8.encode value⟩ : ArgPair)) :=
        steps.bind (steps.expand arg.2 first) fun _ => steps.pure _
      exact steps.bind value fun _ => steps.bind (ih others) fun _ => steps.pure _

theorem request (request : SyscallRequest) (asked : Asked Does request.kind) :
    R (Run.request first request) (Run.request second request) :=
  steps.bind (steps.syscall request asked) fun _ => steps.pure ()

/-- An instruction of the kind is related to itself. -/
theorem perform (instruction : Instruction) (does : Does instruction) :
    R (perform first instruction) (perform second instruction) := by
  have next : R (Pure.pure Flow.next) (Pure.pure Flow.next) := steps.pure _
  have asked {kind : SyscallKind} (asks : instruction.syscall? = some kind) : Asked Does kind :=
    ⟨instruction, does, asks⟩
  have filled {template : String} (mem : template ∈ instruction.templates) :
      Filled Does template := ⟨instruction, does, mem⟩
  have expand {template : String} (mem : template ∈ instruction.templates) :
      R (Run.expand template) (Run.expand template) := steps.expand template (filled mem)
  have expandNumber {template : String} (mem : template ∈ instruction.templates) :
      R (Run.expandNumber template) (Run.expandNumber template) :=
    steps.expandNumber template (filled mem)
  cases instruction with
  | getCallArgs =>
      apply steps.bind (steps.syscall _ (asked rfl))
      intro answer
      cases answer with
      | callArgs call => exact steps.bind (steps.learn call) fun _ => next
      | _ => exact next
  | put key value =>
      exact steps.bind (expand (.head _)) fun _ =>
        steps.bind (expand (.tail _ (.head _))) fun _ =>
          steps.bind (steps.request _ (asked rfl)) fun _ => next
  | putNil key =>
      exact steps.bind (expand (.head _)) fun _ =>
        steps.bind (steps.request _ (asked rfl)) fun _ => next
  | get key into fallback =>
      apply steps.bind (expand (.head _))
      intro _
      apply steps.bind _ fun _ => steps.bind (steps.assign _ _) fun _ => next
      apply steps.readObject _ fallback (asked rfl)
      rintro template rfl
      exact filled (.tail _ (.head _))
  | delete key =>
      exact steps.bind (expand (.head _)) fun _ =>
        steps.bind (steps.request _ (asked rfl)) fun _ => next
  | output status message body =>
      exact steps.bind (expand (.head _)) fun _ =>
        steps.bind (expand (.tail _ (.head _))) fun _ =>
          steps.bind (steps.request _ (asked rfl)) fun _ => next
  | requireAtLeast left right status message =>
      apply steps.bind (expandNumber (.head _))
      intro l
      apply steps.bind (expandNumber (.tail _ (.head _)))
      intro r
      split
      · exact steps.bind (expand (.tail _ (.tail _ (.head _)))) fun _ =>
          steps.bind (steps.request _ (asked rfl)) fun _ => steps.pure _
      · exact next
  | add into left right =>
      apply steps.bind (expandNumber (.head _))
      intro l
      apply steps.bind (expandNumber (.tail _ (.head _)))
      intro r
      split
      · exact steps.bind (steps.assign _ _) fun _ => next
      · exact steps.trap _ (.inl rfl)
  | sub into left right =>
      apply steps.bind (expandNumber (.head _))
      intro l
      apply steps.bind (expandNumber (.tail _ (.head _)))
      intro r
      split
      · exact steps.trap _ (.inl rfl)
      · exact steps.bind (steps.assign _ _) fun _ => next
  | call module contract method args into =>
      have inside {template : String} (mem : template ∈ args.map (·.2) ++ [contract, method]) :
          R (Run.expand template) (Run.expand template) := expand mem
      exact steps.bind (steps.expandArgs args fun _ mem => filled (List.mem_append_left _ mem))
        fun _ => steps.bind (inside (by simp)) fun _ => steps.bind (inside (by simp)) fun _ =>
          steps.bind (steps.syscall _ (asked rfl)) fun _ =>
            steps.bind (steps.receive into _) fun _ => next
  | transfer payer payee amount =>
      exact steps.bind (expand (.head _)) fun _ =>
        steps.bind (expand (.tail _ (.head _))) fun _ =>
          steps.bind (expand (.tail _ (.tail _ (.head _)))) fun _ =>
            steps.bind (steps.request _ (asked rfl)) fun _ => next
  | log message =>
      exact steps.bind (expand (.head _)) fun _ =>
        steps.bind (steps.writeLine _) fun _ => next
  | burn gas => exact steps.bind (steps.burn gas does) fun _ => next
  | grow octets => exact steps.bind (steps.grow octets) fun _ => next
  | trap cause => exact steps.trap cause (.inr does)
  | spin millis =>
      dsimp only [Run.perform]
      split
      · exact steps.bind (steps.checkSignal millis does) fun _ => next
      · exact next
  | stop => exact steps.pure _

end Steps

namespace Congruence

variable {Does : Instruction → Prop} {first second : SyscallHandler Module}
  {R : ∀ {α : Type}, Run α → Run α → Prop} (congruence : Congruence Does first second R)

include congruence

theorem andThen {rest rest' : Run Flow} (related : R rest rest') (flow : Flow) :
    R (flow.andThen rest) (flow.andThen rest') := by
  cases flow with
  | stop => exact congruence.pure _
  | next => exact related

/-- Every list of operations with such instructions is related to itself. -/
theorem operations (ops : List Op) (within : Op.Within Does ops) :
    R (operations first ops) (operations second ops) :=
  Descent.operations (W := fun _ => R)
    { nil := congruence.pure _
      cons := fun op _ _ _ _ inside rest =>
        congruence.bind (congruence.start op) fun _ =>
          congruence.bind inside (congruence.andThen rest)
      single := congruence.perform
      branch := fun selector _ _ _ _ inside =>
        congruence.bind (congruence.select selector) inside } ops within

end Congruence

end Run

end ContractHost.Script
