/-
# Exact arithmetic

Programs compute with numbers that they keep as text. A result is printed when it is bound to a
variable and read again when a later operation refers to it, and between the two it may be
spliced into other text. None of this loses anything: what a variable holds after a sequence of
such operations is the value of an expression over the operands in exact integers, and where a
result would not fit the program traps instead.

A reckoning is what the exact computation keeps beside a run: the expression that every
variable stands for, and the texts with the values of these expressions in their places.
-/

import ContractHost.Proofs.Script.Moves
import ContractHost.Proofs.Text.Decimal
import Mathlib.Logic.Function.Basic

namespace ContractHost.Script

/-! ## Operands -/

namespace Template

/-- A text denotes a number that programs compute with: it spells the number, possibly between
blanks. -/
def Denotes (text : String) (n : Nat) : Prop :=
  (∃ front spelling back, text.toList = front ++ spelling ++ back ∧
    (∀ c ∈ front ++ back, Blank.isBlank c) ∧ Decimal.Spells spelling n) ∧ n < 2 ^ 128

variable {text : String} {n m : Nat}

/-- The numbers that are read from texts are those that the texts denote. -/
theorem number_eq_ok_iff : number text = .ok n ↔ Denotes text n := by
  have positive : 0 < numberBound := by decide
  have read_iff : number text = .ok n ↔
      Decimal.read? numberBound (Blank.trim text.toList) = some n := by
    unfold number
    cases Decimal.read? numberBound (Blank.trim text.toList) with
    | none => simp
    | some m => simp
  rw [read_iff, Decimal.read?_eq_some_iff positive]
  constructor
  · rintro ⟨spells, less⟩
    obtain ⟨front, back, split, blank⟩ := Blank.exists_eq_append_trim text.toList
    exact ⟨⟨front, _, back, split, blank, spells⟩, less⟩
  · rintro ⟨⟨front, spelling, back, split, blank, spells⟩, less⟩
    obtain ⟨some, plain⟩ := spells.unblank
    rw [split, Blank.trim_append blank some plain]
    exact ⟨spells, less⟩

example : number " +007 " = .ok 7 := by decide

/-- Texts that denote no number are all refused alike. -/
theorem number_of_not_denotes (none : ∀ n, ¬ Denotes text n) :
    number text = .error .invalidConversion := by
  cases read : number text with
  | ok n => exact absurd (number_eq_ok_iff.1 read) (none n)
  | error trap =>
      unfold number at read
      split at read
      · cases read
      · exact read.symm

/-- What is printed reads back as the number that was printed. -/
theorem denotes_print (small : n < 2 ^ 128) : Denotes (Decimal.print n) n :=
  ⟨⟨[], _, [], (List.append_nil _).symm, by simp, Decimal.spells_print n⟩, small⟩

theorem expandNumber_eq {vars : Variables} {template : String}
    (expands : expand vars template = .ok text) : expandNumber vars template = number text := by
  rw [expandNumber, expands]
  rfl

theorem lt_of_expandNumber {vars : Variables} {template : String}
    (reads : expandNumber vars template = .ok n) : n < 2 ^ 128 := by
  obtain ⟨text, -, reads⟩ := except_bind_eq_ok.1 reads
  exact (number_eq_ok_iff.1 reads).2

end Template

open Template (Denotes)

/-- The operands of an instruction that computes with numbers. -/
def Instruction.operands? : Instruction → Option (String × String)
  | .add _ left right | .sub _ left right | .requireAtLeast left right _ _ => some (left, right)
  | _ => none

namespace Run

/-- The numbers that two operands denote. The left one is looked at first. -/
def operands (vars : Variables) (left right : String) : Except Trap (Nat × Nat) := do
  let a ← Template.expandNumber vars left
  let b ← Template.expandNumber vars right
  return (a, b)

variable {handler : SyscallHandler Module} {t u : Task} {left right x y : String} {a b : Nat}

theorem operands_eq_ok_iff {vars : Variables} :
    operands vars left right = .ok (a, b) ↔
      Template.expandNumber vars left = .ok a ∧ Template.expandNumber vars right = .ok b := by
  unfold operands
  cases Template.expandNumber vars left with
  | error trap => simp [bind, Except.bind]
  | ok a =>
      cases Template.expandNumber vars right with
      | error trap => simp [bind, Except.bind]
      | ok b => simp [bind, Except.bind, pure, Except.pure]

/-- What is done with two operands is done with the numbers that they denote. -/
theorem runFrom_operands (next : Nat → Nat → Run Flow) :
    runFrom (do
      let a ← expandNumber left
      let b ← expandNumber right
      next a b) t =
      match operands t.vars left right with
      | .ok (a, b) => runFrom (next a b) t
      | .error trap => (.error (.trap trap), t) := by
  rw [runFrom_bind, runFrom_expandNumber]
  unfold operands
  cases Template.expandNumber t.vars left with
  | error trap => rfl
  | ok a =>
      show runFrom (expandNumber right >>= fun b => next a b) t = _
      rw [runFrom_bind, runFrom_expandNumber]
      cases Template.expandNumber t.vars right with
      | error trap => rfl
      | ok b => rfl

/-! ## Single operations -/

theorem runFrom_add (handler : SyscallHandler Module) (t : Task) (into left right : String) :
    runFrom (perform handler (.add into left right)) t =
      match operands t.vars left right with
      | .ok (a, b) =>
        if a + b < Template.numberBound then (.ok .next, t.assigned into (Decimal.print (a + b)))
        else (.error (.trap .integerOverflow), t)
      | .error trap => (.error (.trap trap), t) := by
  refine (runFrom_operands _).trans ?_
  cases operands t.vars left right with
  | error trap => rfl
  | ok numbers =>
      dsimp only
      split <;> rfl

theorem runFrom_sub (handler : SyscallHandler Module) (t : Task) (into left right : String) :
    runFrom (perform handler (.sub into left right)) t =
      match operands t.vars left right with
      | .ok (a, b) =>
        if a < b then (.error (.trap .integerOverflow), t)
        else (.ok .next, t.assigned into (Decimal.print (a - b)))
      | .error trap => (.error (.trap trap), t) := by
  refine (runFrom_operands _).trans ?_
  cases operands t.vars left right with
  | error trap => rfl
  | ok numbers =>
      dsimp only
      split <;> rfl

/-- Answers that a requirement is not met, and ends the run. -/
def refuse (handler : SyscallHandler Module) (status : Int32) (message : String) : Run Flow := do
  let message ← expand message
  request handler (.setOutput (.failure status message))
  return .stop

theorem runFrom_requireAtLeast (handler : SyscallHandler Module) (t : Task) (left right : String)
    (status : Int32) (message : String) :
    runFrom (perform handler (.requireAtLeast left right status message)) t =
      match operands t.vars left right with
      | .ok (a, b) => if a < b then runFrom (refuse handler status message) t else (.ok .next, t)
      | .error trap => (.error (.trap trap), t) := by
  refine (runFrom_operands _).trans ?_
  cases operands t.vars left right with
  | error trap => rfl
  | ok numbers =>
      dsimp only
      split <;> rfl

theorem runFrom_refuse (handler : SyscallHandler Module) (t : Task) (status : Int32)
    (message : String) :
    runFrom (refuse handler status message) t =
      match Template.expand t.vars message with
      | .ok text =>
        let p := runFrom (syscall handler (.setOutput (.failure status text))) t
        (p.1.map fun _ => .stop, p.2)
      | .error trap => (.error (.trap trap), t) := by
  unfold refuse request
  rw [runFrom_bind, runFrom_expand]
  cases Template.expand t.vars message with
  | error trap => rfl
  | ok text =>
      let asked := syscall handler (.setOutput (.failure status text))
      show runFrom ((asked >>= fun _ => pure ()) >>= fun _ => pure Flow.stop) t =
        ((runFrom asked t).1.map fun _ => .stop, (runFrom asked t).2)
      rw [bind_assoc, runFrom_bind]
      rcases runFrom asked t with ⟨e | answer, u⟩
      · rfl
      · rfl

/-- A refusal never lets the run go on, and leaves the variables as they are. -/
theorem refuse_ends (handler : SyscallHandler Module) (t : Task) (status : Int32)
    (message : String) :
    (runFrom (refuse handler status message) t).1 ≠ .ok .next ∧
      (runFrom (refuse handler status message) t).2.vars = t.vars := by
  rw [runFrom_refuse]
  cases Template.expand t.vars message with
  | error trap => exact ⟨by rintro ⟨⟩, rfl⟩
  | ok text =>
      dsimp only
      constructor
      · cases (runFrom (syscall handler (.setOutput (.failure status text))) t).1 with
        | error e => rintro ⟨⟩
        | ok answer => rintro ⟨⟩
      · rcases syscall_cases t handler (.setOutput (.failure status text)) with
          same | ⟨_, _, served⟩
        · rw [same]
        · rw [served]
          rfl

/-- A syscall that traps does so before anybody is asked for the service. -/
theorem syscall_traps {request : SyscallRequest} {trap : Trap}
    (traps : runFrom (syscall handler request) t = (.error (.trap trap), u))
    (other : SyscallHandler Module) :
    u = t ∧ runFrom (syscall other request) t = (.error (.trap trap), t) := by
  rw [runFrom_syscall] at traps ⊢
  cases context : t.machine.context with
  | none =>
      rw [context] at traps
      cases traps
  | some id =>
      rw [context] at traps
      dsimp only at traps ⊢
      cases binding : t.machine.module.binding? request.kind with
      | none =>
          rw [binding] at traps
          cases traps
          exact ⟨rfl, rfl⟩
      | some bound =>
          rw [binding] at traps
          dsimp only at traps ⊢
          by_cases foreign : request.kind ≠ bound
          · rw [if_pos foreign] at traps ⊢
            cases traps
            exact ⟨rfl, rfl⟩
          · rw [if_neg foreign] at traps
            have result := congrArg Prod.fst traps
            dsimp only at result
            cases answered : (runFrom (handler id request) t.host).1 with
            | error e =>
                rw [answered] at result
                cases result
            | ok answer =>
                rw [answered] at result
                cases result

/-- A refusal that traps does so before anybody is asked for a service. -/
theorem refuse_traps {status : Int32} {message : String} {trap : Trap}
    (traps : runFrom (refuse handler status message) t = (.error (.trap trap), u))
    (other : SyscallHandler Module) :
    u = t ∧ runFrom (refuse other status message) t = (.error (.trap trap), t) := by
  rw [runFrom_refuse] at traps ⊢
  cases expanded : Template.expand t.vars message with
  | error reason =>
      rw [expanded] at traps
      cases traps
      exact ⟨rfl, rfl⟩
  | ok text =>
      rw [expanded] at traps
      dsimp only at traps ⊢
      cases asked : runFrom (syscall handler (.setOutput (.failure status text))) t with
      | mk result v =>
          rw [asked] at traps
          cases result with
          | ok answer => cases traps
          | error e =>
              cases traps
              obtain ⟨same, alike⟩ := syscall_traps asked other
              rw [alike]
              exact ⟨same, rfl⟩

/-- An operation traps at once, lets the run go on, or is a requirement that is not met and
ends the run with a refusal. Only the refusal has to do with who serves syscalls. -/
theorem perform_cases {instruction : Instruction} (computes : instruction.operands?.isSome)
    (t : Task) :
    (∃ trap, ∀ handler,
      runFrom (perform handler instruction) t = (.error (.trap trap), t)) ∨
    (∃ u, ∀ handler, runFrom (perform handler instruction) t = (.ok .next, u)) ∨
    ∃ status message,
      (∀ handler,
        runFrom (perform handler instruction) t = runFrom (refuse handler status message) t) ∧
      ∃ left right a b, instruction = .requireAtLeast left right status message ∧
        operands t.vars left right = .ok (a, b) ∧ a < b := by
  cases instruction with
  | add into left right =>
      simp only [runFrom_add]
      cases operands t.vars left right with
      | error trap => exact .inl ⟨trap, fun _ => rfl⟩
      | ok numbers =>
          dsimp only
          split
          · exact .inr (.inl ⟨_, fun _ => rfl⟩)
          · exact .inl ⟨_, fun _ => rfl⟩
  | sub into left right =>
      simp only [runFrom_sub]
      cases operands t.vars left right with
      | error trap => exact .inl ⟨trap, fun _ => rfl⟩
      | ok numbers =>
          dsimp only
          split
          · exact .inl ⟨_, fun _ => rfl⟩
          · exact .inr (.inl ⟨_, fun _ => rfl⟩)
  | requireAtLeast left right status message =>
      simp only [runFrom_requireAtLeast]
      cases reads : operands t.vars left right with
      | error trap => exact .inl ⟨trap, fun _ => rfl⟩
      | ok numbers =>
          obtain ⟨a, b⟩ := numbers
          dsimp only
          split
          · next less =>
            exact .inr (.inr ⟨status, message, fun _ => rfl, left, right, a, b, rfl, reads, less⟩)
          · exact .inr (.inl ⟨_, fun _ => rfl⟩)
  | _ => cases computes

/-- An operation that traps has changed nothing, and has asked for no service: it makes no
difference who would have served it. -/
theorem perform_traps {instruction : Instruction} (computes : instruction.operands?.isSome)
    {trap : Trap} (traps : runFrom (perform handler instruction) t = (.error (.trap trap), u))
    (other : SyscallHandler Module) :
    u = t ∧ runFrom (perform other instruction) t = (.error (.trap trap), t) := by
  rcases perform_cases computes t with ⟨reason, same⟩ | ⟨v, same⟩ | ⟨status, message, same, _⟩
  · rw [same] at traps ⊢
    cases traps
    exact ⟨rfl, rfl⟩
  · rw [same] at traps
    cases traps
  · rw [same] at traps ⊢
    exact refuse_traps traps other

/-- An operation that does not let the run go on leaves the variables as they are. -/
theorem perform_vars (handler : SyscallHandler Module) {instruction : Instruction}
    (computes : instruction.operands?.isSome)
    (ended : (runFrom (perform handler instruction) t).1 ≠ .ok .next) :
    (runFrom (perform handler instruction) t).2.vars = t.vars := by
  rcases perform_cases computes t with ⟨reason, same⟩ | ⟨v, same⟩ | ⟨status, message, same, _⟩
  · rw [same]
  · rw [same] at ended
    exact absurd rfl ended
  · rw [same]
    exact (refuse_ends handler t status message).2

/-- Operands that denote no number are an invalid conversion, whatever was to be done with
them. -/
theorem perform_invalid {instruction : Instruction}
    (operands : instruction.operands? = some (left, right))
    (expandsLeft : Template.expand t.vars left = .ok x)
    (expandsRight : Template.expand t.vars right = .ok y)
    (invalid : (∀ n, ¬ Denotes x n) ∨ ∀ n, ¬ Denotes y n) :
    runFrom (perform handler instruction) t = (.error (.trap .invalidConversion), t) := by
  have refused : Run.operands t.vars left right = .error .invalidConversion := by
    unfold Run.operands
    rw [Template.expandNumber_eq expandsLeft, Template.expandNumber_eq expandsRight]
    by_cases denotes : ∃ n, Denotes x n
    · obtain ⟨n, denotes⟩ := denotes
      have other : ∀ n, ¬ Denotes y n := invalid.resolve_left fun none => none n denotes
      rw [Template.number_eq_ok_iff.2 denotes, Template.number_of_not_denotes other]
      rfl
    · rw [Template.number_of_not_denotes (not_exists.1 denotes)]
      rfl
  cases instruction with
  | add into l r =>
      cases operands
      rw [runFrom_add, refused]
  | sub into l r =>
      cases operands
      rw [runFrom_sub, refused]
  | requireAtLeast l r status message =>
      cases operands
      rw [runFrom_requireAtLeast, refused]
  | _ => cases operands

/-! ## Sequences of operations -/

theorem start_vars (t : Task) (op : Op) : (runFrom (start op) t).2.vars = t.vars := by
  rw [runFrom_start]
  cases t.asked? with
  | some trap => rfl
  | none =>
      dsimp only
      split
      · rfl
      · rfl

/-- A single operation with what comes before it: the signal, the price and the note. -/
def single (handler : SyscallHandler Module) (instruction : Instruction) : Run Flow := do
  start (.single instruction)
  perform handler instruction

theorem runFrom_single (handler : SyscallHandler Module) (instruction : Instruction) (t : Task) :
    runFrom (single handler instruction) t =
      match runFrom (start (.single instruction)) t with
      | (.error e, u) => (.error e, u)
      | (.ok (), u) => runFrom (perform handler instruction) u := by
  unfold single
  rw [runFrom_bind]
  cases runFrom (start (.single instruction)) t with
  | mk result u => cases result <;> rfl

theorem runFrom_operations_single (handler : SyscallHandler Module) (instruction : Instruction)
    (rest : List Op) (t : Task) :
    runFrom (operations handler (.single instruction :: rest)) t =
      match runFrom (single handler instruction) t with
      | (.error e, u) => (.error e, u)
      | (.ok .stop, u) => (.ok .stop, u)
      | (.ok .next, u) => runFrom (operations handler rest) u := by
  have performed : operation handler (.single instruction) = perform handler instruction := by
    rw [operation]
  have unfolded : operations handler (.single instruction :: rest) =
      single handler instruction >>= Flow.andThen (operations handler rest) := by
    rw [operations_cons, performed, single, bind_assoc]
  rw [unfolded, runFrom_bind]
  cases runFrom (single handler instruction) t with
  | mk result u =>
      cases result with
      | error e => rfl
      | ok flow => cases flow <;> rfl

/-- A list of operations either ends as the first one does, with the variables as they were, or
goes on where that one let it go on. -/
theorem operations_cases (handler : SyscallHandler Module) {instruction : Instruction}
    (computes : instruction.operands?.isSome) (t : Task) :
    let first := runFrom (single handler instruction) t
    (first.1 ≠ .ok .next ∧ first.2.vars = t.vars ∧
      ∀ rest, runFrom (operations handler (.single instruction :: rest)) t = first) ∨
      ∃ u v, u.vars = t.vars ∧ runFrom (perform handler instruction) u = (.ok .next, v) ∧
        ∀ rest, runFrom (operations handler (.single instruction :: rest)) t =
          runFrom (operations handler rest) v := by
  have begun := start_vars t (.single instruction)
  simp only [runFrom_operations_single, runFrom_single]
  cases started : runFrom (start (.single instruction)) t with
  | mk result u =>
      rw [started] at begun
      cases result with
      | error e => exact .inl ⟨by rintro ⟨⟩, begun, fun _ => rfl⟩
      | ok _ =>
          have vars := perform_vars (t := u) handler computes
          dsimp only
          cases performed : runFrom (perform handler instruction) u with
          | mk result v =>
              rw [performed] at vars
              cases result with
              | error e =>
                  exact .inl ⟨by rintro ⟨⟩, (vars (by rintro ⟨⟩)).trans begun, fun _ => rfl⟩
              | ok flow =>
                  cases flow with
                  | stop =>
                      exact .inl ⟨by rintro ⟨⟩, (vars (by rintro ⟨⟩)).trans begun, fun _ => rfl⟩
                  | next => exact .inr ⟨u, v, begun, performed, fun _ => rfl⟩

end Run

/-! ## Expressions -/

/-- An expression over numbers that operands denote. -/
inductive Expression
  | operand (n : Nat)
  | sum (left right : Expression)
  | difference (left right : Expression)
deriving DecidableEq, Repr

/-- The value of an expression in exact integers. -/
def Expression.value : Expression → Int
  | operand n => n
  | sum left right => left.value + right.value
  | difference left right => left.value - right.value

/-- The variable to which a template is a reference and nothing else. -/
def Template.reference? (template : String) : Option String :=
  match parts? none template.toList with
  | some [.reference name] => some (String.ofList name)
  | _ => none

theorem Template.expand_reference {vars : Variables} {template name value : String}
    (refers : reference? template = some name) (bound : vars.get? name = some value) :
    expand vars template = .ok value := by
  unfold reference? at refers
  split at refers
  · next parts =>
    cases refers
    unfold expand
    rw [parts, Option.bind_some, List.mapM_cons, Part.fill?, bound]
    simp
  · cases refers

/-- What an exact computation knows of the variables: their texts, where results are printed
from their exact values, and the expressions that the computed ones stand for. -/
structure Reckoning where
  texts : Variables
  computed : String → Option Expression

namespace Reckoning

/-- Before anything is computed. -/
def ofVariables (vars : Variables) : Reckoning := ⟨vars, fun _ => none⟩

/-- The expression that an operand stands for: that of a variable, if it is a reference to a
computed one, and otherwise the number that the filled-in text denotes. -/
def operand? (known : Reckoning) (template : String) : Option Expression :=
  match (Template.reference? template).bind known.computed with
  | some e => some e
  | none => (Template.expandNumber known.texts template).toOption.map .operand

/-- A variable is computed. -/
def compute (known : Reckoning) (name : String) (e : Expression) : Reckoning where
  texts := known.texts.insert name (Decimal.printInt e.value)
  computed := Function.update known.computed name (some e)

/-- Goes along with an operation. A requirement is compared exactly, and has to be met. -/
def step? (known : Reckoning) : Instruction → Option Reckoning
  | .add into left right => do
    return known.compute into (.sum (← known.operand? left) (← known.operand? right))
  | .sub into left right => do
    return known.compute into (.difference (← known.operand? left) (← known.operand? right))
  | .requireAtLeast left right _ _ => do
    if (← known.operand? right).value ≤ (← known.operand? left).value then some known else none
  | _ => none

/-- Goes along with operations one after another. -/
def run? (known : Reckoning) : List Instruction → Option Reckoning
  | [] => some known
  | instruction :: rest => (known.step? instruction).bind fun known => known.run? rest

/-- A requirement that, compared exactly, is not met. -/
def Refuses (known : Reckoning) : Instruction → Prop
  | .requireAtLeast left right _ _ =>
    ∃ l r, known.operand? left = some l ∧ known.operand? right = some r ∧ l.value < r.value
  | _ => False

/-- A reckoning agrees with the variables of a run: the texts are the same, every computed
variable holds the value of its expression, and all others hold what they held at first. -/
structure Agrees (first : Variables) (known : Reckoning) (vars : Variables) : Prop where
  texts : known.texts = vars
  exact : ∀ name e, known.computed name = some e →
    ∃ n : Nat, e.value = n ∧ n < 2 ^ 128 ∧ vars.get? name = some (Decimal.print n)
  untouched : ∀ name, known.computed name = none → vars.get? name = first.get? name

theorem agrees_ofVariables (vars : Variables) : Agrees vars (ofVariables vars) vars where
  texts := rfl
  exact _ _ computed := by cases computed
  untouched _ _ := rfl

variable {first vars : Variables} {known : Reckoning} {handler : SyscallHandler Module}
  {left right template : String} {a b n : Nat} {t u : Task}

/-- An operand that is read stands for an expression of that value. -/
theorem Agrees.operand (agrees : Agrees first known vars)
    (reads : Template.expandNumber vars template = .ok n) :
    ∃ e, known.operand? template = some e ∧ e.value = n := by
  unfold operand?
  cases refers : (Template.reference? template).bind known.computed with
  | none =>
      refine ⟨.operand n, ?_, rfl⟩
      dsimp only
      rw [agrees.texts, reads]
      rfl
  | some e =>
      obtain ⟨name, reference, computed⟩ := Option.bind_eq_some_iff.1 refers
      obtain ⟨m, value, small, bound⟩ := agrees.exact name e computed
      have back : Template.number (Decimal.print m) = .ok m :=
        Template.number_eq_ok_iff.2 (Template.denotes_print small)
      rw [Template.expandNumber_eq (Template.expand_reference reference bound), back] at reads
      cases reads
      exact ⟨e, rfl, value⟩

theorem Agrees.operands (agrees : Agrees first known vars)
    (reads : Run.operands vars left right = .ok (a, b)) :
    ∃ l r, known.operand? left = some l ∧ known.operand? right = some r ∧
      l.value = a ∧ r.value = b := by
  obtain ⟨readsLeft, readsRight⟩ := Run.operands_eq_ok_iff.1 reads
  obtain ⟨l, standsLeft, valueLeft⟩ := agrees.operand readsLeft
  obtain ⟨r, standsRight, valueRight⟩ := agrees.operand readsRight
  exact ⟨l, r, standsLeft, standsRight, valueLeft, valueRight⟩

theorem computed_compute_self (known : Reckoning) (name : String) (e : Expression) :
    (known.compute name e).computed name = some e :=
  Function.update_self ..

theorem computed_compute_of_ne (known : Reckoning) {name other : String} (e : Expression)
    (different : other ≠ name) :
    (known.compute name e).computed other = known.computed other :=
  Function.update_of_ne different ..

/-- Printing a result binds the value of its expression. -/
theorem Agrees.compute (agrees : Agrees first known vars) (name : String) {e : Expression}
    (value : e.value = n) (small : n < 2 ^ 128) :
    Agrees first (known.compute name e) (vars.insert name (Decimal.print n)) where
  texts := by
    show known.texts.insert name (Decimal.printInt e.value) = _
    rw [agrees.texts, value]
    rfl
  exact := by
    intro other e' computed
    by_cases same : other = name
    · subst same
      rw [computed_compute_self] at computed
      cases computed
      exact ⟨n, value, small, Table.get?_insert_self ..⟩
    · rw [computed_compute_of_ne known e same] at computed
      rw [Table.get?_insert_of_ne _ same]
      exact agrees.exact other e' computed
  untouched := by
    intro other none
    by_cases same : other = name
    · subst same
      rw [computed_compute_self] at none
      cases none
    · rw [computed_compute_of_ne known e same] at none
      rw [Table.get?_insert_of_ne _ same]
      exact agrees.untouched other none

/-- An operation after which the run goes on is one of the exact computation. -/
theorem Agrees.step (agrees : Agrees first known t.vars) {instruction : Instruction}
    (computes : instruction.operands?.isSome)
    (goes : runFrom (Run.perform handler instruction) t = (.ok .next, u)) :
    ∃ known', known.step? instruction = some known' ∧ Agrees first known' u.vars := by
  cases instruction with
  | add into left right =>
      rw [Run.runFrom_add] at goes
      split at goes
      · next a b reads =>
        obtain ⟨l, r, standsLeft, standsRight, valueLeft, valueRight⟩ := agrees.operands reads
        split at goes
        · next small =>
          cases goes
          refine ⟨known.compute into (.sum l r), ?_, ?_⟩
          · simp [step?, standsLeft, standsRight]
          · apply agrees.compute into _ small
            rw [Expression.value, valueLeft, valueRight]
            exact (Int.natCast_add a b).symm
        · cases goes
      · cases goes
  | sub into left right =>
      rw [Run.runFrom_sub] at goes
      split at goes
      · next a b reads =>
        obtain ⟨l, r, standsLeft, standsRight, valueLeft, valueRight⟩ := agrees.operands reads
        split at goes
        · cases goes
        · next enough =>
          cases goes
          refine ⟨known.compute into (.difference l r), ?_, ?_⟩
          · simp [step?, standsLeft, standsRight]
          · have small : a < 2 ^ 128 :=
              Template.lt_of_expandNumber (Run.operands_eq_ok_iff.1 reads).1
            apply agrees.compute into _ (Nat.lt_of_le_of_lt (Nat.sub_le a b) small)
            rw [Expression.value, valueLeft, valueRight]
            exact (Int.natCast_sub (Nat.not_lt.1 enough)).symm
      · cases goes
  | requireAtLeast left right status message =>
      rw [Run.runFrom_requireAtLeast] at goes
      split at goes
      · next a b reads =>
        obtain ⟨l, r, standsLeft, standsRight, valueLeft, valueRight⟩ := agrees.operands reads
        split at goes
        · have ended := (Run.refuse_ends handler t status message).1
          rw [goes] at ended
          exact absurd rfl ended
        · next enough =>
          cases goes
          refine ⟨known, ?_, agrees⟩
          have met : r.value ≤ l.value := by
            rw [valueLeft, valueRight]
            exact Int.ofNat_le.2 (Nat.not_lt.1 enough)
          simp [step?, standsLeft, standsRight, met]
      · cases goes
  | _ => cases computes

/-- An operation that ends the run without an error is a requirement that is not met. -/
theorem Agrees.refuses (agrees : Agrees first known t.vars) {instruction : Instruction}
    (computes : instruction.operands?.isSome)
    (stops : (runFrom (Run.single handler instruction) t).1 = .ok .stop) :
    known.Refuses instruction := by
  have begun := Run.start_vars t (.single instruction)
  rw [Run.runFrom_single] at stops
  split at stops
  · cases stops
  · next u started =>
    rw [started] at begun
    rw [← begun] at agrees
    rcases Run.perform_cases computes u with
      ⟨reason, same⟩ | ⟨v, same⟩ | ⟨status, message, _, left, right, a, b, rfl, reads, less⟩
    · rw [same] at stops
      cases stops
    · rw [same] at stops
      cases stops
    · obtain ⟨l, r, standsLeft, standsRight, valueLeft, valueRight⟩ := agrees.operands reads
      refine ⟨l, r, standsLeft, standsRight, ?_⟩
      rw [valueLeft, valueRight]
      exact Int.ofNat_lt.2 less

/-- However operations of this kind end that are run one after another, the exact computation
goes along with those that let the run go on. These are all of them, or the run ends as the next
one does. -/
theorem Agrees.run (handler : SyscallHandler Module) (agrees : Agrees first known t.vars)
    (instructions : List Instruction)
    (compute : ∀ instruction ∈ instructions, instruction.operands?.isSome) :
    let run (instructions : List Instruction) :=
      runFrom (Run.operations handler (instructions.map .single)) t
    ∃ done known' u, run done = (.ok .next, u) ∧ known.run? done = some known' ∧
      Agrees first known' u.vars ∧
      (instructions = done ∨ ∃ instruction rest, instructions = done ++ instruction :: rest ∧
        let last := runFrom (Run.single handler instruction) u
        run instructions = last ∧ last.1 ≠ .ok .next ∧ last.2.vars = u.vars ∧
          (last.1 = .ok .stop → known'.Refuses instruction)) := by
  induction instructions generalizing known t with
  | nil => exact ⟨[], known, t, rfl, rfl, agrees, .inl rfl⟩
  | cons instruction rest ih =>
      obtain ⟨computes, compute⟩ := List.forall_mem_cons.1 compute
      intro run
      rcases Run.operations_cases handler computes t with
        ⟨ended, same, first⟩ | ⟨u, v, begun, goes, further⟩
      · exact ⟨[], known, t, rfl, rfl, agrees, .inr ⟨instruction, rest, rfl,
          first (rest.map .single), ended, same, agrees.refuses computes⟩⟩
      · rw [← begun] at agrees
        obtain ⟨known', step, agrees'⟩ := agrees.step computes goes
        have onward (instructions : List Instruction) : run (instruction :: instructions) =
            runFrom (Run.operations handler (instructions.map .single)) v :=
          further (instructions.map .single)
        obtain ⟨done, last, w, through, reckoned, exact, rest⟩ := ih agrees' compute
        refine ⟨instruction :: done, last, w, (onward done).trans through, ?_, exact, ?_⟩
        · rw [run?, step, Option.bind_some, reckoned]
        · rcases rest with rfl | ⟨next, rest, rfl, ends, others⟩
          · exact .inl rfl
          · exact .inr ⟨next, rest, rfl, (onward _).trans ends, others⟩

end Reckoning

/-- Arithmetic is exact, from the texts that operands expand to up to whole sequences.

Where two operands denote numbers, a sum that would not fit and a difference that would fall
below zero are integer overflows, every other result is bound to a text that denotes it, and a
requirement is passed just when the left number is at least the right one. Operands that denote
no number are invalid conversions. A trap leaves everything as it is, whoever would have served
a syscall.

A sequence of such operations is done from its front. Those that are done let the run go on and
have an exact counterpart: a computed variable holds a text that denotes the value of its
expression, and all others hold what they held. They are all of the sequence, or the run ends
just as the next operation does. That one traps, or is not even started, or else it is a
requirement that is not met by the exact values. -/
theorem arithmetic_is_exact (handler : SyscallHandler Module) (task : Task) :
    let run (instruction : Instruction) := runFrom (Run.perform handler instruction) task
    (∀ into left right status message x y a b, Template.expand task.vars left = .ok x →
      Template.expand task.vars right = .ok y → Denotes x a → Denotes y b →
      (2 ^ 128 ≤ a + b → run (.add into left right) = (.error (.trap .integerOverflow), task)) ∧
      (a + b < 2 ^ 128 → ∃ text, Denotes text (a + b) ∧
        run (.add into left right) = (.ok .next, task.assigned into text)) ∧
      (a < b → run (.sub into left right) = (.error (.trap .integerOverflow), task)) ∧
      (b ≤ a → ∃ text, Denotes text (a - b) ∧
        run (.sub into left right) = (.ok .next, task.assigned into text)) ∧
      (b ≤ a → run (.requireAtLeast left right status message) = (.ok .next, task)) ∧
      (a < b → (run (.requireAtLeast left right status message)).1 ≠ .ok .next)) ∧
    (∀ instruction left right x y, instruction.operands? = some (left, right) →
      Template.expand task.vars left = .ok x → Template.expand task.vars right = .ok y →
      ((∀ n, ¬ Denotes x n) ∨ ∀ n, ¬ Denotes y n) →
      run instruction = (.error (.trap .invalidConversion), task)) ∧
    (∀ instruction trap last, instruction.operands?.isSome →
      run instruction = (.error (.trap trap), last) →
      last = task ∧ ∀ other, runFrom (Run.perform other instruction) task =
        (.error (.trap trap), task)) ∧
    ∀ instructions : List Instruction,
      (∀ instruction ∈ instructions, instruction.operands?.isSome) →
      let p := runFrom (Run.operations handler (instructions.map .single)) task
      ∃ done known u, done <+: instructions ∧ (p.1 = .ok .next → done = instructions) ∧
        runFrom (Run.operations handler (done.map .single)) task = (.ok .next, u) ∧
        (∀ instruction, done ++ [instruction] <+: instructions →
          p = runFrom (Run.single handler instruction) u ∧ p.1 ≠ .ok .next ∧
          (p.1 = .ok .stop → known.Refuses instruction)) ∧
        (Reckoning.ofVariables task.vars).run? done = some known ∧
        (∀ name e, known.computed name = some e →
          ∃ text n, p.2.vars.get? name = some text ∧ Denotes text n ∧ e.value = (n : Int)) ∧
        ∀ name, known.computed name = none → p.2.vars.get? name = task.vars.get? name := by
  intro run
  refine ⟨?_, fun instruction left right x y => Run.perform_invalid,
    fun instruction trap last computes traps => ?_, fun instructions compute => ?_⟩
  · intro into left right status message x y a b expandsLeft expandsRight denotesLeft denotesRight
    have reads : Run.operands task.vars left right = .ok (a, b) := by
      rw [Run.operands_eq_ok_iff, Template.expandNumber_eq expandsLeft,
        Template.expandNumber_eq expandsRight]
      exact ⟨Template.number_eq_ok_iff.2 denotesLeft, Template.number_eq_ok_iff.2 denotesRight⟩
    have sum : run (.add into left right) = _ := Run.runFrom_add handler task into left right
    have difference : run (.sub into left right) = _ := Run.runFrom_sub handler task into left right
    have comparison : run (.requireAtLeast left right status message) = _ :=
      Run.runFrom_requireAtLeast handler task left right status message
    rw [reads] at sum difference comparison
    dsimp only at sum difference comparison
    refine ⟨fun beyond => ?_, fun small => ?_, fun less => ?_, fun enough => ?_, fun enough => ?_,
      fun less => ?_⟩
    · rw [sum]
      exact if_neg (Nat.not_lt.2 beyond)
    · refine ⟨Decimal.print (a + b), Template.denotes_print small, ?_⟩
      rw [sum]
      exact if_pos small
    · rw [difference, if_pos less]
    · refine ⟨Decimal.print (a - b), Template.denotes_print ?_, ?_⟩
      · exact Nat.lt_of_le_of_lt (Nat.sub_le a b) denotesLeft.2
      · rw [difference, if_neg (Nat.not_lt.2 enough)]
    · rw [comparison, if_neg (Nat.not_lt.2 enough)]
    · rw [comparison, if_pos less]
      exact (Run.refuse_ends handler task status message).1
  · exact ⟨(Run.perform_traps computes traps handler).1,
      fun other => (Run.perform_traps computes traps other).2⟩
  · obtain ⟨done, known, u, through, reckoned, agrees, rest⟩ :=
      (Reckoning.agrees_ofVariables task.vars).run handler instructions compute
    intro p
    have held (vars : Variables) (same : vars = u.vars) :
        (∀ name e, known.computed name = some e →
          ∃ text n, vars.get? name = some text ∧ Denotes text n ∧ e.value = (n : Int)) ∧
        ∀ name, known.computed name = none → vars.get? name = task.vars.get? name := by
      rw [same]
      refine ⟨fun name e computed => ?_, agrees.untouched⟩
      obtain ⟨n, value, small, bound⟩ := agrees.exact name e computed
      exact ⟨Decimal.print n, n, bound, Template.denotes_print small, value⟩
    rcases rest with rfl | ⟨instruction, rest, rfl, ends, ended, vars, refuses⟩
    · have last : p.2.vars = u.vars := congrArg (fun p => p.2.vars) through
      refine ⟨_, known, u, List.prefix_rfl, fun _ => rfl, through, fun next more => ?_, reckoned,
        held _ last⟩
      exact absurd more.length_le (by simp)
    · rw [show p = _ from ends]
      refine ⟨done, known, u, List.prefix_append .., fun goes => absurd goes ended, through,
        fun next more => ?_, reckoned, held _ vars⟩
      obtain ⟨_, split⟩ := more
      rw [List.append_assoc, List.append_cancel_left_eq] at split
      cases split
      exact ⟨rfl, ended, refuses⟩

end ContractHost.Script
