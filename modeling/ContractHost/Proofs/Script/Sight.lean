/-
# What a program sees of its variables

A program looks at a variable only where one of its templates refers to it, and to which variables
its templates refer is written in the program. What a template is filled in with is not looked
through for references. So whatever the arguments of a call hold, the program sees no others than
those that it names: from variables that agree on these it goes on in the same way, and asks the
same of its host.
-/

import ContractHost.Proofs.Script.Moves
import ContractHost.Proofs.Script.Template
import ContractHost.Proofs.Table

namespace ContractHost.Script

namespace Op

mutual

/-- The templates in an operation, those inside its cases included. -/
def templates : Op → List String
  | single instruction => instruction.templates
  | branch selector cases otherwise =>
    selector :: (templatesOfCases cases ++ templatesOfAll otherwise)

/-- The templates in a list of operations. -/
def templatesOfAll : List Op → List String
  | [] => []
  | op :: rest => op.templates ++ templatesOfAll rest

/-- The templates in the cases of a branch. -/
def templatesOfCases : List (String × List Op) → List String
  | [] => []
  | (_, ops) :: rest => templatesOfAll ops ++ templatesOfCases rest

end

end Op

/-- A template refers to no variables but those of some names. -/
def Template.KeepsTo (names : String → Prop) (template : String) : Prop :=
  ∀ name, Refers template name → names name

/-! ## Tasks with other variables -/

/-- A task that differs from another in nothing but variables, and not in those of some names. -/
structure Task.Resembles (names : String → Prop) (t u : Task) : Prop where
  machine : u.machine = t.machine
  host : u.host = t.host
  vars : ∀ name, names name → u.vars.get? name = t.vars.get? name

/-- A template is filled in from the variables that it refers to. -/
theorem Task.Resembles.expand {names : String → Prop} {t u : Task} {template : String}
    (resembles : t.Resembles names u) (keeps : Template.KeepsTo names template) :
    Template.expand u.vars template = Template.expand t.vars template :=
  Template.expand_congr fun name refers => resembles.vars name (keeps name refers)

namespace Run

variable {names : String → Prop} {Does : Instruction → Prop} {handler : SyscallHandler Module}
  {α β : Type}

/-- Of the variables a run sees only those of some names: from tasks that do not differ in them it
comes to the same result, and to tasks that do not differ in them either. -/
def SeesOnly (names : String → Prop) (a : Run α) : Prop :=
  ∀ t u, t.Resembles names u →
    (runFrom a u).1 = (runFrom a t).1 ∧ (runFrom a t).2.Resembles names (runFrom a u).2

namespace SeesOnly

/-- What does the same with all variables, and leaves them as they are, sees none of them. -/
theorem of_aloof {a : Run α}
    (aloof : ∀ t vars, runFrom a { t with vars } = ((runFrom a t).1, { (runFrom a t).2 with vars })) :
    SeesOnly names a := by
  rintro t ⟨_, vars, _⟩ ⟨rfl, rfl, agree⟩
  have kept : (runFrom a t).2.vars = t.vars := congrArg (·.2.vars) (aloof t t.vars)
  rw [aloof t vars]
  exact ⟨rfl, rfl, rfl, kept ▸ agree⟩

theorem bind {a : Run α} {f : α → Run β} (head : SeesOnly names a)
    (rest : ∀ x, SeesOnly names (f x)) : SeesOnly names (a >>= f) := by
  intro t u resembles
  obtain ⟨same, after⟩ := head t u resembles
  rw [runFrom_bind, runFrom_bind]
  revert same after
  rcases runFrom a t with ⟨result, t'⟩
  rcases runFrom a u with ⟨result', u'⟩
  intro same after
  obtain rfl : result' = result := same
  cases result' with
  | error e => exact ⟨rfl, after⟩
  | ok x => exact rest x t' u' after

theorem expand {template : String} (keeps : Template.KeepsTo names template) :
    SeesOnly names (expand template) := by
  intro t u resembles
  rw [runFrom_expand, runFrom_expand, resembles.expand keeps]
  exact ⟨rfl, resembles⟩

theorem expandNumber {template : String} (keeps : Template.KeepsTo names template) :
    SeesOnly names (expandNumber template) := by
  intro t u resembles
  rw [runFrom_expandNumber, runFrom_expandNumber, Template.expandNumber, Template.expandNumber,
    resembles.expand keeps]
  exact ⟨rfl, resembles⟩

theorem assign (name value : String) : SeesOnly names (assign name value) := by
  intro t u resembles
  refine ⟨rfl, resembles.machine, resembles.host, fun other named => ?_⟩
  show (u.vars.insert name value).get? other = (t.vars.insert name value).get? other
  by_cases same : other = name
  · rw [same, Table.get?_insert_self, Table.get?_insert_self]
  · rw [Table.get?_insert_of_ne _ same, Table.get?_insert_of_ne _ same, resembles.vars other named]

theorem checkSignal : SeesOnly names checkSignal :=
  of_aloof fun t vars => by rw [runFrom_checkSignal, runFrom_checkSignal]; rfl

theorem charge (gas : UInt64) : SeesOnly names (charge gas) :=
  of_aloof fun t vars => by rw [runFrom_charge, runFrom_charge]; rfl

theorem writeLine (line : String) : SeesOnly names (writeLine line) := by
  refine of_aloof ?_
  rintro ⟨⟨module, gasLimit, gasUsed, memory, language, context, writer, signal⟩, _, host⟩ vars
  cases writer <;> rfl

theorem syscall (request : SyscallRequest) : SeesOnly names (syscall handler request) := by
  refine of_aloof fun t vars => ?_
  rw [runFrom_syscall, runFrom_syscall]
  dsimp only
  cases t.machine.context with
  | none => rfl
  | some id =>
      dsimp only
      cases t.machine.module.binding? request.kind with
      | none => rfl
      | some bound =>
          dsimp only
          split <;> rfl

theorem start (op : Op) : SeesOnly names (start op) := by
  refine of_aloof fun t vars => ?_
  have asked : ({ t with vars } : Task).asked? = t.asked? := rfl
  rw [runFrom_start, runFrom_start, asked]
  cases t.asked? with
  | some trap => rfl
  | none =>
      have over_iff : (({ t with vars } : Task).charged operationPrice).Over ↔
          (t.charged operationPrice).Over := Iff.rfl
      dsimp only
      simp only [over_iff]
      split <;> rfl

theorem afterRead (answer : Except EngineError SyscallResponse) (fallback : Option String)
    (keeps : ∀ template, fallback = some template → Template.KeepsTo names template) :
    SeesOnly names (afterRead answer fallback) := by
  unfold Run.afterRead
  split
  · exact of_aloof fun _ _ => rfl
  · exact of_aloof fun _ _ => rfl
  · exact expand (keeps _ rfl)
  · exact of_aloof fun _ _ => rfl

/-- Instructions see only the variables to which their templates refer. A variable that is set
holds the same in both tasks from then on, whether it is seen or not. -/
theorem steps (keep : ∀ template, Filled Does template → Template.KeepsTo names template) :
    Steps Does handler handler fun a _ => SeesOnly names a where
  pure _ := of_aloof fun _ _ => rfl
  bind := bind
  trap _ _ := of_aloof fun _ _ => rfl
  expand template filled := expand (keep template filled)
  expandNumber template filled := expandNumber (keep template filled)
  assign := assign
  checkSignal _ _ := checkSignal
  burn gas _ := charge gas
  grow _ := of_aloof fun _ _ => rfl
  writeLine := writeLine
  syscall request _ := syscall request
  readObject key fallback _ filled t u resembles := by
    -- The fallback is filled in only after the host has answered, and may have been changed by it.
    rw [runFrom_readObject, runFrom_readObject]
    obtain ⟨same, after⟩ := syscall (.getObject key) t u resembles
    dsimp only
    rw [same]
    exact afterRead _ fallback (fun template given => keep template (filled template given))
      _ _ after

section Programs

variable (handler : SyscallHandler Module)

theorem perform (instruction : Instruction)
    (keep : ∀ template ∈ instruction.templates, Template.KeepsTo names template) :
    SeesOnly names (perform handler instruction) := by
  have filled : ∀ template, Filled (· = instruction) template → Template.KeepsTo names template := by
    rintro template ⟨_, rfl, mem⟩
    exact keep template mem
  exact (steps filled).perform instruction rfl

mutual

/-- Operations see only the variables to which their templates refer, one after another. -/
theorem operations : (ops : List Op) →
    (∀ template ∈ Op.templatesOfAll ops, Template.KeepsTo names template) →
    SeesOnly names (operations handler ops)
  | [], _ => by
      unfold Run.operations
      exact of_aloof fun _ _ => rfl
  | op :: rest, keep => by
      rw [Op.templatesOfAll, List.forall_mem_append] at keep
      rw [operations_cons]
      refine (start op).bind fun _ => (operation op keep.1).bind fun flow => ?_
      cases flow with
      | stop => exact of_aloof fun _ _ => rfl
      | next => exact operations rest keep.2

theorem operation : (op : Op) →
    (∀ template ∈ op.templates, Template.KeepsTo names template) →
    SeesOnly names (operation handler op)
  | .single instruction, keep => by
      unfold Run.operation
      exact perform handler instruction keep
  | .branch selector cases otherwise, keep => by
      unfold Run.operation
      rw [Op.templates, List.forall_mem_cons, List.forall_mem_append] at keep
      obtain ⟨own, inCases, inOtherwise⟩ := keep
      exact (expand own).bind fun selected =>
        oneOf selected (operations otherwise inOtherwise) cases inCases

/-- Which case is selected was seen already, so both runs go into the same one. -/
theorem oneOf (selected : String) {otherwise : Run Flow} (rest : SeesOnly names otherwise) :
    (cases : List (String × List Op)) →
    (∀ template ∈ Op.templatesOfCases cases, Template.KeepsTo names template) →
    SeesOnly names (oneOf handler selected cases otherwise)
  | [], _ => by
      unfold Run.oneOf
      exact rest
  | (label, ops) :: more, keep => by
      rw [Op.templatesOfCases, List.forall_mem_append] at keep
      unfold Run.oneOf
      split
      · exact operations ops keep.1
      · exact oneOf selected rest more keep.2

end

end Programs

end SeesOnly

end Run

/-! ## What a call tells a program -/

/-- The variables that a program gets from a call, in the order in which they are set. -/
def variablesOf (call : CallArgs) : List (String × String) :=
  ("method", call.method) :: ("caller", call.caller) ::
    call.args.map fun pair => ("arg." ++ pair.key, Utf8.lossy pair.value)

/-- The task with variables set one after another. -/
def Task.assignedAll (entries : List (String × String)) (task : Task) : Task :=
  { task with vars := entries.foldl (fun vars e => vars.insert e.1 e.2) task.vars }

theorem Run.runFrom_learn (call : CallArgs) (t : Task) :
    runFrom (Run.learn call) t = (.ok (), t.assignedAll (variablesOf call)) := by
  have loop (args : List ArgPair) (t : Task) :
      runFrom (forIn args PUnit.unit fun pair _ => do
        Run.assign ("arg." ++ pair.key) (Utf8.lossy pair.value)
        return ForInStep.yield PUnit.unit : Run PUnit) t =
      (.ok ⟨⟩, t.assignedAll (args.map fun pair => ("arg." ++ pair.key, Utf8.lossy pair.value))) := by
    induction args generalizing t with
    | nil => rfl
    | cons pair rest ih =>
        rw [List.forIn_cons]
        exact ih (t.assigned ("arg." ++ pair.key) (Utf8.lossy pair.value))
  unfold Run.learn
  rw [runFrom_bind, Run.assign, runFrom_modify]
  dsimp only
  rw [runFrom_bind, Run.assign, runFrom_modify]
  dsimp only
  rw [runFrom_bind, loop]
  rfl

/-- Tasks in which different variables are set differ in nothing but what was set differently. -/
theorem Task.resembles_assignedAll (first second : List (String × String)) (t : Task) :
    (t.assignedAll first).Resembles (fun name => lastValue? name second = lastValue? name first)
      (t.assignedAll second) where
  machine := rfl
  host := rfl
  vars name same := by
    rw [Task.assignedAll, Task.assignedAll, Table.get?_foldl_insert, Table.get?_foldl_insert, same]

/-- Templates are filled in once, part by part, and what variables hold is never read as a part.

A text in which no reference begins stands for itself, and a reference alone stands for what its
variable holds. A variable that holds nothing and a reference that is not closed are invalid
arguments. Where no reference begins with the end of one template and goes on in another, the two
are filled in one after the other, and together they fail just as the second one does.

The parts of a template are the same for all variables: characters, which are copied, and
references, to whose places values are copied, and which fail for want of a value only. A template
that ends inside of a reference fails for all variables.

So a program that has learnt of its call goes on in the same way whatever the call holds in
variables to which none of its templates refers. The values of others do not bring them in. -/
theorem expansion_is_single_pass :
    (∀ vars text, ¬ ['$', '\x7b'] <:+: text.toList → Template.expand vars text = .ok text) ∧
    (∀ (vars : Variables) (name : String), '\x7d' ∉ name.toList →
      Template.expand vars ("$\x7b" ++ name ++ "\x7d") =
        (match vars.get? name with
        | some value => .ok value
        | none => .error .invalidArgument) ∧
      Template.expand vars ("$\x7b" ++ name) = .error .invalidArgument) ∧
    (∀ vars first second text, Template.expand vars first = .ok text →
      ¬ (['$'] <:+ first.toList ∧ ['\x7b'] <+: second.toList) →
      Template.expand vars (first ++ second) = (Template.expand vars second).map (text ++ ·)) ∧
    (∀ template : String,
      (∃ parts, Template.Proper parts ∧ Template.written parts = template.toList ∧ ∀ vars,
        (Template.Bound vars parts → Template.expand vars template =
          .ok (String.ofList (parts.flatMap (Template.Part.shown vars)))) ∧
        (¬ Template.Bound vars parts → Template.expand vars template = .error .invalidArgument)) ∨
      ∃ parts name, Template.Proper parts ∧ '\x7d' ∉ name ∧
        Template.written parts ++ Template.opened name = template.toList ∧
        ∀ vars, Template.expand vars template = .error .invalidArgument) ∧
    ∀ (handler : SyscallHandler Module) (ops : List Op) (task : Task) (call call' : CallArgs),
      (∀ template ∈ Op.templatesOfAll ops, ∀ name, Template.Refers template name →
        lastValue? name (variablesOf call') = lastValue? name (variablesOf call)) →
      let run (call : CallArgs) :=
        runFrom (Run.learn call >>= fun _ => Run.operations handler ops) task
      (run call').1 = (run call).1 ∧ (run call').2.machine = (run call).2.machine ∧
        (run call').2.host = (run call).2.host := by
  refine ⟨fun vars text => Template.expand_of_plain, fun vars name free => ⟨?_, ?_⟩,
    fun vars first second text => Template.expand_append, fun template => ?_, ?_⟩
  · exact Template.expand_reference_alone free
  · have written : Template.written [] ++ Template.opened name.toList =
        ("$\x7b" ++ name).toList := by
      simp [Template.written, Template.opened]
    exact Template.expand_of_unclosed .nil free written
  · obtain ⟨parts, tail, proper, written, rfl | ⟨name, free, rfl⟩⟩ :=
      Template.exists_parts template.toList
    · rw [List.append_nil] at written
      exact .inl ⟨parts, proper, written, fun vars =>
        ⟨Template.expand_of_bound proper written, Template.expand_of_not_bound proper written⟩⟩
    · exact .inr ⟨parts, name, proper, free, written, fun vars =>
        Template.expand_of_unclosed proper free written⟩
  · intro handler ops task call call' agree run
    have runs (call : CallArgs) : run call =
        runFrom (Run.operations handler ops) (task.assignedAll (variablesOf call)) := by
      dsimp only [run]
      rw [runFrom_bind, Run.runFrom_learn]
    obtain ⟨same, after⟩ := Run.SeesOnly.operations handler ops agree _ _
      (Task.resembles_assignedAll (variablesOf call) (variablesOf call') task)
    rw [runs, runs]
    exact ⟨same, after.machine, after.host⟩

/-- What is told of a call that leaves a dollar sign for a note. -/
def noteCall (caller : String) : CallArgs where
  method := "leave"
  args := [⟨"note", Utf8.encode "$"⟩]
  caller

/-- A task of a contract that may put objects. -/
def deskTask : Task where
  machine := {
    module := {
      program := { memory := some 1, imports := [], exports := .empty }
      bindings := [(.putObject, .putObject)] }
    gasLimit := 1000
    memory := some 1
    context := some ⟨1⟩ }
  host := {
    contexts := Contexts.create {}
      { contract := "desk", method := "leave", args := .empty, language := "", caller := "",
        depth := 0 } }

/-- A note that is a dollar sign makes no reference of the braces that come after it, so the desk
does the same whoever leaves the note. -/
theorem note_makes_no_reference :
    let front := "$\x7barg.note\x7d"
    let back := "\x7bcaller\x7d"
    let vars : Variables := .ofList (variablesOf (noteCall "alice"))
    let ops : List Op := [.single (.put (front ++ back) "seen")]
    let run (call : CallArgs) :=
      runFrom (Run.learn call >>= fun _ => Run.operations (Syscall.serve none) ops) deskTask
    ¬ ['$', '\x7b'] <:+: back.toList ∧ Template.expand vars front = .ok "$" ∧
      ¬ (['$'] <:+ front.toList ∧ ['\x7b'] <+: back.toList) ∧
      Template.expand vars (front ++ back) = .ok "$\x7bcaller\x7d" ∧
      (∀ template ∈ Op.templatesOfAll ops, ∀ name, Template.Refers template name →
        lastValue? name (variablesOf (noteCall "mallory")) =
          lastValue? name (variablesOf (noteCall "alice"))) ∧
      (run (noteCall "alice")).1 = .ok .next ∧
      (run (noteCall "mallory")).2.host = (run (noteCall "alice")).2.host := by
  intro front back vars ops run
  obtain ⟨plain, -, joined, -, blind⟩ := expansion_is_single_pass
  have text : ¬ ['$', '\x7b'] <:+: back.toList := by decide +kernel
  have dollar : Template.expand vars front = .ok "$" := by decide +kernel
  have apart : ¬ (['$'] <:+ front.toList ∧ ['\x7b'] <+: back.toList) := by decide +kernel
  have whole : Template.expand vars (front ++ back) = .ok "$\x7bcaller\x7d" := by
    rw [joined vars front back "$" dollar apart, plain vars back text]
    rfl
  have agree : ∀ template ∈ Op.templatesOfAll ops, ∀ name, Template.Refers template name →
      lastValue? name (variablesOf (noteCall "mallory")) =
        lastValue? name (variablesOf (noteCall "alice")) := by
    rintro template mem name ⟨parts, proper, written, inside⟩
    have reads := Template.parts?_eq_some_iff.2 ⟨proper, written⟩
    have either : template = front ++ back ∨ template = "seen" := by
      simpa [ops, Op.templatesOfAll, Op.templates, Instruction.templates] using mem
    rcases either with rfl | rfl
    · have known : Template.parts? none (front ++ back).toList =
          some (.reference "arg.note".toList :: back.toList.map .literal) := by decide +kernel
      cases reads.symm.trans known
      have same : name = "arg.note" := String.toList_inj.1 (by simpa using inside)
      rw [same]
      decide +kernel
    · have known : Template.parts? none "seen".toList = some ("seen".toList.map .literal) := by
        decide +kernel
      cases reads.symm.trans known
      simp at inside
  refine ⟨text, dollar, apart, whole, agree, ?_, ?_⟩
  · decide +kernel
  · exact (blind (Syscall.serve none) ops deskTask (noteCall "alice") (noteCall "mallory") agree).2.2

end ContractHost.Script
