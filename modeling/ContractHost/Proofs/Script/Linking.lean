/-
# Nothing is missing when a script runs

A script is linked once, before it runs, and then every service that its operations ask for
has to be bound, in whatever branch they stand. The list of these services is made by looking
at the operations and not by running them. So it has to be shown that it is neither too long
nor too short: a script is linked just when all that it names resolves, and no machine of a
linked script ever looks for a binding that is not there.

The second is a statement about two runs. Bindings that are put behind those of a module are
looked at only where the module has none, and no run can tell whether they are there.
-/

import ContractHost.Proofs.Script.Moves

namespace ContractHost

namespace Resolver

/-- The name of a service resolves to this service. -/
theorem syscalls_name (kind : SyscallKind) :
    syscalls.function syscallModule kind.name = some (.syscall kind) := by
  cases kind <;> rfl

/-- A resolver has its services from the resolver of the host's services. -/
def HasSyscalls (resolver : Resolver) : Prop :=
  ∀ kind bound : SyscallKind, resolver.function syscallModule kind.name = some (.syscall bound) →
    syscalls.function syscallModule kind.name = some (.syscall bound)

/-- The support functions of Go stand in another module, so contracts are linked against the
services themselves. -/
theorem hasSyscalls_standard : standard.HasSyscalls := by
  intro kind bound resolved
  have before : goRuntime.function syscallModule kind.name = none := rfl
  simpa [standard, chain, before] using resolved

end Resolver

namespace Script

/-! ## What a program asks for -/

namespace Op

/-- An instruction stands somewhere in operations. -/
def Occurs (ops : List Op) (instruction : Instruction) : Prop :=
  ∃ op ∈ ops, op.Contains instruction

theorem within_occurs (ops : List Op) : Within (Occurs ops) ops :=
  fun op mem _ contains => ⟨op, mem, contains⟩

variable {kind : SyscallKind} {instruction : Instruction}

theorem mem_syscallsOfAll {ops : List Op} :
    kind ∈ syscallsOfAll ops ↔ ∃ op ∈ ops, kind ∈ op.syscalls := by
  induction ops with
  | nil => simp [syscallsOfAll]
  | cons op rest ih => simp [syscallsOfAll, ih]

theorem mem_syscallsOfCases {cases : List (String × List Op)} :
    kind ∈ syscallsOfCases cases ↔ ∃ labelled ∈ cases, kind ∈ syscallsOfAll labelled.2 := by
  induction cases with
  | nil => simp [syscallsOfCases]
  | cons first rest ih => simp [syscallsOfCases, ih]

/-- What an instruction asks for is listed, at whatever depth it stands. -/
theorem mem_syscalls_of_contains {op : Op} (contains : op.Contains instruction)
    (asks : instruction.syscall? = some kind) : kind ∈ op.syscalls := by
  induction contains with
  | single => simp [syscalls, asks]
  | case mem inside _ ih =>
      rw [syscalls, List.mem_append, mem_syscallsOfCases]
      exact .inl ⟨_, mem, mem_syscallsOfAll.2 ⟨_, inside, ih⟩⟩
  | otherwise inside _ ih =>
      rw [syscalls, List.mem_append]
      exact .inr (mem_syscallsOfAll.2 ⟨_, inside, ih⟩)

mutual

/-- Nothing is listed but what some instruction asks for. -/
theorem asks_of_mem_syscalls : (op : Op) → kind ∈ op.syscalls →
    ∃ instruction, op.Contains instruction ∧ instruction.syscall? = some kind
  | .single instruction, mem => ⟨instruction, .single, by simpa [syscalls] using mem⟩
  | .branch selector cases otherwise, mem => by
      rw [syscalls, List.mem_append] at mem
      rcases mem with mem | mem
      · obtain ⟨label, ops, here, instruction, ⟨op, inside, contains⟩, asks⟩ :=
          asks_of_mem_syscallsOfCases cases mem
        exact ⟨instruction, .case here inside contains, asks⟩
      · obtain ⟨instruction, ⟨op, inside, contains⟩, asks⟩ :=
          asks_of_mem_syscallsOfAll otherwise mem
        exact ⟨instruction, .otherwise inside contains, asks⟩

theorem asks_of_mem_syscallsOfAll : (ops : List Op) → kind ∈ syscallsOfAll ops →
    Run.Asked (Occurs ops) kind
  | [], mem => by simp [syscallsOfAll] at mem
  | op :: rest, mem => by
      rw [syscallsOfAll, List.mem_append] at mem
      rcases mem with mem | mem
      · obtain ⟨instruction, contains, asks⟩ := asks_of_mem_syscalls op mem
        exact ⟨instruction, ⟨op, List.mem_cons_self, contains⟩, asks⟩
      · obtain ⟨instruction, ⟨op, inside, contains⟩, asks⟩ := asks_of_mem_syscallsOfAll rest mem
        exact ⟨instruction, ⟨op, List.mem_cons_of_mem _ inside, contains⟩, asks⟩

theorem asks_of_mem_syscallsOfCases : (cases : List (String × List Op)) →
    kind ∈ syscallsOfCases cases →
    ∃ label ops, (label, ops) ∈ cases ∧ Run.Asked (Occurs ops) kind
  | [], mem => by simp [syscallsOfCases] at mem
  | (label, ops) :: rest, mem => by
      rw [syscallsOfCases, List.mem_append] at mem
      rcases mem with mem | mem
      · exact ⟨label, ops, List.mem_cons_self, asks_of_mem_syscallsOfAll ops mem⟩
      · obtain ⟨label, ops, here, asked⟩ := asks_of_mem_syscallsOfCases rest mem
        exact ⟨label, ops, List.mem_cons_of_mem _ here, asked⟩

end

end Op

/-- Some operation of a function that the program exports asks for a service. -/
def Program.Asks (program : Program) (kind : SyscallKind) : Prop :=
  ∃ entry ops, (entry, ops) ∈ program.exports.entries ∧ Run.Asked (Op.Occurs ops) kind

/-- The services that are listed for a program are those that its operations ask for. -/
theorem Program.mem_syscalls {program : Program} {kind : SyscallKind} :
    kind ∈ program.syscalls ↔ program.Asks kind := by
  unfold syscalls Asks
  rw [List.mem_flatMap]
  constructor
  · rintro ⟨⟨entry, ops⟩, mem, listed⟩
    exact ⟨entry, ops, mem, Op.asks_of_mem_syscallsOfAll ops listed⟩
  · rintro ⟨entry, ops, mem, instruction, ⟨op, inside, contains⟩, asks⟩
    exact ⟨(entry, ops), mem,
      Op.mem_syscallsOfAll.2 ⟨op, inside, Op.mem_syscalls_of_contains contains asks⟩⟩

/-! ## Linking a program -/

/-- All that a program names resolves: every import that it lists to anything, and every service
that it asks for to a service. -/
structure Program.Resolves (program : Program) (resolver : Resolver) : Prop where
  imports : ∀ listed ∈ program.imports, (resolver.function listed.1 listed.2).isSome
  services : ∀ kind, program.Asks kind →
    ∃ bound, resolver.function Resolver.syscallModule kind.name = some (.syscall bound)

namespace Module

variable {resolver : Resolver}

theorem link_eq_ok {module name : String} {function : HostFunction} :
    link resolver module name = .ok function ↔ resolver.function module name = some function := by
  unfold link
  cases resolver.function module name <;> simp

theorem bindSyscall_eq_ok {kind : SyscallKind} {binding : SyscallKind × SyscallKind} :
    bindSyscall resolver kind = .ok binding ↔ binding.1 = kind ∧
      resolver.function Resolver.syscallModule kind.name = some (.syscall binding.2) := by
  unfold bindSyscall
  rw [except_bind_eq_ok]
  simp only [link_eq_ok]
  constructor
  · rintro ⟨function, resolved, bound⟩
    cases function with
    | syscall own =>
        cases bound
        exact ⟨rfl, resolved⟩
    | runtime => cases bound
  · rintro ⟨rfl, resolved⟩
    exact ⟨_, resolved, rfl⟩

/-- Imports are resolved in turn. -/
theorem linkAll_eq_ok {imports : List (String × String)} :
    (forIn imports PUnit.unit fun (module, name) _ => do
      let _ ← link resolver module name
      pure (ForInStep.yield PUnit.unit)) = .ok PUnit.unit ↔
      ∀ listed ∈ imports, (resolver.function listed.1 listed.2).isSome := by
  induction imports with
  | nil => simp [pure, Except.pure]
  | cons first rest ih =>
      rw [List.forIn_cons, List.forall_mem_cons, ← ih]
      cases resolved : resolver.function first.1 first.2 with
      | none => simp [link, resolved, bind, Except.bind]
      | some function => simp [link, resolved, bind, Except.bind, pure, Except.pure]

/-- Services are bound in turn, each to what its name resolves to. -/
theorem bindAll_eq_ok {kinds : List SyscallKind} {bindings : List (SyscallKind × SyscallKind)} :
    kinds.mapM (bindSyscall resolver) = .ok bindings ↔ bindings.map (·.1) = kinds ∧
      ∀ binding ∈ bindings, resolver.function Resolver.syscallModule binding.1.name =
        some (.syscall binding.2) := by
  induction kinds generalizing bindings with
  | nil =>
      rw [List.map_eq_nil_iff]
      constructor
      · rintro ⟨⟩
        exact ⟨rfl, nofun⟩
      · rintro ⟨rfl, _⟩
        rfl
  | cons kind rest ih =>
      rw [List.mapM_cons, except_bind_eq_ok]
      simp only [except_bind_eq_ok, ih, bindSyscall_eq_ok]
      constructor
      · rintro ⟨binding, ⟨rfl, resolved⟩, others, ⟨rfl, more⟩, same⟩
        cases same
        exact ⟨rfl, List.forall_mem_cons.2 ⟨resolved, more⟩⟩
      · rintro ⟨kinds, resolved⟩
        cases bindings with
        | nil => cases kinds
        | cons binding others =>
            rw [List.map_cons, List.cons.injEq] at kinds
            rw [List.forall_mem_cons] at resolved
            obtain ⟨rfl, kinds⟩ := kinds
            exact ⟨binding, ⟨rfl, resolved.1⟩, others, ⟨kinds, resolved.2⟩, rfl⟩

/-- Services can be bound if the name of each resolves to one. -/
theorem exists_bindings {kinds : List SyscallKind} (services : ∀ kind ∈ kinds,
      ∃ bound, resolver.function Resolver.syscallModule kind.name = some (.syscall bound)) :
    ∃ bindings, kinds.mapM (bindSyscall resolver) = .ok bindings := by
  simp only [bindAll_eq_ok]
  induction kinds with
  | nil => exact ⟨[], rfl, nofun⟩
  | cons kind rest ih =>
      obtain ⟨⟨bound, resolved⟩, services⟩ := List.forall_mem_cons.1 services
      obtain ⟨bindings, kinds, more⟩ := ih services
      exact ⟨(kind, bound) :: bindings, by rw [List.map_cons, kinds],
        List.forall_mem_cons.2 ⟨resolved, more⟩⟩

theorem ofProgram_eq_ok {program : Program} {module : Module} :
    ofProgram resolver program = .ok module ↔
      (∀ listed ∈ program.imports, (resolver.function listed.1 listed.2).isSome) ∧
        module.program = program ∧
        program.syscalls.mapM (bindSyscall resolver) = .ok module.bindings := by
  unfold ofProgram
  rw [except_bind_eq_ok]
  simp only [except_bind_eq_ok]
  constructor
  · rintro ⟨⟨⟩, linked, bindings, bound, same⟩
    cases same
    exact ⟨linkAll_eq_ok.1 linked, rfl, bound⟩
  · rintro ⟨linked, rfl, bound⟩
    exact ⟨⟨⟩, linkAll_eq_ok.2 linked, module.bindings, bound, rfl⟩

/-- A program is linked just when all that it names resolves. -/
theorem exists_ofProgram {program : Program} :
    (∃ module, ofProgram resolver program = .ok module) ↔ program.Resolves resolver := by
  simp only [ofProgram_eq_ok]
  constructor
  · rintro ⟨module, imports, -, bound⟩
    refine ⟨imports, fun kind asks => ?_⟩
    obtain ⟨kinds, resolved⟩ := bindAll_eq_ok.1 bound
    rw [← Program.mem_syscalls, ← kinds, List.mem_map] at asks
    obtain ⟨binding, mem, rfl⟩ := asks
    exact ⟨binding.2, resolved binding mem⟩
  · rintro ⟨imports, services⟩
    obtain ⟨bindings, bound⟩ := exists_bindings fun kind listed =>
      services kind (Program.mem_syscalls.1 listed)
    exact ⟨⟨program, bindings⟩, imports, rfl, bound⟩

/-- What is known of a module that was linked. -/
structure Linked (resolver : Resolver) (module : Module) : Prop where
  binds : ∀ kind, module.program.Asks kind → (module.binding? kind).isSome
  resolved : ∀ kind bound, module.binding? kind = some bound →
    resolver.function Resolver.syscallModule kind.name = some (.syscall bound)

theorem linked_ofProgram {program : Program} {module : Module}
    (linked : ofProgram resolver program = .ok module) : module.Linked resolver := by
  obtain ⟨-, rfl, bound⟩ := ofProgram_eq_ok.1 linked
  obtain ⟨kinds, resolved⟩ := bindAll_eq_ok.1 bound
  constructor
  · intro kind asks
    rw [← Program.mem_syscalls, ← kinds, List.mem_map] at asks
    obtain ⟨binding, mem, rfl⟩ := asks
    exact List.lookup_isSome_iff.2 ⟨binding, mem, beq_self_eq_true _⟩
  · intro kind bound found
    obtain ⟨before, after, split, -⟩ := List.lookup_eq_some_iff.1 found
    exact resolved (kind, bound) (split ▸ List.mem_append_right _ List.mem_cons_self)

end Module

/-! ## Running what was linked -/

/-- The module with more bindings behind its own, which are looked at for services that it does
not bind itself. -/
def Module.backed (extra : List (SyscallKind × SyscallKind)) (module : Module) : Module :=
  { module with bindings := module.bindings ++ extra }

/-- The machine with more bindings behind those of its module. -/
def Machine.backed (extra : List (SyscallKind × SyscallKind)) (machine : Machine) : Machine :=
  { machine with module := machine.module.backed extra }

/-- The task with more bindings behind those of its module. -/
def Task.backed (extra : List (SyscallKind × SyscallKind)) (task : Task) : Task :=
  { task with machine := task.machine.backed extra }

/-- Every service that a module binds is bound to itself. -/
def Module.BindsEachToItself (module : Module) : Prop :=
  ∀ kind bound, module.binding? kind = some bound → bound = kind

/-- The traps that a run would come to if a service had no binding or that of another one. The
second is excluded only where each service is bound to itself. -/
def Module.Excludes (module : Module) : Trap → Prop
  | .symbolNotFound .. => True
  | .signatureMismatch .. => module.BindsEachToItself
  | _ => False

theorem Module.binding?_backed {module : Module} {kind bound : SyscallKind}
    (found : module.binding? kind = some bound) (extra : List (SyscallKind × SyscallKind)) :
    (module.backed extra).binding? kind = some bound := by
  show (module.bindings ++ extra).lookup kind = some bound
  rw [List.lookup_append, show module.bindings.lookup kind = some bound from found]
  rfl

namespace Run

/-- How a run ends beside one with more bindings: both do the same, and the first one comes to no
trap of a binding but those that an instruction names. -/
structure Unmissed (Does : Instruction → Prop) (module : Module)
    (extra : List (SyscallKind × SyscallKind)) {α : Type} (p q : Except EngineError α × Task) :
    Prop where
  of : p.2.machine.module = module
  alike : q = (p.1, p.2.backed extra)
  traps : ∀ trap, p.1 = .error (.trap trap) → module.Excludes trap → Does (.trap trap)

/-- A run that misses no binding of a module. -/
def MissesNone (Does : Instruction → Prop) (module : Module)
    (extra : List (SyscallKind × SyscallKind)) {α : Type} (a b : Run α) : Prop :=
  ∀ t : Task, t.machine.module = module →
    Unmissed Does module extra (runFrom a t) (runFrom b (t.backed extra))

namespace MissesNone

variable {Does : Instruction → Prop} {module : Module} {extra : List (SyscallKind × SyscallKind)}
  {α β : Type}

/-- A run that leaves its task alone and does not go by its module. -/
theorem of_still {a : Run α} (result : Task → Except EngineError α)
    (ran : ∀ t, runFrom a t = (result t, t))
    (blind : ∀ t : Task, result (t.backed extra) = result t)
    (traps : ∀ t trap, result t = .error (.trap trap) →
      module.Excludes trap → Does (.trap trap)) :
    MissesNone Does module extra a a := by
  intro t of
  rw [ran, ran, blind]
  exact ⟨of, rfl, traps t⟩

/-- A change of the task that does not go by its module. -/
theorem of_modify {f : Task → Task} (kept : ∀ t, (f t).machine.module = t.machine.module)
    (blind : ∀ t : Task, f (t.backed extra) = (f t).backed extra) :
    MissesNone Does module extra (modify f) (modify f) := by
  intro t of
  rw [runFrom_modify, runFrom_modify, blind]
  exact ⟨(kept t).trans of, rfl, nofun⟩

theorem pure (x : α) : MissesNone Does module extra (Pure.pure x) (Pure.pure x) :=
  of_still (fun _ => .ok x) (fun _ => rfl) (fun _ => rfl) fun _ _ => nofun

theorem throw {e : EngineError} (traps : ∀ trap, e = .trap trap → module.Excludes trap →
    Does (.trap trap)) : MissesNone Does module extra (α := α) (MonadExcept.throw e)
      (MonadExcept.throw e) := by
  apply of_still (fun _ => .error e) (fun _ => rfl) (fun _ => rfl)
  rintro _ trap ⟨⟩
  exact traps trap rfl

theorem bind {a b : Run α} {f g : α → Run β} (head : MissesNone Does module extra a b)
    (rest : ∀ x, MissesNone Does module extra (f x) (g x)) :
    MissesNone Does module extra (a >>= f) (b >>= g) := by
  intro t of
  have first := head t of
  rw [runFrom_bind, runFrom_bind]
  revert first
  rcases runFrom a t with ⟨e | x, u⟩
  · rintro ⟨of, alike, traps⟩
    rw [alike]
    refine ⟨of, rfl, ?_⟩
    rintro trap ⟨⟩
    exact traps trap rfl
  · rintro ⟨of, alike, -⟩
    rw [alike]
    exact rest x u of

/-- What a template fails with is no trap of a binding. -/
theorem of_template (fill : Task → Except Trap α) {a : Run α}
    (ran : ∀ t, runFrom a t = ((fill t).mapError .trap, t))
    (blind : ∀ t : Task, fill (t.backed extra) = fill t)
    (own : ∀ t trap, fill t = .error trap → ¬ module.Excludes trap) :
    MissesNone Does module extra a a := by
  apply of_still _ ran fun t => by rw [blind]
  intro t trap
  cases filled : fill t with
  | ok x => exact nofun
  | error fault =>
      rintro ⟨⟩ excluded
      exact absurd excluded (own t _ filled)

theorem expand (template : String) :
    MissesNone Does module extra (Run.expand template) (Run.expand template) := by
  apply of_template _ (runFrom_expand · template) fun _ => rfl
  intro t trap failed
  unfold Template.expand at failed
  split at failed
  · cases failed
  · cases failed
    exact id

theorem expandNumber (template : String) :
    MissesNone Does module extra (Run.expandNumber template) (Run.expandNumber template) := by
  apply of_template _ (runFrom_expandNumber · template) fun _ => rfl
  intro t trap failed
  unfold Template.expandNumber Template.expand at failed
  split at failed
  · unfold Except.bind Template.number at failed
    dsimp only at failed
    split at failed
    · cases failed
    · cases failed
      exact id
  · cases failed
    exact id

theorem checkSignal : MissesNone Does module extra Run.checkSignal Run.checkSignal := by
  apply of_still _ runFrom_checkSignal fun _ => rfl
  intro t trap
  unfold Task.asked? Signals.trap?
  cases t.machine.signal with
  | none => exact nofun
  | some signal =>
      rw [Option.bind_some]
      cases t.host.signals.reason? signal with
      | none => exact nofun
      | some reason =>
          rintro ⟨⟩
          exact False.elim

theorem charge (gas : UInt64) : MissesNone Does module extra (Run.charge gas) (Run.charge gas) := by
  intro t of
  have same : (Task.charged gas (t.backed extra)).Over ↔ (t.charged gas).Over := Iff.rfl
  rw [runFrom_charge, runFrom_charge]
  simp only [same]
  refine ⟨of, rfl, ?_⟩
  by_cases beyond : (t.charged gas).Over
  · rw [if_pos beyond]
    rintro _ ⟨⟩
    exact False.elim
  · rw [if_neg beyond]
    exact nofun

theorem start (op : Op) : MissesNone Does module extra (Run.start op) (Run.start op) := by
  apply bind checkSignal
  intro _
  apply bind (charge operationPrice)
  rintro _ t of
  exact ⟨of, rfl, nofun⟩

section Served

variable (handler : SyscallHandler Module)

/-- A service that is bound is found, and behind it nothing is looked for. -/
theorem syscall (request : SyscallRequest) (binds : (module.binding? request.kind).isSome) :
    MissesNone Does module extra (Run.syscall handler request) (Run.syscall handler request) := by
  intro t of
  obtain ⟨bound, found⟩ := Option.isSome_iff_exists.1 binds
  have found' : (t.backed extra).machine.module.binding? request.kind = some bound :=
    Module.binding?_backed (of ▸ found) extra
  have context : (t.backed extra).machine.context = t.machine.context := rfl
  rw [runFrom_syscall, runFrom_syscall, found', of, found, context]
  cases t.machine.context with
  | none => exact ⟨of, rfl, nofun⟩
  | some id =>
      dsimp only
      by_cases other : request.kind ≠ bound
      · rw [if_pos other, if_pos other]
        refine ⟨of, rfl, ?_⟩
        rintro _ ⟨⟩ own
        exact absurd (own _ _ found).symm other
      · rw [if_neg other, if_neg other]
        refine ⟨of, rfl, fun trap => ?_⟩
        -- What a handler fails with is a failure of the host, never a trap of the engine.
        dsimp only
        cases (runFrom (handler id request) t.host).1 <;> exact nofun

theorem afterRead (answer : Except EngineError SyscallResponse) (fallback : Option String)
    (traps : ∀ trap, answer = .error (.trap trap) → module.Excludes trap → Does (.trap trap)) :
    MissesNone Does module extra (Run.afterRead answer fallback)
      (Run.afterRead answer fallback) := by
  unfold Run.afterRead
  split
  · exact pure _
  · exact pure _
  · exact expand _
  · next e _ =>
    apply throw
    rintro trap rfl
    exact traps trap rfl

theorem readObject (key : Bytes) (fallback : Option String)
    (binds : (module.binding? .getObject).isSome) :
    MissesNone Does module extra (Run.readObject handler key fallback)
      (Run.readObject handler key fallback) := by
  intro t of
  have read : Unmissed Does module extra _ _ :=
    syscall handler (.getObject key) binds t of
  rw [runFrom_readObject, runFrom_readObject, read.alike]
  exact afterRead _ fallback read.traps _ read.of

theorem writeLine (line : String) :
    MissesNone Does module extra (Run.writeLine line) (Run.writeLine line) := by
  apply of_modify
  · intro t
    dsimp only
    cases t.machine.writer <;> rfl
  · rintro ⟨⟨own, gasLimit, gasUsed, memory, language, context, writer, signal⟩, vars, host⟩
    cases writer <;> rfl

/-- No program misses a binding of a module that binds all it asks for. -/
theorem congruence (binds : ∀ kind, Asked Does kind → (module.binding? kind).isSome) :
    Congruence Does handler handler (MissesNone Does module extra) where
  pure := pure
  bind := bind
  trap cause names := by
    apply throw
    rintro trap ⟨⟩ excluded
    rcases names with rfl | does
    · exact excluded.elim
    · exact does
  expand template _ := expand template
  expandNumber template _ := expandNumber template
  assign name value := of_modify (fun _ => rfl) fun _ => rfl
  checkSignal _ _ := checkSignal
  burn gas _ := charge gas
  grow octets := of_modify (fun _ => rfl) fun _ => rfl
  writeLine := writeLine
  syscall request asked := syscall handler request (binds request.kind asked)
  readObject key fallback asked _ := readObject handler key fallback (binds .getObject asked)
  start := start
  select := expand

end Served

end MissesNone

end Run

/-- What is found in a table is one of its entries. -/
theorem Program.mem_of_export {program : Program} {entry : String} {ops : List Op}
    (found : program.exports.get? entry = some ops) :
    ∃ name, (name, ops) ∈ program.exports.entries := by
  obtain ⟨⟨name, _⟩, here, rfl⟩ := Option.map_eq_some_iff.1 found
  exact ⟨name, List.mem_of_find?_eq_some here⟩

/-- A machine misses no binding of its module, and comes to no trap of a binding but those that a
function names itself. -/
theorem Machine.exec_misses_none {module : Module}
    (binds : ∀ kind, module.program.Asks kind → (module.binding? kind).isSome)
    {machine : Machine} (of : machine.module = module) (handler : SyscallHandler Module)
    (entry : String) (params : List Int) (h : Host Module) :
    let p := machine.exec handler entry params h
    (∀ extra, (machine.backed extra).exec handler entry params h =
      ((p.1.1, p.1.2.backed extra), p.2)) ∧
    ∀ trap, p.1.1 = .error (.trap trap) → module.Excludes trap →
      ∃ ops, module.program.exports.get? entry = some ops ∧ Op.Occurs ops (.trap trap) := by
  subst of
  unfold Machine.exec
  have expected (extra) : (machine.backed extra).expectedParams = machine.expectedParams := rfl
  have program (extra) : (machine.backed extra).module.program = machine.module.program := rfl
  simp only [expected, program]
  by_cases misfit : params.length ≠ machine.expectedParams
  · simp only [if_pos misfit]
    refine ⟨fun _ => trivial, ?_⟩
    rintro _ ⟨⟩
    exact False.elim
  · simp only [if_neg misfit]
    cases found : machine.module.program.exports.get? entry with
    | none => exact ⟨fun _ => rfl, nofun⟩
    | some ops =>
        obtain ⟨name, mem⟩ := Program.mem_of_export found
        have bound (kind : SyscallKind) (asked : Run.Asked (Op.Occurs ops) kind) :=
          binds kind ⟨name, ops, mem, asked⟩
        have ran (extra) : Run.Unmissed (Op.Occurs ops) machine.module extra _ _ :=
          (Run.MissesNone.congruence handler bound).operations ops (Op.within_occurs ops)
            { machine, host := h } rfl
        constructor
        · intro extra
          have alike : (Run.operations handler ops).run
            { machine := machine.backed extra, host := h } = _ := (ran extra).alike
          simp only [alike]
          rfl
        · intro trap failed excluded
          refine ⟨ops, rfl, (ran []).traps trap ?_ excluded⟩
          revert failed
          show (Except.map (fun _ => (0 : Int)) (runFrom (Run.operations handler ops) _).1) = _ → _
          cases (runFrom (Run.operations handler ops) { machine, host := h }).1 with
          | ok _ => exact nofun
          | error e =>
              rintro ⟨⟩
              rfl

/-! ## The whole of linking -/

theorem Module.Linked.bindsEachToItself {resolver : Resolver} {module : Module}
    (linked : module.Linked resolver) (services : resolver.HasSyscalls) :
    module.BindsEachToItself := by
  intro kind bound found
  have resolved := services kind bound (linked.resolved kind bound found)
  rw [Resolver.syscalls_name] at resolved
  cases resolved
  rfl

/-- Compiling bytecode ends well just when it is a program of which all names resolve. -/
theorem Module.exists_compile {resolver : Resolver} {bytecode : Bytes} :
    (∃ module, Module.compile resolver bytecode = .ok module) ↔
      ∃ program, Program.read? bytecode = some program ∧ program.Resolves resolver := by
  unfold Module.compile
  cases Program.read? bytecode with
  | none => simp
  | some program => simp [exists_ofProgram]

theorem Module.linked_compile {resolver : Resolver} {bytecode : Bytes} {module : Module}
    (compiled : Module.compile resolver bytecode = .ok module) : module.Linked resolver := by
  unfold Module.compile at compiled
  cases decoded : Program.read? bytecode with
  | none =>
      rw [decoded] at compiled
      cases compiled
  | some program =>
      rw [decoded] at compiled
      exact linked_ofProgram compiled

/-- The engine counts the modules that it makes. Bytecode that it refuses changes nothing. -/
theorem runFrom_compileModule (resolver : Resolver) (bytecode : Bytes) (h : Host Module) :
    runFrom (engine.compileModule resolver bytecode) h =
      (Module.compile resolver bytecode, match Module.compile resolver bytecode with
        | .ok _ => { h with engineUse.modulesCompiled := h.engineUse.modulesCompiled + 1 }
        | .error _ => h) := by
  unfold Engine.compileModule
  rw [runFrom_bind, runFrom_liftExcept, show engine.compile = Module.compile from rfl]
  cases Module.compile resolver bytecode with
  | ok module => rfl
  | error e => rfl

/-- Linking is complete.

Bytecode is compiled just when it is a program of which every import resolves, and every service
that some operation of an exported function asks for, at whatever depth of branches; bytecode
that is refused changes nothing, so it is not counted.

Whatever a machine of a compiled module runs, for whatever context and with whatever handler of
its services, it never misses a binding. Bindings that are put behind those of the module make
no difference, and it fails over a symbol that is not found only where the function that it runs
has a trap instruction to that effect. If the resolver has its services from the host's, the
same is true of a signature that does not match. -/
theorem linking_is_complete (resolver : Resolver) (bytecode : Bytes) (h : Host Module) :
    let compiled := runFrom (engine.compileModule resolver bytecode) h
    ((∃ module, compiled.1 = .ok module) ↔
      ∃ program, Program.read? bytecode = some program ∧ program.Resolves resolver) ∧
    (∀ e, compiled.1 = .error e → compiled.2 = h) ∧
    ∀ module, compiled.1 = .ok module →
      ∀ (handler : SyscallHandler Module) (prepared : Machine) (entry : String)
        (params : List Int) (g : Host Module),
        let machine := { prepared with module }
        let p := machine.exec handler entry params g
        (∀ extra, (machine.backed extra).exec handler entry params g =
          ((p.1.1, p.1.2.backed extra), p.2)) ∧
        (∀ missing name, p.1.1 = .error (.trap (.symbolNotFound missing name)) →
          ∃ ops, module.program.exports.get? entry = some ops ∧
            Op.Occurs ops (.trap (.symbolNotFound missing name))) ∧
        (resolver.HasSyscalls →
          ∀ place name, p.1.1 = .error (.trap (.signatureMismatch place name)) →
            ∃ ops, module.program.exports.get? entry = some ops ∧
              Op.Occurs ops (.trap (.signatureMismatch place name))) := by
  rw [runFrom_compileModule]
  dsimp only
  refine ⟨Module.exists_compile, fun e refused => by rw [refused], ?_⟩
  intro module compiled handler prepared entry params g
  have linked := Module.linked_compile compiled
  have made : ({ prepared with module } : Machine).module = module := rfl
  obtain ⟨alike, traps⟩ := Machine.exec_misses_none linked.binds made handler entry params g
  refine ⟨alike, fun missing name failed => traps _ failed trivial, ?_⟩
  intro services place name failed
  exact traps _ failed (linked.bindsEachToItself services)

end Script

end ContractHost
