/-
# Scripts in lockstep

A program reaches its host only by its syscalls, its debug output, its look at the abort
signal and the journal. So two runs of one program, against two hosts and two handlers,
stay in step as long as the handlers serve them alike: the machines agree throughout,
the results are the same, and the hosts stay related. The relation of the hosts is a
parameter, together with what is known of them once a run has failed.

A handler may fail and let the program go on in one case only: a read of a missing
object for which the program has a fallback. Reads are therefore asked for more.

Two things are found out on the way. A program that goes on has not passed its gas limit,
and a failure in the name of a contract never comes from a program itself.
-/

import ContractHost.Proofs.Script.Congruence

namespace ContractHost.Script

/-- How two hosts are to be related while they run the program of a context under a gas
limit: `Same` while the program runs, `Broken` once it has failed. -/
structure Accord where
  context : ContextId
  gasLimit : UInt64
  Same : Host Module → Host Module → Prop
  Broken : HostError → Host Module → Host Module → Prop
  excuse : Excuse := .none

/-- A handler leaves an excuse standing. -/
def LeavesStanding (excuse : Excuse) (handler : SyscallHandler Module) : Prop :=
  ∀ id request h, excuse.Given h.journal →
    excuse.Given (runFrom (handler id request) h).2.journal

/-- Two handlers serve the program of a context alike, as far as the first one gives no
excuse. A read gives none. -/
structure ServedAlike (A : Accord) (first second : SyscallHandler Module) : Prop where
  lasts : LeavesStanding A.excuse first
  signals : ∀ {h k}, A.Same h k → h.signals = k.signals
  broken : ∀ {h k} e, e.isOwn → A.Same h k → A.Broken e h k
  operation : ∀ {h k} op, A.Same h k →
    A.Same (h.note (.operation (some A.context) op)) (k.note (.operation (some A.context) op))
  lines : ∀ {h k} lines, A.Same h k → A.Same (h.addLines lines) (k.addLines lines)
  served : ∀ {h k} request, A.Same h k →
    Unless (fun h => A.excuse.Given h.journal) (fun x y h k => x = y ∧ A.Same h k) A.Broken
      (runFrom (first A.context request) h) (runFrom (second A.context request) k)
  read : ∀ {h k} key, A.Same h k →
    Both (fun x y h k => x = y ∧ A.Same h k) (fun e h k => e.isOwn ∧ A.Same h k)
      (runFrom (first A.context (.getObject key)) h)
      (runFrom (second A.context (.getObject key)) k)

namespace Run

variable {A : Accord} {first second : SyscallHandler Module} {α β : Type}

/-- A task whose host has an excuse. -/
def Excused (A : Accord) (t : Task) : Prop := A.excuse.Given t.host.journal

/-- Two tasks in step: the same machine, bound to a context and within its limit, and the
same variables, on related hosts. -/
structure Paired (A : Accord) (t u : Task) : Prop where
  machine : t.machine = u.machine
  vars : t.vars = u.vars
  context : t.machine.context = some A.context
  limit : t.machine.gasLimit = A.gasLimit
  metered : t.machine.gasUsed ≤ A.gasLimit
  host : A.Same t.host u.host

/-- Two tasks that have failed alike. -/
structure Failed (A : Accord) (e : EngineError) (t u : Task) : Prop where
  machine : t.machine = u.machine
  host : A.Broken e.toHostError t.host u.host

/-- Two runs that keep tasks in step, and fail alike if they fail, as far as the first one
gives no excuse. What is known of tasks that failed is a parameter. -/
structure AlikeTo (A : Accord) (Fail : EngineError → Task → Task → Prop) (a b : Run α) :
    Prop where
  lasts : ∀ t, Excused A t → Excused A (runFrom a t).2
  both : ∀ {t u}, Paired A t u →
    Unless (Excused A) (fun x y t u => x = y ∧ Paired A t u) Fail (runFrom a t) (runFrom b u)

/-- Two runs that keep tasks in step, or fail them alike. -/
abbrev Alike (A : Accord) (a b : Run α) : Prop := AlikeTo A (Failed A) a b

namespace Alike

section Composing

variable {Fail : EngineError → Task → Task → Prop}

theorem pure (x : α) : AlikeTo A Fail (Pure.pure x) (Pure.pure x) where
  lasts _ excused := excused
  both paired := .inr ⟨rfl, paired⟩

theorem bind {a b : Run α} {f g : α → Run β} (head : AlikeTo A Fail a b)
    (rest : ∀ x, AlikeTo A Fail (f x) (g x)) : AlikeTo A Fail (a >>= f) (b >>= g) where
  lasts t excused := by
    have left := head.lasts t excused
    rw [runFrom_bind]
    revert left
    rcases runFrom a t with ⟨e | x, t'⟩
    · exact fun excused => excused
    · exact (rest x).lasts t'
  both paired := by
    refine (head.both paired).bind (fun x => (rest x).lasts) ?_
    rintro x _ t u ⟨rfl, paired⟩
    exact (rest x).both paired

/-- A change of tasks that keeps them in step, and leaves the journal alone. -/
theorem ofModify {f : Task → Task} (journal : ∀ t, (f t).host.journal = t.host.journal)
    (step : ∀ {t u}, Paired A t u → Paired A (f t) (f u)) :
    AlikeTo A Fail (modify f) (modify f) where
  lasts t excused := by
    show A.excuse.Given (f t).host.journal
    rw [journal]
    exact excused
  both paired := .inr ⟨rfl, step paired⟩

/-- A run that goes on by what it finds in its task. -/
theorem ofGet {f g : Task → Run α} (lasts : ∀ t, Excused A t → Excused A (runFrom (f t) t).2)
    (step : ∀ {t u}, Paired A t u → AlikeTo A Fail (f t) (g u)) :
    AlikeTo A Fail (get >>= f) (get >>= g) where
  lasts := lasts
  both paired := (step paired).both paired

/-- An action on the host that keeps hosts related. -/
theorem onHost {a b : HostM Module EngineError α} {F : EngineError → Host Module → Host Module → Prop}
    (lasts : ∀ h, A.excuse.Given h.journal → A.excuse.Given (runFrom a h).2.journal)
    (step : ∀ {h k}, A.Same h k →
      Unless (fun h => A.excuse.Given h.journal) (fun x y h k => x = y ∧ A.Same h k) F
        (runFrom a h) (runFrom b k))
    (fails : ∀ {e t u h k}, Paired A t u → F e h k →
      Fail e { t with host := h } { u with host := k }) :
    AlikeTo A Fail (onHost a) (onHost b) where
  lasts t := lasts t.host
  both {t u} paired := by
    change Unless _ _ _ ((runFrom a t.host).1, { t with host := (runFrom a t.host).2 })
      ((runFrom b u.host).1, { u with host := (runFrom b u.host).2 })
    rcases step paired.host with excused | both
    · exact .inl excused
    · right
      match runFrom a t.host, runFrom b u.host, both with
      | (.ok _, _), (.ok _, _), ⟨same, host⟩ => exact ⟨same, { paired with host }⟩
      | (.error _, _), (.error _, _), ⟨same, host⟩ => exact ⟨same, fails paired host⟩

theorem assign (name value : String) :
    AlikeTo A Fail (assign name value) (assign name value) :=
  ofModify (fun _ => rfl) fun paired =>
    { paired with vars := congrArg (·.insert name value) paired.vars }

/-- A failure that does not come from a contract fails tasks that were in step. -/
theorem throw {e : EngineError} (fails : ∀ {t u}, Paired A t u → Fail e t u) :
    AlikeTo A Fail (α := α) (MonadExcept.throw e) (MonadExcept.throw e) where
  lasts _ excused := excused
  both paired := .inr ⟨rfl, fails paired⟩

end Composing

section Served

variable (alike : ServedAlike A first second)

include alike

/-- A task that was in step fails for a cause of its own. -/
theorem fails {t u : Task} {e : EngineError} (own : e.toHostError.isOwn)
    (paired : Paired A t u) : Failed A e t u :=
  ⟨paired.machine, alike.broken _ own paired.host⟩

theorem orTrap (result : Except Trap α) : Alike A (orTrap result) (orTrap result) := by
  cases result with
  | ok x => exact pure x
  | error trap => exact throw (fails alike rfl)

theorem lasts_orTrap (result : Except Trap α) (t : Task) (excused : Excused A t) :
    Excused A (runFrom (Run.orTrap result) t).2 :=
  (orTrap alike result).lasts t excused

theorem expand (template : String) : Alike A (expand template) (expand template) := by
  refine ofGet (fun t => lasts_orTrap alike _ t) fun paired => ?_
  rw [paired.vars]
  exact orTrap alike _

theorem expandNumber (template : String) :
    Alike A (expandNumber template) (expandNumber template) := by
  refine ofGet (fun t => lasts_orTrap alike _ t) fun paired => ?_
  rw [paired.vars]
  exact orTrap alike _

/-- Gas is charged before it is compared with the limit, so tasks that failed over it are
not within it any more, and tasks that go on are. -/
theorem charge (gas : UInt64) : Alike A (charge gas) (charge gas) where
  lasts t excused := by
    unfold Run.charge
    rw [runFrom_bind, runFrom_modify]
    dsimp only
    rw [runFrom_bind, runFrom_get]
    dsimp only
    split
    · exact excused
    · exact excused
  both {t u} paired := by
    right
    unfold Run.charge
    rw [runFrom_bind, runFrom_bind, runFrom_modify, runFrom_modify]
    dsimp only
    rw [runFrom_bind, runFrom_bind, runFrom_get, runFrom_get, ← paired.machine]
    dsimp only
    split
    · exact ⟨rfl, rfl, alike.broken _ rfl paired.host⟩
    · next within =>
      refine ⟨rfl, { paired with machine := rfl, metered := ?_ }⟩
      rw [paired.limit] at within
      exact UInt64.not_lt.1 within

/-- A syscall, as far as the handlers serve this one request alike. -/
theorem syscall {Fail : EngineError → Task → Task → Prop}
    {F : HostError → Host Module → Host Module → Prop} {request : SyscallRequest}
    (served : ∀ {h k}, A.Same h k →
      Unless (fun h => A.excuse.Given h.journal) (fun x y h k => x = y ∧ A.Same h k) F
        (runFrom (first A.context request) h) (runFrom (second A.context request) k))
    (own : ∀ {t u e}, e.toHostError.isOwn → Paired A t u → Fail e t u)
    (fails : ∀ {t u h k e}, Paired A t u → F e h k →
      Fail (.host e) { t with host := h } { u with host := k }) :
    AlikeTo A Fail (syscall first request) (syscall second request) := by
  have lasts (id : ContextId) (bound : SyscallKind) (h : Host Module)
      (given : A.excuse.Given h.journal) :
      A.excuse.Given (runFrom (Syscall.callBound first bound id request) h).2.journal := by
    unfold Syscall.callBound
    split
    · exact given
    · rw [runFrom_mapError]
      exact alike.lasts id request h given
  refine ofGet (fun t excused => ?_) fun paired => ?_
  · dsimp only
    split
    · exact excused
    · split
      · exact excused
      · exact lasts _ _ t.host excused
  · rw [← paired.machine]
    dsimp only
    rw [paired.context]
    dsimp only
    split
    · exact throw (own rfl)
    · refine onHost (F := fun e h k => e.toHostError.isOwn ∧ A.Same h k ∨
        ∃ d, e = .host d ∧ F d h k) (lasts _ _) (fun same => ?_) ?_
      · unfold Syscall.callBound
        split
        · exact .inr ⟨rfl, .inl ⟨rfl, same⟩⟩
        · rw [runFrom_mapError, runFrom_mapError]
          refine (served same).imp_right fun both => ?_
          match runFrom (first A.context request) _, runFrom (second A.context request) _, both with
          | (.ok _, _), (.ok _, _), both => exact both
          | (.error d, _), (.error _, _), ⟨same, broken⟩ =>
              exact ⟨congrArg EngineError.host same, .inr ⟨d, rfl, broken⟩⟩
      · rintro e t u h k paired (⟨plain, host⟩ | ⟨d, rfl, broken⟩)
        · exact own plain { paired with host }
        · exact fails paired broken

theorem checkSignal : Alike A checkSignal checkSignal := by
  refine ofGet (fun t excused => ?_) fun paired => ?_
  · split
    · exact excused
    · exact excused
  · rw [paired.machine, alike.signals paired.host]
    split
    · exact throw (fails alike rfl)
    · exact pure ()

theorem start (op : Op) : Alike A (start op) (start op) := by
  refine bind (checkSignal alike) fun _ =>
    bind (charge alike operationPrice) fun _ => ofGet (fun t excused => ?_) fun paired => ?_
  · exact A.excuse.lasts (List.suffix_cons _ _) excused
  · rw [← paired.machine]
    dsimp only
    rw [paired.context]
    refine onHost (F := fun _ _ _ => False)
      (fun h given => A.excuse.lasts (List.suffix_cons _ _) given)
      (fun same => .inr ⟨rfl, alike.operation op same⟩) (fun _ => False.elim)

/-- A syscall that the handlers serve alike. -/
theorem served (request : SyscallRequest) :
    Alike A (Run.syscall first request) (Run.syscall second request) :=
  syscall alike (alike.served request) (fails alike) fun paired broken =>
    ⟨paired.machine, broken⟩

theorem writeLine (line : String) : Alike A (writeLine line) (writeLine line) := by
  refine ofModify (fun t => ?_) fun {t u} paired => ?_
  · split
    · rfl
    · rfl
  · rw [paired.machine]
    split
    · exact paired
    · exact { paired with
        machine := rfl
        context := paired.machine ▸ paired.context
        limit := paired.machine ▸ paired.limit
        metered := paired.machine ▸ paired.metered
        host := alike.lines _ paired.host }

/-- A read that fails leaves the hosts related, so a program with a fallback for a
missing object goes on in step. -/
theorem readObject (key : Bytes) (fallback : Option String) :
    Alike A (readObject first key fallback) (readObject second key fallback) := by
  have read : AlikeTo A (fun e t u => e.toHostError.isOwn ∧ Paired A t u)
      (Run.syscall first (.getObject key)) (Run.syscall second (.getObject key)) :=
    syscall alike (fun same => .inr (alike.read key same))
      (fun own paired => ⟨own, paired⟩) fun paired ⟨own, host⟩ => ⟨own, { paired with host }⟩
  have lasts (answer : Except EngineError SyscallResponse) (t : Task) (excused : Excused A t) :
      Excused A (runFrom (afterRead answer fallback) t).2 := by
    unfold afterRead
    split
    · exact excused
    · exact excused
    · exact (expand alike _).lasts t excused
    · exact excused
  have answered (answer : Except EngineError SyscallResponse)
      (own : ∀ e, answer = .error e → e.toHostError.isOwn) :
      Alike A (afterRead answer fallback) (afterRead answer fallback) := by
    unfold afterRead
    split
    · exact pure _
    · exact pure _
    · exact expand alike _
    · exact throw (fails alike (own _ rfl))
  constructor
  · intro t excused
    rw [runFrom_readObject]
    exact lasts _ _ (read.lasts t excused)
  · intro t u paired
    rw [runFrom_readObject first, runFrom_readObject second]
    have ended := read.both paired
    revert ended
    generalize runFrom (Run.syscall first (.getObject key)) t = p
    generalize runFrom (Run.syscall second (.getObject key)) u = q
    rintro (excused | both)
    · exact .inl (lasts p.1 p.2 excused)
    · rcases p with ⟨e | x, t⟩ <;> rcases q with ⟨d | y, u⟩
      · obtain ⟨rfl, own, paired⟩ := both
        refine (answered (.error e) fun _ same => ?_).both paired
        cases same
        exact own
      · exact both.elim
      · exact both.elim
      · obtain ⟨rfl, paired⟩ := both
        exact (answered (.ok x) nofun).both paired

/-- All steps of programs keep two tasks in step. -/
theorem congruence : Congruence (fun _ => True) first second (Alike A) where
  pure := pure
  bind := bind
  trap _ _ := throw (fails alike rfl)
  expand template _ := expand alike template
  expandNumber template _ := expandNumber alike template
  assign := assign
  checkSignal _ _ := checkSignal alike
  burn gas _ := charge alike gas
  start := start alike
  select := expand alike
  grow octets := ofModify (fun _ => rfl) fun paired =>
    { paired with machine := by simp only [Task.grown, paired.machine] }
  writeLine := writeLine alike
  syscall request _ := served alike request
  readObject key fallback _ _ := readObject alike key fallback

end Served

end Alike

end Run

/-- A machine that begins a run for a context, within its limit. -/
structure Machine.Begins (A : Accord) (machine : Machine) : Prop where
  context : machine.context = some A.context
  limit : machine.gasLimit = A.gasLimit
  metered : machine.gasUsed ≤ A.gasLimit

/-- Two runs of a machine keep in step from beginning to end, as far as the first one gives
no excuse. A run that ends well is within the limit of its gas. -/
theorem Machine.exec_alike {A : Accord} {first second : SyscallHandler Module}
    (alike : ServedAlike A first second) {machine : Machine} (begins : machine.Begins A)
    (entry : String) (params : List Int) {h k : Host Module} (same : A.Same h k) :
    let p := machine.exec first entry params h
    let q := machine.exec second entry params k
    A.excuse.Given p.2.journal ∨ p.1.2 = q.1.2 ∧
      Both (fun _ _ h k => p.1.2.gasUsed ≤ A.gasLimit ∧ A.Same h k)
        (fun e => A.Broken e.toHostError) (p.1.1, p.2) (q.1.1, q.2) := by
  unfold Machine.exec
  split
  · exact .inr ⟨rfl, rfl, alike.broken _ rfl same⟩
  · split
    · exact .inr ⟨rfl, rfl, alike.broken _ rfl same⟩
    · next ops _ =>
      have ended := ((Run.Alike.congruence alike).operations ops fun _ _ _ _ => trivial).both
        (t := { machine, host := h }) (u := { machine, host := k })
        { begins with machine := rfl, vars := rfl, host := same }
      revert ended
      unfold runFrom
      rcases (Run.operations first ops).run { machine, host := h } with ⟨e | x, t'⟩ <;>
        rcases (Run.operations second ops).run { machine, host := k } with ⟨d | y, u'⟩
      · exact Or.imp_right fun ⟨same, failed⟩ => ⟨failed.machine, same, failed.host⟩
      · exact Or.imp_right False.elim
      · exact Or.imp_right False.elim
      · exact Or.imp_right fun ⟨_, paired⟩ => ⟨paired.machine, paired.metered, paired.host⟩

end ContractHost.Script
