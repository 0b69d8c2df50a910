/-
# Where an abort cuts a program short

A program looks at its signal where an operation starts. So a program that is asked to end is,
up to that point, the same program on a machine without a signal, and the point is where that
one goes on to its next operation: an operation that has started is brought to its end.
-/

import ContractHost.Proofs.Script.Moves

namespace ContractHost.Script

/-- The machine without a signal. Nobody can ask it to end. -/
def Machine.deaf (machine : Machine) : Machine := { machine with signal := none }

/-- The task on a machine without a signal. -/
def Task.deaf (task : Task) : Task := task.altered id fun _ => none

namespace Run

variable {handler : SyscallHandler Module} {α β : Type}

/-- If services only add to the journal, so does everything that a program does. -/
theorem journal_marches
    (grows : ∀ id request h, h.journal <:+ (runFrom (handler id request) h).2.journal) :
    Marches (fun _ => True) handler fun t u => t.host.journal <:+ u.host.journal where
  refl _ := List.suffix_rfl
  trans := .trans
  assigned _ _ _ := List.suffix_rfl
  burnt _ _ _ := List.suffix_rfl
  grown _ _ := List.suffix_rfl
  written t line := by
    unfold Task.written
    cases t.machine.writer <;> exact List.suffix_rfl
  served t id request _ := grows id request t.host
  priced _ := List.suffix_rfl
  started _ _ _ := List.suffix_cons _ _

/-- How a run ends beside that of a machine without a signal: not differently, or asked to end,
where the other one starts an operation next if it starts one at all. -/
def Interrupted (p q : Except EngineError α × Task) : Prop :=
  q = (p.1, p.2.deaf) ∨
    ∃ trap, p.1 = .error (.trap trap) ∧ p.2.asked? = some trap ∧
      ((∃ e, q.1 = .error e) ∧ q.2.host.journal = p.2.host.journal ∨
        ∃ later op,
          q.2.host.journal = later ++ .operation p.2.machine.context op :: p.2.host.journal)

/-- A run that a signal does no more to than to cut it short before an operation, from where the
task is of a kind. -/
structure Interruptible (Begun : Task → Prop) (a : Run α) : Prop where
  grows : Leads (fun t u => t.host.journal <:+ u.host.journal) a
  cut : ∀ t, Begun t → Interrupted (runFrom a t) (runFrom a t.deaf)

/-- What comes after a run is cut short with it. -/
theorem Interrupted.bind {a : Run α} {f : α → Run β} {t : Task}
    (head : Interrupted (runFrom a t) (runFrom a t.deaf))
    (rest : ∀ x, Interruptible (fun _ => True) (f x)) :
    Interrupted (runFrom (a >>= f) t) (runFrom (a >>= f) t.deaf) := by
  rw [runFrom_bind, runFrom_bind]
  revert head
  rcases runFrom a t with ⟨e | x, u⟩
  · rintro (same | ⟨trap, failed, asked, further⟩)
    · rw [same]
      exact .inl rfl
    · cases failed
      refine .inr ⟨trap, rfl, asked, ?_⟩
      revert further
      rcases runFrom a t.deaf with ⟨e | y, v⟩
      · exact Or.imp_left fun ⟨_, journal⟩ => ⟨⟨e, rfl⟩, journal⟩
      · rintro (⟨⟨_, stopped⟩, _⟩ | ⟨later, op, journal⟩)
        · cases stopped
        · -- Nobody cuts the other run short, so it may have gone further.
          obtain ⟨more, grown⟩ := (rest y).grows v
          refine .inr ⟨more ++ later, op, ?_⟩
          rw [← grown, journal, List.append_assoc]
  · rintro (same | ⟨_, failed, _⟩)
    · rw [same]
      exact (rest x).cut u trivial
    · cases failed

/-- Where nothing looks at the signal, a machine without one does the same. -/
theorem deaf_steps :
    Steps (fun instruction => ∀ millis, instruction ≠ .spin millis) handler handler
      fun a _ => Blind id (fun _ => none) a :=
  Blind.steps
    (fun gas _ t => by
      rw [runFrom_charge, runFrom_charge]
      rfl)
    fun millis does => absurd rfl (does millis)

variable (grows : ∀ id request h, h.journal <:+ (runFrom (handler id request) h).2.journal)

include grows

/-- An instruction is carried out to its end, unless the task was asked to end before. -/
theorem interruptible_perform (instruction : Instruction) :
    Interruptible (fun t => t.asked? = none) (perform handler instruction) where
  grows := (journal_marches grows).toMoves.steps.perform instruction trivial
  cut t unasked := by
    by_cases spins : ∃ millis, instruction = .spin millis
    · obtain ⟨millis, rfl⟩ := spins
      have passes (u : Task) (free : u.asked? = none) :
          runFrom (perform handler (.spin millis)) u = (.ok .next, u) := by
        dsimp only [perform]
        split
        · rw [runFrom_bind, runFrom_checkSignal, free]
          rfl
        · rfl
      rw [passes t unasked, passes t.deaf rfl]
      exact .inl rfl
    · have still : ∀ millis, instruction ≠ .spin millis := fun millis same => spins ⟨millis, same⟩
      exact .inl (deaf_steps.perform instruction still t)

/-- Programs are cut short before operations only. -/
theorem interruptible_descent :
    Descent (fun _ => True) handler handler (fun a _ => Interruptible (fun _ => True) a)
      fun _ a _ => Interruptible (fun t => t.asked? = none) a where
  nil := ⟨fun _ => List.suffix_rfl, fun _ _ => .inl rfl⟩
  cons := by
    intro op a b c d inside rest
    have moves := journal_marches grows
    have after (flow : Flow) : Interruptible (fun _ => True) (flow.andThen c) := by
      cases flow with
      | stop => exact ⟨fun _ => List.suffix_rfl, fun _ _ => .inl rfl⟩
      | next => exact rest
    have continues : Leads (fun t u => t.host.journal <:+ u.host.journal) (a >>= Flow.andThen c) :=
      moves.bind inside.grows fun flow => (after flow).grows
    refine ⟨moves.bind (moves.congruence.start op) fun _ => continues, fun t _ => ?_⟩
    have alone : t.deaf.asked? = none := rfl
    have over_iff : (t.deaf.charged operationPrice).Over ↔ (t.charged operationPrice).Over :=
      Iff.rfl
    rw [runFrom_bind, runFrom_bind, runFrom_start, runFrom_start, alone]
    cases asked : t.asked? with
    | some trap =>
        refine .inr ⟨trap, rfl, asked, ?_⟩
        dsimp only
        by_cases beyond : (t.charged operationPrice).Over
        · rw [if_pos (over_iff.2 beyond)]
          exact .inl ⟨⟨_, rfl⟩, rfl⟩
        · rw [if_neg (mt over_iff.1 beyond)]
          obtain ⟨later, grown⟩ := continues (t.deaf.started op)
          exact .inr ⟨later, op, grown.symm⟩
    | none =>
        dsimp only
        by_cases beyond : (t.charged operationPrice).Over
        · rw [if_pos beyond, if_pos (over_iff.2 beyond)]
          exact .inl rfl
        · rw [if_neg beyond, if_neg (mt over_iff.1 beyond)]
          exact (inside.cut (t.started op) asked).bind after
  single instruction _ := interruptible_perform grows instruction
  branch selector _ _ a _ inside := by
    have moves := journal_marches grows
    refine ⟨moves.bind (moves.toMoves.expand selector) fun label => (inside label).grows,
      fun t _ => Interrupted.bind (.inl ?_) inside⟩
    exact Blind.expand selector t

end Run

/-- An execution beside that of the machine without a signal: they do not differ, or the one was
asked to end where the other goes on to its next operation, if it has one. -/
theorem Machine.exec_interrupted {handler : SyscallHandler Module}
    (grows : ∀ id request h, h.journal <:+ (runFrom (handler id request) h).2.journal)
    (machine : Machine) (entry : String) (params : List Int) (h : Host Module) :
    let p := machine.exec handler entry params h
    let q := machine.deaf.exec handler entry params h
    q = ((p.1.1, p.1.2.deaf), p.2) ∨
      ∃ trap, p.1.1 = .error (.trap trap) ∧ p.1.2.signal.bind p.2.signals.trap? = some trap ∧
        (q.2.journal = p.2.journal ∨
          ∃ later op, q.2.journal = later ++ .operation p.1.2.context op :: p.2.journal) := by
  have expected : machine.deaf.expectedParams = machine.expectedParams := rfl
  have module : machine.deaf.module = machine.module := rfl
  unfold exec
  rw [expected, module]
  split
  · exact .inl rfl
  · cases machine.module.program.exports.get? entry with
    | none => exact .inl rfl
    | some ops =>
        have ended := ((Run.interruptible_descent grows).operations ops fun _ _ _ _ => trivial).cut
          { machine, host := h } trivial
        revert ended
        show Run.Interrupted _ (runFrom _ { machine := machine.deaf, host := h }) → _
        unfold runFrom
        dsimp only
        rcases (Run.operations handler ops).run { machine, host := h } with ⟨result, t⟩
        rintro (same | ⟨trap, failed, asked, further⟩)
        · rw [same]
          exact .inl rfl
        · cases failed
          exact .inr ⟨trap, rfl, asked, further.imp_left And.right⟩

end ContractHost.Script
