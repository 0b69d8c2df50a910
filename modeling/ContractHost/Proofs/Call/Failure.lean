/-
# Failures of nested calls

A call that fails, other than by a report of its contract, fails the call that made it, and
so on up to the request. On its way the error crosses the services, the program, the
instance and the manager of every call, and it comes out as it was. Nothing but an abort
could put another error in its place.

A failure that the called contract reports is handed to the program that made the call, as
an answer like any other, and the program goes on.
-/

import ContractHost.Proofs.Call.Course
import ContractHost.Proofs.Journal.Failures

namespace ContractHost

open Script (Machine Module)

namespace Call

/-- No abort found a call to end. -/
def Calm (events : List Event) : Prop := ∀ event ∈ events, event.raises = false

/-- Since an earlier moment, with the given events, just the given calls have been begun and
have not ended, all reports of contracts were answers, and no signal was raised but by an
abort. -/
structure Followed (start : Host Module) (calls : List ContextId) (events : List Event)
    (h : Host Module) : Prop where
  journal : h.journal = events ++ start.journal
  opened : openIn events = calls
  known : ∀ id ∈ calls, ∃ setup, h.contexts.setup? id = some setup
  once : calls.Nodup
  replied : Replied events
  handed : start.signals.next ≤ h.signals.next
  unraised : Calm events → ∀ signal, start.signals.next ≤ signal →
    h.signals.reason? signal = none

/-- Moreover, if no abort has found a call to end, no call has failed, or calls fail with the
given error. -/
def Unfolds (start : Host Module) (calls : List ContextId) (failure? : Option HostError)
    (h : Host Module) : Prop :=
  ∃ events, Followed start calls events h ∧ (Calm events → Stands failure? events)

/-- True of what happens between the seams of calls while no call has failed, or once one
has. -/
def Plain (failure? : Option HostError) (event : Event) : Prop :=
  event.isSeam = false ∧ event.suits failure?

variable {config : Config} {start h g f : Host Module} {calls : List ContextId}
  {events : List Event} {failure? : Option HostError} {e : HostError} {id : ContextId}

theorem followed_refl (h : Host Module) : Followed h [] [] h where
  journal := rfl
  opened := rfl
  known := by simp
  once := .nil
  replied := .nil
  handed := Nat.le_refl _
  unraised _ _ := Signals.reason?_of_next_le

namespace Followed

variable (followed : Followed start calls events h)

include followed

/-- What happens between the seams of calls. -/
theorem passes {P : Event → Prop} (passes : h.Passes P g)
    (kind : ∀ event, P event → event.isSeam = false) :
    ∃ later, (∀ event ∈ later, P event) ∧ Followed start calls (later ++ events) g := by
  obtain ⟨later, journal, plain, calm⟩ := passes.told
  have inside : ∀ event ∈ later, event.isSeam = false := fun event mem =>
    kind event (plain event mem)
  refine ⟨later, plain, {
    journal := by rw [journal, followed.journal, List.append_assoc]
    opened := (openIn_append inside events).trans followed.opened
    known := fun id mem => (followed.known id mem).imp fun _ => passes.kept.setup?
    once := followed.once
    replied := followed.replied.append inside
    handed := Nat.le_trans followed.handed passes.handed
    unraised := fun unraised signal beyond => ?_ }⟩
  obtain ⟨unraised', unraised⟩ := List.forall_mem_append.1 unraised
  exact (calm unraised' signal).trans (followed.unraised unraised signal beyond)

/-- A call is begun. -/
theorem beginCall (setup : CallSetup) :
    Followed start (h.contexts.next :: calls)
      (.began h.contexts.next (h.store.peek? (StoreKey.description setup.contract)) :: events)
      (Manager.beginCall setup h) where
  journal := congrArg (List.cons _) followed.journal
  opened := congrArg (List.cons _) followed.opened
  known := by
    refine List.forall_mem_cons.2 ⟨⟨setup, Contexts.setup?_create_next _ _⟩, fun id mem => ?_⟩
    exact (followed.known id mem).imp fun _ => (Contexts.Keeps.create h.contexts setup).setup?
  once := by
    refine List.nodup_cons.2 ⟨fun mem => ?_, followed.once⟩
    obtain ⟨made, known⟩ := followed.known _ mem
    exact Contexts.ne_next_of_setup? known rfl
  replied := followed.replied.cons nofun
  handed := followed.handed
  unraised unraised := followed.unraised (List.forall_mem_cons.1 unraised).2

end Followed

/-- The innermost call ends. -/
theorem Followed.endCall (followed : Followed start (id :: calls) events h)
    (result : Except HostError Outcome) :
    Followed start calls (.ended id result :: events) (Manager.endCall id result h) where
  journal := congrArg (List.cons _) followed.journal
  opened := by
    show (openIn events).filter (· != id) = calls
    rw [followed.opened, Contexts.filter_latest (List.nodup_cons.1 followed.once).1]
  known other mem := followed.known other (List.mem_cons_of_mem _ mem)
  once := (List.nodup_cons.1 followed.once).2
  replied := followed.replied.cons nofun
  handed := followed.handed
  unraised unraised := followed.unraised (List.forall_mem_cons.1 unraised).2

namespace Unfolds

theorem passes (unfolds : Unfolds start calls failure? h) (passes : h.Passes (Plain failure?) g) :
    Unfolds start calls failure? g := by
  obtain ⟨events, followed, stands⟩ := unfolds
  obtain ⟨later, plain, followed⟩ := followed.passes passes fun _ own => own.1
  refine ⟨later ++ events, followed, fun calm => ?_⟩
  exact (stands (List.forall_mem_append.1 calm).2).append fun event mem => (plain event mem).2

/-- Calls fail from now on. -/
theorem fail (unfolds : Unfolds start calls none h) (e : HostError) :
    Unfolds start calls (some e) h := by
  obtain ⟨events, followed, stands⟩ := unfolds
  exact ⟨events, followed, fun calm => (stands calm).fail e⟩

/-- A call is begun. -/
theorem beginCall (unfolds : Unfolds start calls none h) (setup : CallSetup) :
    Unfolds start (h.contexts.next :: calls) none (Manager.beginCall setup h) := by
  obtain ⟨events, followed, stands⟩ := unfolds
  exact ⟨_, followed.beginCall setup, fun calm => (stands (List.forall_mem_cons.1 calm).2).cons rfl⟩

/-- The innermost call ends, with the error with which calls fail if they do. -/
theorem endCall (unfolds : Unfolds start (id :: calls) failure? h)
    {result : Except HostError Outcome}
    (agrees : ∀ e, failure? = some e → failureOf result = some e) :
    Unfolds start calls (failureOf result) (Manager.endCall id result h) := by
  obtain ⟨events, followed, stands⟩ := unfolds
  refine ⟨_, followed.endCall result, fun calm => ?_⟩
  have stands := stands (List.forall_mem_cons.1 calm).2
  show Stands (Event.failure? (.ended id result)) _
  exact stands.tell agrees fun e failed => (eq_error_of_failureOf failed).1

end Unfolds

theorem plain_of_isBackstage {event : Event} (backstage : event.isBackstage) :
    Plain none event :=
  ⟨Event.isSeam_of_isBackstage backstage, Event.failure?_of_isBackstage backstage⟩

theorem plain_of_isClearance {event : Event} (clear : event.isClearance) :
    Plain failure? event := by
  have backstage := Event.isBackstage_of_isClearance clear
  refine ⟨Event.isSeam_of_isBackstage backstage, ?_⟩
  cases failure? with
  | none => exact Event.failure?_of_isBackstage backstage
  | some e => exact Event.unwinds_of_isClearance clear

/-- A program that was not asked to end ends with what it came to, and its call is parted
from machine and code. -/
theorem Unfolds.conclude {result : Except HostError Unit}
    (unfolds : Unfolds start calls (failureOf result) h) {signal : SignalId}
    (beyond : start.signals.next ≤ signal) (config : Config) (ctx : Context)
    (code : CompiledCode Module) (m : Machine) :
    let came := overruled h.signals signal result
    Unfolds start calls (failureOf came) (conclude config ctx code came m h).2 := by
  intro came
  obtain ⟨events, followed, stands⟩ := unfolds
  have measured : Plain (failureOf came) (.measured ctx.id came (usage m)) := by
    refine ⟨rfl, ?_⟩
    cases failed : failureOf came with
    | none => exact failed
    | some e => exact (eq_error_of_failureOf failed).1
  obtain ⟨later, plain, followed'⟩ := followed.passes
    (passes_conclude measured (fun _ => plain_of_isClearance) config code h) fun _ own => own.1
  refine ⟨later ++ events, followed', fun calm => ?_⟩
  have calm := (List.forall_mem_append.1 calm).2
  have same : came = result := overruled_of_unraised (followed.unraised calm signal beyond) result
  rw [same] at plain ⊢
  exact (stands calm).append fun event mem => (plain event mem).2

/-! ## Failing in step with the calls -/

/-- Inside a call all goes well, or calls fail. -/
def failing (start : Host Module) : Condition Nest where
  context nest := nest.context
  Holds nest h := Unfolds start (nest.context :: nest.outer) none h
  Broken nest e h :=
    e.isReport = false ∧ Unfolds start (nest.context :: nest.outer) (some e) h

theorem Unfolds.handed (unfolds : Unfolds start calls failure? h) :
    start.signals.next ≤ h.signals.next := by
  obtain ⟨_, followed, _⟩ := unfolds
  exact followed.handed

/-- A call that goes well until it begins ends with its failure, if it has any. -/
theorem begins_of_unfolds {Closed : Except HostError Outcome → Host Module → Prop}
    {load : CodeLoad} {ctx : Context} (unfolds : Unfolds start (ctx.id :: calls) none h)
    (closed : ∀ result g, Unfolds start calls (failureOf result) g → Closed result g) :
    (failing start).Begins config Closed load ctx h := by
  have obtaining {g : Host Module} (backstage : h.Backstage g) :
      Unfolds start (ctx.id :: calls) none g :=
    unfolds.passes (.of_backstage backstage fun _ => plain_of_isBackstage)
  refine Condition.Begins.of_stages ⟨ctx.id, calls⟩ rfl ?_ ?_ ?_
  · intro e g own backstage
    refine closed _ _ (((obtaining backstage).fail e).endCall ?_)
    rintro _ ⟨⟩
    exact failureOf_error (HostError.isReport_of_isOwn own)
  · intro g backstage
    exact (obtaining backstage).passes (passes_ready (fun _ => plain_of_isBackstage) ctx g)
  · intro code g result m f backstage ended _
    have unfolds' : Unfolds start (ctx.id :: calls) (failureOf result) f := by
      match result, ended with
      | .ok _, unfolds => exact unfolds
      | .error e, ⟨own, unfolds⟩ =>
          rw [failureOf_error own]
          exact unfolds
    have concluded := unfolds'.conclude (obtaining backstage).handed config ctx code m
    refine closed _ _ (concluded.endCall ?_)
    intro e failed
    obtain ⟨came, own⟩ := eq_error_of_failureOf failed
    rw [came]
    exact failureOf_error own

/-- Charging a call changes nothing here. -/
theorem Unfolds.charged (unfolds : Unfolds start calls failure? h) (id : ContextId)
    (used : Resources) :
    Unfolds start calls failure?
      { h with contexts := h.contexts.update id (Context.addNestedUsage used) } := by
  obtain ⟨events, followed, stands⟩ := unfolds
  refine ⟨events, { followed with known := fun other mem => ?_ }, stands⟩
  have same : (h.contexts.update id (Context.addNestedUsage used)).setup? other =
      h.contexts.setup? other := by
    rw [Contexts.setup?_update]
    · exact fun _ => rfl
    · exact fun _ => rfl
  exact same ▸ followed.known other mem

/-- A result that is no failure is counted. -/
theorem Unfolds.finish {result : Except HostError Outcome}
    (unfolds : Unfolds start calls (failureOf result) h) (contract : String)
    (unreported : Event.isSeam (.finished contract result) = false) :
    Unfolds start calls (failureOf result) (Manager.finish contract result h) := by
  refine unfolds.passes (passes_finish ⟨unreported, ?_⟩ (fun _ => plain_of_isClearance) h)
  cases failed : failureOf result with
  | none => exact failed
  | some e => exact (eq_error_of_failureOf failed).1

/-- The report of a contract is counted, and is the answer at once. -/
theorem Unfolds.reported {caller : ContextId} (unfolds : Unfolds start (caller :: calls) none h)
    (contract method : String) (args : List ArgPair) (response : Response) (used : Resources)
    (gas : UInt64) :
    let request := .contractCall SyscallRequest.contractModule contract method args
    Unfolds start (caller :: calls) none (replied caller request response used
      (Manager.finish contract (.error (.contract response used gas)) h)) := by
  intro request
  obtain ⟨events, followed, stands⟩ := unfolds.charged caller used
  let events' : List Event := .answered caller request (.ok (.response response)) ::
    .finished contract (.error (.contract response used gas)) :: events
  have earlier (calm : Calm events') : Calm events := fun event mem =>
    calm event (List.mem_cons_of_mem _ (List.mem_cons_of_mem _ mem))
  refine ⟨events', { followed with
    journal := congrArg (_ :: _ :: ·) followed.journal
    replied := followed.replied.reply followed.opened contract method args response used gas
    unraised := fun calm => followed.unraised (earlier calm) }, fun calm => ?_⟩
  have finished :
      Stands none (.finished contract (.error (.contract response used gas)) :: events) :=
    (stands (earlier calm)).cons rfl
  exact finished.cons rfl

/-- What a call that a program made comes to is answered to the program. -/
theorem Unfolds.answered {nest : Nest} {result : Except HostError Outcome}
    (unfolds : Unfolds start (nest.context :: nest.outer) (failureOf result) h)
    (contract method : String) (args : List ArgPair) :
    (failing start).Answered nest
      (.contractCall SyscallRequest.contractModule contract method args) result
      (Manager.finish contract result h) := by
  match result with
  | .ok outcome =>
      have finished := (unfolds.finish contract rfl).charged nest.context
        outcome.resources
      exact finished.passes (.note _ ⟨rfl, rfl⟩)
  | .error e =>
      have failed (own : e.isReport = false) :
          (failing start).Broken nest e ((Manager.finish contract (.error e) h).note
            (.answered nest.context
              (.contractCall SyscallRequest.contractModule contract method args) (.error e))) := by
        have finished := unfolds.finish contract own
        rw [failureOf_error own] at finished
        exact ⟨own, finished.passes (.note _ ⟨rfl, rfl⟩)⟩
      cases e with
      | contract response used gas => exact unfolds.reported contract method args response used gas
      | _ => exact failed rfl

theorem failing_upheld (config : Config) (start : Host Module) :
    Upheld config (failing start) where
  broken e own unfolds := ⟨HostError.isReport_of_isOwn own, unfolds.fail e⟩
  acted behaves unfolds := unfolds.passes (.of_acts behaves.toActs fun _ own =>
    ⟨Event.isSeam_of_isOf own, Event.failure?_of_isOf own⟩)
  refused _ _ _ _ e refuses unfolds := ⟨refuses.isReport, (unfolds.fail e).passes (.note _ ⟨rfl, rfl⟩)⟩
  called := by
    intro nest h setup args _ unfolds
    have counted : Unfolds start (nest.context :: nest.outer) none (invoked setup.contract h) :=
      unfolds.passes (passes_invoked ⟨rfl, rfl⟩ h)
    exact begins_of_unfolds (counted.beginCall setup) fun result g unfolds =>
      unfolds.answered setup.contract setup.method args

/-- A request was served with the given events: no call is open any more, failures have
reached the request as they were, and all reports but that of the outermost call were
answers. -/
structure Told (h : Host Module) (events : List Event)
    (result? : Option (Except HostError Outcome)) (g : Host Module) : Prop where
  journal : g.journal = events ++ h.journal
  closed : openIn events = []
  stands : Calm events → Stands (result?.bind failureOf) events
  replied : ∀ name response used gas early,
    (.finished name (.error (.contract response used gas)) :: early) <:+ events →
    .finished name (.error (.contract response used gas)) :: early = events ∧
        result? = some (.error (.contract response used gas)) ∨
      ∃ caller others method args, openIn early = caller :: others ∧
        (.answered caller (.contractCall SyscallRequest.contractModule name method args)
            (.ok (.response response)) ::
          .finished name (.error (.contract response used gas)) :: early) <:+ events

theorem told_nil {result? : Option (Except HostError Outcome)} (journal : g.journal = h.journal) :
    Told h [] result? g where
  journal := journal
  closed := rfl
  stands _ := by
    cases result?.bind failureOf with
    | none => exact List.forall_mem_nil _
    | some e => exact Stands.fail (List.forall_mem_nil _) e
  replied name response used gas early suffix := by simp at suffix

/-- The result of the outermost call is that of the request. -/
theorem told_of_unfolds {result : Except HostError Outcome}
    (unfolds : Unfolds h [] (failureOf result) g) (contract : String) :
    ∃ events, Told h events (some result) (Manager.finish contract result g) := by
  by_cases unreported : Event.isSeam (.finished contract result) = false
  · obtain ⟨events, followed, stands⟩ := unfolds.finish contract unreported
    exact ⟨events, followed.journal, followed.opened, stands,
      fun name response used gas early suffix => .inr (followed.replied _ _ _ _ _ suffix)⟩
  · obtain ⟨events, followed, stands⟩ := unfolds
    match result with
    | .ok _ => exact absurd rfl unreported
    | .error (.contract response used gas) =>
        refine ⟨.finished contract (.error (.contract response used gas)) :: events,
          congrArg (List.cons _) followed.journal, followed.opened, fun calm => ?_, ?_⟩
        · exact (stands (List.forall_mem_cons.1 calm).2).cons (by rfl)
        · intro name response' used' gas' early suffix
          rcases List.suffix_cons_iff.1 suffix with same | suffix
          · cases same
            exact .inl ⟨rfl, rfl⟩
          · obtain ⟨caller, others, method, args, opened, answered⟩ :=
              followed.replied _ _ _ _ _ suffix
            exact .inr ⟨caller, others, method, args, opened,
              answered.trans (List.suffix_cons ..)⟩

theorem told_serve (config : Config) (h : Host Module) (request : HostRequest) :
    let p := (Manager.scripted config).serve h request
    ∃ events, Told h events p.1 p.2 := by
  have counted {contract : String} {g : Host Module}
      (backstage : (h.note (.started contract)).Backstage g) : Unfolds h [] none g := by
    have unfolds : Unfolds h [] none h := ⟨[], followed_refl h, fun _ => List.forall_mem_nil _⟩
    exact unfolds.passes ((Host.Passes.note h ⟨rfl, rfl⟩).trans
      (.of_backstage backstage fun _ => plain_of_isBackstage))
  refine serve_cases config h request (P := fun result? g => ∃ events, Told h events result? g)
    ?_ ?_ ?_ ?_
  · exact fun _ _ _ => ⟨[], told_nil rfl⟩
  · exact fun _ _ => ⟨[], told_nil rfl⟩
  · intro accepted fault g _ offstage
    have failed : Unfolds h [] (failureOf (.error (.storage fault) : Except HostError Outcome)) g :=
      (counted offstage.backstage).fail (.storage fault)
    exact told_of_unfolds failed accepted.contract
  · intro accepted load setup g _ _ _ offstage
    have begins : (failing h).Begins config
        (fun result f => ∃ events, Told h events (some result)
          (Manager.finish accepted.contract result f))
        load (created setup g) (Manager.beginCall setup g) :=
      begins_of_unfolds ((counted offstage.backstage).beginCall setup) fun result f unfolds =>
        told_of_unfolds unfolds accepted.contract
    exact (failing_upheld config h).run config.maxCallDepth.toNat begins

end Call

namespace Script.Run

/-! ## The answer to a call -/

/-- A program starts an operation by which it calls a contract, and is answered. -/
def ask (handler : SyscallHandler Module) (module contract method : String)
    (args : List (String × String)) (into : Option String) : Run SyscallResponse := do
  start (.single (.call module contract method args into))
  let args ← expandArgs args
  let contract ← expand contract
  let method ← expand method
  syscall handler (.contractCall module contract method args)

variable (handler : SyscallHandler Module) (module contract method : String)
  (args : List (String × String)) (into : Option String)

/-- A call of a contract is asked for, and with the answer the program goes on. -/
theorem operations_call (rest : List Op) :
    operations handler (.single (.call module contract method args into) :: rest) =
      (do
        receive into (← ask handler module contract method args into)
        operations handler rest) := by
  rw [operations, operation, perform, ask]
  simp only [bind_assoc, pure_bind]

/-- What a service answers is the last thing in the journal. -/
theorem ends_syscall (invoker? : Option (Invoker Module)) (request : SyscallRequest) (t : Task) :
    Ends (fun answer t => ∃ id, t.host.journal.head? = some (.answered id request (.ok answer)))
      (fun _ _ => True) (runFrom (syscall (Syscall.serve invoker?) request) t) := by
  unfold syscall
  rw [runFrom_bind, runFrom_get]
  dsimp only
  split
  · trivial
  · next id _ =>
    split
    · trivial
    · next bound _ =>
      show Ends _ _
        ((runFrom (Syscall.callBound (Syscall.serve invoker?) bound id request) t.host).1,
          { t with host := (runFrom (Syscall.callBound (Syscall.serve invoker?) bound id request)
            t.host).2 })
      unfold Syscall.callBound
      split
      · trivial
      · rw [runFrom_mapError, Host.runFrom_serve]
        dsimp only
        rcases runFrom (Syscall.answer invoker? id request) _ with ⟨e | answer, h⟩
        · trivial
        · exact ⟨id, rfl⟩

theorem ends_ask (invoker? : Option (Invoker Module)) (t : Task) :
    Ends (fun answer t => ∃ id contract method args, t.host.journal.head? =
        some (.answered id (.contractCall module contract method args) (.ok answer)))
      (fun _ _ => True)
      (runFrom (ask (Syscall.serve invoker?) module contract method args into) t) := by
  have any {α : Type} (run : Run α) (t : Task) :
      Ends (fun _ _ => True) (fun _ _ => True) (runFrom run t) := by
    rcases runFrom run t with ⟨_ | _, _⟩ <;> trivial
  unfold ask
  refine (any _ t).bind fun _ t _ => (any _ t).bind fun args t _ =>
    (any _ t).bind fun contract t _ => (any _ t).bind fun method t _ => ?_
  exact (ends_syscall invoker? _ t).mono
    (fun answer t ⟨id, last⟩ => ⟨id, contract, method, args, last⟩) fun _ _ => id

theorem runFrom_receive (answer : SyscallResponse) (t : Task) :
    (runFrom (receive into answer) t).1 = .ok () := by
  unfold receive
  split <;> rfl

/-- A program whose call is answered goes on, and one whose call fails, fails. -/
theorem runFrom_operations_call (rest : List Op) (t : Task) :
    runFrom (operations handler (.single (.call module contract method args into) :: rest)) t =
      match runFrom (ask handler module contract method args into) t with
      | (.ok answer, t') =>
          runFrom (operations handler rest) (runFrom (receive into answer) t').2
      | (.error e, t') => (.error e, t') := by
  rw [operations_call, runFrom_bind]
  rcases runFrom (ask handler module contract method args into) t with ⟨e | answer, t'⟩
  · rfl
  · dsimp only
    have received := runFrom_receive into answer t'
    rw [runFrom_bind]
    revert received
    rcases runFrom (receive into answer) t' with ⟨_ | _, _⟩
    · rintro ⟨⟩
    · exact fun _ => rfl

end Script.Run

/-- The failures of calls, for every state of a host and every request.

Where no abort finds a call to end, a failure of a call that no contract reports fails all
that is around it with the very same error: wherever it stands in the journal, in the measure
of a program, in the end or the result of a call or in the answer to a program, it is the
result of the request, every call that is open then ends with it, and up to the end of the
request nothing happens but that calls end so, and machines and code are given up. In
particular no program starts another operation.

A failure that a called contract reports is instead the answer to the program of the innermost
open call, at once and as it was reported, unless the contract was called from outside. And a
program goes on with the answer to a call, which is the one in the journal; only if it has
none, the program fails, with the same error. -/
theorem serve_unwinds_failures (config : Config) (h : Host Module) (request : HostRequest) :
    let p := (Manager.scripted config).serve h request
    (∃ events, p.2.journal = events ++ h.journal ∧
      ((∀ event ∈ events, event.raises = false) →
        ∀ late event early e, events = late ++ event :: early → event.failure? = some e →
          p.1 = some (.error e) ∧ (∀ later ∈ late, later.unwinds e) ∧
          ∀ id ∈ openIn (event :: early), .ended id (.error e) ∈ late) ∧
      ∀ name response used gas early,
        (.finished name (.error (.contract response used gas)) :: early) <:+ events →
        .finished name (.error (.contract response used gas)) :: early = events ∧
            p.1 = some (.error (.contract response used gas)) ∨
          ∃ caller others method args, openIn early = caller :: others ∧
            (.answered caller (.contractCall SyscallRequest.contractModule name method args)
                (.ok (.response response)) ::
              .finished name (.error (.contract response used gas)) :: early) <:+ events) ∧
    ∀ invoker? module contract method args into rest (t : Script.Task),
      let handler := Syscall.serve invoker?
      let asked := runFrom (Script.Run.ask handler module contract method args into) t
      (∀ answer, asked.1 = .ok answer → ∃ id contract method args, asked.2.host.journal.head? =
        some (.answered id (.contractCall module contract method args) (.ok answer))) ∧
      runFrom (Script.Run.operations handler
          (.single (.call module contract method args into) :: rest)) t =
        match asked with
        | (.ok answer, t') => runFrom (Script.Run.operations handler rest)
            (runFrom (Script.Run.receive into answer) t').2
        | (.error e, t') => (.error e, t') := by
  intro p
  obtain ⟨events, told⟩ := Call.told_serve config h request
  refine ⟨⟨events, told.journal, fun calm late event early e split failed => ?_, told.replied⟩, ?_⟩
  · obtain ⟨came, unwinding⟩ := (told.stands calm).of_failure split failed
    obtain ⟨result, served, failed⟩ := Option.bind_eq_some_iff.1 came
    refine ⟨(eq_error_of_failureOf failed).1 ▸ served, unwinding, fun id was => ?_⟩
    have gone : id ∉ openIn (late ++ event :: early) := by
      rw [← split, told.closed]
      exact List.not_mem_nil
    obtain ⟨result, ended⟩ := ended_of_open was gone
    exact (unwinding _ ended : result = .error e) ▸ ended
  · intro invoker? module contract method args into rest t
    refine ⟨fun answer answered => ?_, ?_⟩
    · have ends := Script.Run.ends_ask module contract method args into invoker? t
      revert ends answered
      rcases runFrom (Script.Run.ask _ module contract method args into) t with ⟨_ | _, t'⟩
      · rintro ⟨⟩
      · rintro ⟨⟩
        exact id
    · exact Script.Run.runFrom_operations_call _ module contract method args into rest t

end ContractHost
