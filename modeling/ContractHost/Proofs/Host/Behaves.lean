/-
# What a program is answered

A program asks for services one after the other, and each is answered before it goes on. So
what it does by itself comes in steps at whose ends nothing is pending: the output of its
call is the one that it asked for last, and whenever it asked about its call it was told
what the call was made with. The contexts of all other calls stay as they are.
-/

import ContractHost.Proofs.Host.Acts
import ContractHost.Proofs.Journal.Answers

namespace ContractHost

namespace Event

theorem isOwnAffair_of_isBackstage {event : Event} (backstage : event.isBackstage) :
    event.isOwnAffair = false := by
  cases event <;> first | rfl | cases backstage

/-- Only the program of a context asks for outputs of its call. -/
theorem output?_of_isOf {event : Event} {id other : ContextId} {live : List ContextId}
    (own : event.IsOf id live) (apart : id ≠ other) : event.output? other = none := by
  cases event with
  | syscall context request _ =>
      obtain ⟨rfl, -⟩ := own
      cases request <;> first | rfl | exact if_neg apart
  | _ => rfl

end Event

namespace Host

variable {M : Type}

/-- What the program of a context does to its host by itself, with all services that it asked
for answered. -/
structure Behaves (id : ContextId) (h g : Host M) : Prop extends Acts id h g where
  apart : ∀ other, other ≠ id → g.contexts.held? other = h.contexts.held? other
  answers : ∀ ctx, h.contexts.find? id = some ctx → ∃ events, g.journal = events ++ h.journal ∧
    g.contexts.held? id = some { ctx with output := (lastOutput? id events).or ctx.output } ∧
    Informed g.contexts events

namespace Behaves

variable {id : ContextId} {h g : Host M}

/-- A change that leaves all contexts as they are, and in which the program asked neither for
an output nor about its call. -/
theorem of_contexts (events : List Event) (acts : Acts id h g)
    (contexts : g.contexts = h.contexts) (journal : g.journal = events ++ h.journal)
    (silent : ∀ event ∈ events, event.isOwnAffair = false) : Behaves id h g where
  toActs := acts
  apart other _ := by rw [contexts]
  answers := by
    intro ctx found
    refine ⟨events, journal, ?_, .silent silent⟩
    have unasked : lastOutput? id events = none :=
      lastOutput?_eq_none fun event mem => Event.output?_of_not_isOwnAffair (silent event mem) id
    rw [contexts, unasked, Option.none_or]
    exact Contexts.held?_of_find? found

theorem of_unseen (unseen : Unseen h g) : Behaves id h g := by
  obtain ⟨events, journal, plain, _⟩ := unseen.backstage.told
  apply of_contexts events (.of_unseen unseen) unseen.backstage.contexts journal
  exact fun event mem => Event.isOwnAffair_of_isBackstage (plain event mem)

/-- An entry into the journal that is neither a service nor a turn of a call. -/
theorem note (h : Host M) {event : Event} (inner : event.isInner)
    (own : event.IsOf id h.contexts.live) (steady : event.isSteady)
    (silent : event.isOwnAffair = false) : Behaves id h (h.note event) :=
  of_contexts [event] (.note h inner own steady) rfl rfl (by simpa using silent)

theorem dispatchCall (h : Host M) (module contract method : String) (args : List ArgPair) :
    Behaves id h
      (h.note (.syscall id (.contractCall module contract method args) h.contexts.live)) :=
  note h rfl ⟨rfl, rfl⟩ rfl rfl

theorem addLines (h : Host M) (lines : List LogLine) : Behaves id h (h.addLines lines) :=
  of_contexts [] (.addLines h lines) rfl rfl (by simp)

end Behaves

section Serve

variable (id : ContextId) (invoker? : Option (Invoker M)) {h : Host M}

/-- What a request of a program leads to. -/
abbrev Served (request : SyscallRequest) (h : Host M) : Prop :=
  Modest (Behaves id h) (runFrom (Syscall.serve invoker? id request) h)

/-- A request that is answered in a way of its own is served in that way. -/
theorem served_of_answer {request : SyscallRequest} {result : Except HostError SyscallResponse}
    {g : Host M}
    (answered : runFrom (Syscall.answer invoker? id request)
      (h.note (.syscall id request h.contexts.live)) = (result, g))
    (plain : request.kind ≠ .contractCall)
    (behaves : Acts id h (g.note (.answered id request result)) →
      Behaves id h (g.note (.answered id request result))) :
    Served id invoker? request h := by
  have modest := modest_answer id invoker? plain (h.note (.syscall id request h.contexts.live))
  have acts (left : Acts id (h.note (.syscall id request h.contexts.live)) g) :
      Acts id h (g.note (.answered id request result)) :=
    ((Acts.dispatch h request).trans left).trans (.answered g plain result)
  unfold Served
  rw [runFrom_serve, answered]
  rw [answered] at modest
  cases result with
  | ok _ => exact behaves (acts modest)
  | error e => exact ⟨modest.1, behaves (acts modest.2)⟩

theorem served_unknown (unknown : h.contexts.find? id = none) {request : SyscallRequest}
    (plain : request.kind ≠ .contractCall) : Served id invoker? request h := by
  apply served_of_answer id invoker? (runFrom_answer_unknown (by exact unknown) invoker? request)
    plain
  intro acts
  exact { acts with
    apart := fun _ _ => rfl
    answers := fun ctx known => by simp [unknown] at known }

/-- Services of which nothing is seen but their answers. -/
theorem served_unseen {request : SyscallRequest} (plain : request.kind ≠ .contractCall)
    (output : request.kind ≠ .setOutput) (args : request.kind ≠ .getCallArgs) :
    Served id invoker? request h := by
  have silent (result : Except HostError SyscallResponse) :
      (Event.syscall id request h.contexts.live).isOwnAffair = false ∧
        (Event.answered id request result).isOwnAffair = false := by
    cases request <;> first | exact ⟨rfl, rfl⟩ | exact absurd rfl output | exact absurd rfl args
  have ends := unseen_answer id invoker? plain output
    (h.note (.syscall id request h.contexts.live))
  cases answered : runFrom (Syscall.answer invoker? id request)
      (h.note (.syscall id request h.contexts.live)) with
  | mk result g =>
      have unseen : Unseen (h.note (.syscall id request h.contexts.live)) g := by
        rw [answered] at ends
        cases result with
        | ok _ => exact ends
        | error e => exact ends.2
      apply served_of_answer id invoker? answered plain
      intro acts
      obtain ⟨events, journal, plain, _⟩ := unseen.backstage.told
      apply Behaves.of_contexts
        (.answered id request result :: (events ++ [.syscall id request h.contexts.live])) acts
        unseen.backstage.contexts
      · show _ :: g.journal = _
        rw [journal, List.cons_append, List.append_assoc]
        rfl
      · obtain ⟨dispatched, replied⟩ := silent result
        refine List.forall_mem_cons.2 ⟨replied, List.forall_mem_append.2 ⟨fun event mem => ?_, ?_⟩⟩
        · exact Event.isOwnAffair_of_isBackstage (plain event mem)
        · exact List.forall_mem_singleton.2 dispatched

section Known

variable {ctx : Context} (found : h.contexts.find? id = some ctx)

include found

/-- A program is told what its call was made with. -/
theorem served_getCallArgs : Served id invoker? .getCallArgs h := by
  have told : runFrom (Syscall.answer invoker? id .getCallArgs)
      (h.note (.syscall id .getCallArgs h.contexts.live)) =
        (.ok (.callArgs ctx.callArgs), h.note (.syscall id .getCallArgs h.contexts.live)) := by
    have found' : (h.note (.syscall id .getCallArgs h.contexts.live)).contexts.find? id =
        some ctx := found
    unfold Syscall.answer Syscall.getCallArgs
    rw [runFrom_bind, runFrom_withContext found']
    rfl
  apply served_of_answer id invoker? told nofun
  intro acts
  have held := Contexts.held?_of_find? found
  refine { acts with apart := fun _ _ => rfl, answers := fun known same => ?_ }
  cases found.symm.trans same
  refine ⟨[_, _], rfl, held, ?_⟩
  intro late asker live early split
  match late, split with
  | [_], split =>
      cases split
      exact ⟨ctx.setup, congrArg (Option.map _) held, rfl⟩
  | _ :: _ :: late, split => simp at split

/-- The output that a program asks for is that of its call. -/
theorem served_setOutput (response : Response) :
    Served id invoker? (.setOutput response) h := by
  let dispatched := h.note (.syscall id (.setOutput response) h.contexts.live)
  have set : runFrom (Syscall.answer invoker? id (.setOutput response)) dispatched =
      (.ok .empty, { dispatched with
        contexts := h.contexts.update id (Context.setOutput response) }) := by
    have found' : dispatched.contexts.find? id = some ctx := found
    unfold Syscall.answer Syscall.setOutput
    rw [runFrom_bind, runFrom_withContext found']
    rfl
  apply served_of_answer id invoker? set nofun
  intro acts
  have held := Contexts.held?_of_find? found
  refine { acts with apart := fun other apart => ?_, answers := fun known same => ?_ }
  · exact Contexts.held?_update_of_ne h.contexts apart fun _ => rfl
  · cases found.symm.trans same
    have asked : lastOutput? id [.answered id (.setOutput response) (.ok .empty),
        .syscall id (.setOutput response) h.contexts.live] = some response := by
      simp [lastOutput?, Event.output?]
    refine ⟨[_, _], rfl, ?_, ?_⟩
    · rw [asked, Option.some_or]
      exact Contexts.held?_update_self held fun _ => rfl
    · intro late asker live early split
      match late, split with
      | [_], split => cases split
      | _ :: _ :: late, split => simp at split

end Known

/-- Every service other than a call of a contract is a step of the program that asks for it. -/
theorem behaves_serve {request : SyscallRequest} (plain : request.kind ≠ .contractCall)
    (h : Host M) : Served id invoker? request h := by
  cases found : h.contexts.find? id with
  | none => exact served_unknown id invoker? found plain
  | some ctx =>
      by_cases output : request.kind = .setOutput
      · cases request with
        | setOutput response => exact served_setOutput id invoker? found response
        | _ => cases output
      · by_cases args : request.kind = .getCallArgs
        · cases request with
          | getCallArgs => exact served_getCallArgs id invoker? found
          | _ => cases args
        · exact served_unseen id invoker? plain output args

end Serve

end Host

end ContractHost
