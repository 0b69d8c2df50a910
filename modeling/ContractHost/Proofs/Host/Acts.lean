/-
# What a program does by itself

Between its beginning and its end, and apart from the calls that it makes, a program does
little to its host: it works on data of its contract, sets outputs, writes debug output,
and enters what it does into the journal under its own context. Behind its back aborts may
arrive with every access of the store. Other work of a host is done behind the stage only,
such as obtaining code and giving up machines: no context changes by that.

Signals are raised by aborts only, and the journal tells which aborts raised any.
-/

import ContractHost.Proofs.Context
import ContractHost.Proofs.Host.Aborts

namespace ContractHost

namespace Event

/-- True of the aborts that found a call to end. -/
def raises : Event → Bool
  | .abort _ _ signalled _ => signalled != 0
  | _ => false

/-- True of the events by which machines and code are given up. -/
def isClearance : Event → Bool
  | .engine _ | .released _ => true
  | _ => false

theorem isBackstage_of_isClearance {event : Event} (clears : event.isClearance) :
    event.isBackstage := by
  cases event <;> first | rfl | cases clears

theorem isSteady_of_isClearance {event : Event} (clears : event.isClearance) :
    event.isSteady := by
  cases event <;> first | rfl | cases clears

/-- What a program enters into the journal while some contexts are live, and what goes on
behind the stage meanwhile. The answer to a call of a contract is not among it. -/
def IsOf (id : ContextId) (live : List ContextId) : Event → Prop
  | .operation context? _ => context? = some id
  | .syscall context _ alive => context = id ∧ alive = live
  | .answered context request _ => context = id ∧ request.kind ≠ .contractCall
  | event => event.isBackstage

theorem isOf_of_isBackstage {id : ContextId} {live : List ContextId} {event : Event}
    (backstage : event.isBackstage) : event.IsOf id live := by
  cases event with
  | operation => cases backstage
  | syscall => cases backstage
  | answered => cases backstage
  | _ => exact backstage

end Event

/-- What a store answers is still there. -/
theorem Store.peek?_of_get? {store : Store} {key value : Bytes}
    (answered : (store.get? key).1 = some value) : (store.get? key).2.peek? key = some value := by
  rw [peek?_get?, ← get?_fst, answered]

namespace Host

variable {M : Type}

/-- A change behind the stage. -/
structure Backstage (h g : Host M) : Prop where
  contexts : g.contexts = h.contexts
  handed : g.signals.next = h.signals.next
  told : ∃ events, g.journal = events ++ h.journal ∧ (∀ event ∈ events, event.isBackstage) ∧
    ((∀ event ∈ events, event.raises = false) → g.signals = h.signals)

namespace Backstage

variable {h g f : Host M}

theorem refl (h : Host M) : Backstage h h := ⟨rfl, rfl, [], rfl, by simp, fun _ => rfl⟩

theorem trans (first : Backstage h g) (second : Backstage g f) : Backstage h f where
  contexts := second.contexts.trans first.contexts
  handed := second.handed.trans first.handed
  told := by
    obtain ⟨events, journal, backstage, calm⟩ := first.told
    obtain ⟨events', journal', backstage', calm'⟩ := second.told
    refine ⟨events' ++ events, by rw [journal', journal, List.append_assoc],
      List.forall_mem_append.2 ⟨backstage', backstage⟩, fun unraised => ?_⟩
    obtain ⟨unraised', unraised⟩ := List.forall_mem_append.1 unraised
    exact (calm' unraised').trans (calm unraised)

/-- A change that touches neither contexts nor signals, and enters work behind the stage
into the journal. -/
theorem of_journal (events : List Event) (contexts : g.contexts = h.contexts)
    (signals : g.signals = h.signals) (journal : g.journal = events ++ h.journal)
    (backstage : ∀ event ∈ events, event.isBackstage) : Backstage h g :=
  ⟨contexts, congrArg _ signals, events, journal, backstage, fun _ => signals⟩

/-- The journal only grows. -/
theorem grows (backstage : Backstage h g) : h.journal <:+ g.journal := by
  obtain ⟨events, journal, _⟩ := backstage.told
  exact ⟨events, journal.symm⟩

/-- Nothing else of a host matters. -/
theorem congr (backstage : Backstage h g) (contexts : f.contexts = g.contexts)
    (signals : f.signals = g.signals) (journal : f.journal = g.journal) : Backstage h f where
  contexts := contexts.trans backstage.contexts
  handed := signals ▸ backstage.handed
  told := journal ▸ signals ▸ backstage.told

end Backstage

@[simp]
theorem abortRunning_next (contract message : String) (h : Host M) :
    (h.abortRunning contract message).signals.next = h.signals.next :=
  Signals.next_raiseAll (h.runningOf contract) message h.signals

/-- An abort raises the signals of the calls that it found. -/
theorem backstage_receiveAbort (h : Host M) (abort : String × String) :
    Backstage h (h.receiveAbort abort) where
  contexts := rfl
  handed := h.abortRunning_next abort.1 abort.2
  told := by
    refine ⟨[_], rfl, by simp [Event.isBackstage], fun unraised => ?_⟩
    have none : (h.runningOf abort.1).length = 0 := by
      simpa [Event.raises] using unraised
    show (h.runningOf abort.1).foldl _ h.signals = h.signals
    rw [List.length_eq_zero_iff.1 none]
    rfl

theorem backstage_beforeAccess (op : StoreOp) (key : Bytes) (h : Host M) :
    Backstage h (h.beforeAccess op key) := by
  have arrive (aborts : List (String × String)) (g : Host M) :
      Backstage g (aborts.foldl receiveAbort g) := by
    induction aborts generalizing g with
    | nil => exact .refl g
    | cons abort rest ih => exact (backstage_receiveAbort g abort).trans (ih _)
  refine Backstage.trans ?_ (arrive _ _)
  exact .of_journal [.access op key] rfl rfl rfl (by simp [Event.isBackstage])

/-- An access of the store happens behind the stage. -/
theorem backstage_access {α : Type} (op : StoreOp) (key : Bytes) (use : Store → α × Store)
    (h : Host M) :
    Ends (fun _ => Backstage h) (fun _ => Backstage h) (runFrom (HostM.access op key use) h) :=
  access_ends (fun _ => backstage_beforeAccess op key h)
    ((backstage_beforeAccess op key h).congr rfl rfl rfl)

/-- A change behind the stage in which nothing but aborts happens to calls. -/
structure Offstage (h g : Host M) : Prop where
  backstage : Backstage h g
  heard : Heard h g

namespace Offstage

variable {h g f : Host M}

theorem refl (h : Host M) : Offstage h h := ⟨.refl h, .refl h⟩

theorem trans (first : Offstage h g) (second : Offstage g f) : Offstage h f :=
  ⟨first.backstage.trans second.backstage, first.heard.trans second.heard⟩

/-- An access of the store happens behind the stage. -/
theorem access {α : Type} (op : StoreOp) (key : Bytes) (use : Store → α × Store) (h : Host M) :
    Ends (fun _ => Offstage h) (fun _ => Offstage h) (runFrom (HostM.access op key use) h) :=
  ((backstage_access op key use h).and (Heard.access op key use h)).mono
    (fun _ _ both => ⟨both.1, both.2⟩) fun _ _ both => ⟨both.1, both.2⟩

end Offstage

/-- A quiet change of which a program sees nothing but the answer. -/
structure Unseen (h g : Host M) : Prop extends Offstage h g where
  quiet : Quiet h g

theorem Unseen.refl (h : Host M) : Unseen h h := ⟨.refl h, .refl h⟩

/-- A quiet access of the store is not seen. -/
theorem unseen_access {α : Type} {op : StoreOp} {key : Bytes} {use : Store → α × Store}
    {h : Host M}
    (quiet : Ends (fun _ => Quiet h) (fun _ => Quiet h) (runFrom (HostM.access op key use) h)) :
    Ends (fun _ => Unseen h) (fun _ => Unseen h) (runFrom (HostM.access op key use) h) :=
  ((Offstage.access op key use h).and quiet).mono
    (fun _ _ both => ⟨both.1, both.2⟩) fun _ _ both => ⟨both.1, both.2⟩

/-- What the program of a context does to its host by itself. -/
structure Acts (id : ContextId) (h g : Host M) : Prop extends Quiet h g where
  size : g.contexts.created.size = h.contexts.created.size
  kept : g.contexts.Keeps h.contexts
  handed : g.signals.next = h.signals.next
  heard : Heard h g
  told : ∃ events, g.journal = events ++ h.journal ∧
    (∀ event ∈ events, event.IsOf id h.contexts.live) ∧
    ((∀ event ∈ events, event.raises = false) → g.signals = h.signals)

namespace Acts

variable {id : ContextId} {h g f : Host M}

/-- What is not seen may be the doing of any program. -/
theorem of_unseen (unseen : Unseen h g) : Acts id h g where
  toQuiet := unseen.quiet
  size := by rw [unseen.backstage.contexts]
  kept := by
    rw [unseen.backstage.contexts]
    exact .refl h.contexts
  handed := unseen.backstage.handed
  heard := unseen.heard
  told := by
    obtain ⟨events, journal, plain, calm⟩ := unseen.backstage.told
    exact ⟨events, journal, fun event mem => Event.isOf_of_isBackstage (plain event mem), calm⟩

theorem refl (h : Host M) : Acts id h h := of_unseen (.refl h)

theorem trans (first : Acts id h g) (second : Acts id g f) : Acts id h f where
  toQuiet := first.toQuiet.trans second.toQuiet
  size := second.size.trans first.size
  kept := second.kept.trans first.kept
  handed := second.handed.trans first.handed
  heard := first.heard.trans second.heard
  told := by
    obtain ⟨events, journal, own, calm⟩ := first.told
    obtain ⟨events', journal', own', calm'⟩ := second.told
    rw [first.live] at own'
    refine ⟨events' ++ events, by rw [journal', journal, List.append_assoc],
      List.forall_mem_append.2 ⟨own', own⟩, fun unraised => ?_⟩
    obtain ⟨unraised', unraised⟩ := List.forall_mem_append.1 unraised
    exact (calm' unraised').trans (calm unraised)

/-- An entry into the journal. -/
theorem note (h : Host M) {event : Event} (inner : event.isInner)
    (own : event.IsOf id h.contexts.live) (steady : event.isSteady) :
    Acts id h (h.note event) where
  toQuiet := .note h inner
  size := rfl
  kept := .refl h.contexts
  handed := rfl
  heard := .note h steady
  told := ⟨[event], rfl, by simpa using own, fun _ => rfl⟩

theorem dispatch (h : Host M) (request : SyscallRequest) :
    Acts id h (h.note (.syscall id request h.contexts.live)) :=
  note h rfl ⟨rfl, rfl⟩ rfl

/-- The answer to a request other than a call of a contract is entered. -/
theorem answered (h : Host M) {request : SyscallRequest} (plain : request.kind ≠ .contractCall)
    (result : Except HostError SyscallResponse) :
    Acts id h (h.note (.answered id request result)) :=
  note h rfl ⟨rfl, plain⟩ rfl

theorem addLines (h : Host M) (lines : List LogLine) : Acts id h (h.addLines lines) where
  toQuiet := .addLines h lines
  size := rfl
  kept := .refl h.contexts
  handed := rfl
  heard := .of_journal [] rfl rfl rfl rfl rfl (by simp)
  told := ⟨[], rfl, by simp, fun _ => rfl⟩

theorem setOutput (h : Host M) (response : Response) :
    Acts id h { h with contexts := h.contexts.update id (Context.setOutput response) } where
  toQuiet := .update h id fun _ => rfl
  size := Array.size_modify
  kept := .update h.contexts id fun _ => ⟨_, rfl⟩
  handed := rfl
  heard := .of_journal [] rfl rfl rfl rfl rfl (by simp)
  told := ⟨[], rfl, by simp, fun _ => rfl⟩

theorem grows (acts : Acts id h g) : h.journal <:+ g.journal := by
  obtain ⟨events, journal, _⟩ := acts.told
  exact ⟨events, journal.symm⟩

/-- The contexts that can be reached stay those of the same calls. -/
theorem find? (acts : Acts id h g) {other : ContextId} {ctx : Context}
    (found : h.contexts.find? other = some ctx) :
    ∃ output, g.contexts.find? other = some { ctx with output } := by
  obtain ⟨output, held⟩ := acts.kept other ctx (Contexts.held?_of_find? found)
  exact ⟨output, Contexts.find?_of_held? held (acts.live ▸ Contexts.mem_live_of_find? found)⟩

end Acts

/-! ## Services -/

/-- A run that leaves a host in a way, and does not fail with the report of a contract or
over the form of a request. -/
abbrev Modest {α : Type} (Left : Host M → Prop) (p : Except HostError α × Host M) : Prop :=
  Ends (fun _ => Left) (fun e g => e.isOwn ∧ Left g) p

section Services

variable {id : ContextId} {h : Host M} {Left : Host M → Prop} {α : Type}

/-- A failure of the store is one of the host. -/
theorem modest_storage {action : HostM M StoreError α}
    (left : Ends (fun _ => Left) (fun _ => Left) (runFrom action h)) :
    Modest Left (runFrom (action.mapError HostError.storage) h) :=
  Ends.mapError (left.mono (fun _ _ left => left) fun _ _ left => ⟨rfl, left⟩)

/-- The context that asks is looked up first. -/
theorem modest_withContext {rest : Context → HostM M HostError α} (left : Left h)
    (use : ∀ ctx, h.contexts.find? id = some ctx → Modest Left (runFrom (rest ctx) h)) :
    Modest Left (runFrom (Syscall.requireContext id >>= rest) h) := by
  cases found : h.contexts.find? id with
  | some ctx =>
      rw [runFrom_withContext found]
      exact use ctx found
  | none =>
      rw [runFrom_withoutContext found]
      exact ⟨rfl, left⟩

theorem modest_bind_pure {β : Type} {action : HostM M HostError α} {f : α → β}
    (modest : Modest Left (runFrom action h)) :
    Modest Left (runFrom (action >>= fun x => pure (f x)) h) :=
  Ends.bind modest fun _ _ left => left

/-- Nothing is seen of services that neither call a contract nor set an output, except for
their answers. -/
theorem unseen_answer (id : ContextId) (invoker? : Option (Invoker M)) {request : SyscallRequest}
    (plain : request.kind ≠ .contractCall) (other : request.kind ≠ .setOutput) (h : Host M) :
    Modest (Unseen h) (runFrom (Syscall.answer invoker? id request) h) := by
  have refl := Unseen.refl h
  cases request with
  | putObject key value =>
      refine modest_bind_pure (modest_withContext refl fun ctx found => ?_)
      cases value with
      | none => exact ⟨rfl, refl⟩
      | some value =>
          exact modest_storage (unseen_access (putKey_quiet (ownsKey_of_find? found key) value))
  | getObject key =>
      refine modest_bind_pure (modest_withContext refl fun ctx found => ?_)
      refine Ends.bind (modest_storage (unseen_access (getKey_quiet _ h))) fun value? g unseen => ?_
      cases value? with
      | none => exact ⟨rfl, unseen⟩
      | some value => exact unseen
  | deleteObject key =>
      refine modest_bind_pure (modest_withContext refl fun ctx found => ?_)
      exact modest_storage (unseen_access (deleteKey_quiet (ownsKey_of_find? found key)))
  | getCallArgs => exact modest_bind_pure (modest_withContext refl fun ctx _ => refl)
  | setOutput response => exact absurd rfl other
  | transfer payer payee amount =>
      exact modest_bind_pure (modest_withContext refl fun ctx _ => refl)
  | contractCall => exact absurd rfl plain

/-- Services other than calls of contracts do no more than the program itself may do. -/
theorem modest_answer (id : ContextId) (invoker? : Option (Invoker M))
    {request : SyscallRequest} (plain : request.kind ≠ .contractCall) (h : Host M) :
    Modest (Acts id h) (runFrom (Syscall.answer invoker? id request) h) := by
  by_cases output : request.kind = .setOutput
  · cases request with
    | setOutput response =>
        exact modest_bind_pure (modest_withContext (.refl h) fun ctx _ => Acts.setOutput h response)
    | _ => cases output
  · exact (unseen_answer id invoker? plain output h).mono (fun _ _ => Acts.of_unseen)
      fun _ _ => And.imp_right Acts.of_unseen

/-- The language of a contract is the text of its description in the store. -/
theorem unseen_contractLanguage (contract : String) (h : Host M) :
    Ends
      (fun language g => Unseen h g ∧
        ∃ tag, g.store.peek? (StoreKey.description contract) = some tag ∧
          Utf8.decode tag = .ok language)
      (fun e g => e.isOwn ∧ Unseen h g)
      (runFrom (HostM.contractLanguage contract : HostM M HostError String) h) := by
  have read : Ends (fun tag? g => Unseen h g ∧
        ∀ tag, tag? = some tag → g.store.peek? (StoreKey.description contract) = some tag)
      (fun e g => e.isOwn ∧ Unseen h g)
      (runFrom ((HostM.getKey (StoreKey.description contract)).mapError HostError.storage) h) := by
    have unseen : Ends (fun _ => Unseen h) (fun _ => Unseen h)
        (runFrom (HostM.getKey (StoreKey.description contract)) h) :=
      unseen_access (getKey_quiet _ h)
    have kept : Ends (fun tag? g => ∀ tag, tag? = some tag →
          g.store.peek? (StoreKey.description contract) = some tag) (fun _ _ => True)
        (runFrom (HostM.getKey (StoreKey.description contract)) h) :=
      access_ends (fun _ => trivial) fun _ => Store.peek?_of_get?
    exact Ends.mapError ((unseen.and kept).mono (fun _ _ both => both) fun _ _ both => ⟨rfl, both.1⟩)
  unfold HostM.contractLanguage
  refine Ends.bind read fun tag? g ⟨unseen, kept⟩ => ?_
  cases tag? with
  | none => exact ⟨rfl, unseen⟩
  | some tag =>
      dsimp only
      cases decoded : Utf8.decode tag with
      | ok language => exact ⟨unseen, tag, kept tag rfl, decoded⟩
      | error fault => exact ⟨rfl, unseen⟩

end Services

end Host

end ContractHost
