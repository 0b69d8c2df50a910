/-
# What the stages of a call do to a host

Around the run of its program a call works behind the stage: it obtains code and prepares a
machine, it gives both up, and drops code in the end. Each of these stages is described here
by what it leaves of contexts, signals and journal, so that statements about these three
need no other knowledge of a call.
-/

import ContractHost.Proofs.Call.Session
import ContractHost.Proofs.Host.Acts

namespace ContractHost

open Script (Machine Module)

/-! ## Compiling -/

namespace Script.Module

/-- A computation of the engine that fails for causes of its own only. -/
def Owned {α : Type} (result : Except EngineError α) : Prop :=
  ∀ e, result = .error e → ∀ error, e ≠ .host error

theorem Owned.bind {α β : Type} {first : Except EngineError α}
    {rest : α → Except EngineError β} (owned : Owned first)
    (next : ∀ x, Owned (rest x)) : Owned (first >>= rest) := by
  intro e failed
  cases first with
  | error _ =>
      cases failed
      exact owned _ rfl
  | ok x => exact next x e failed

theorem owned_pure {α : Type} (x : α) : Owned (pure x) := nofun

theorem owned_link (resolver : Resolver) (module name : String) :
    Owned (link resolver module name) := by
  intro e failed
  unfold link at failed
  split at failed
  · cases failed
  · cases failed
    exact nofun

theorem owned_bindSyscall (resolver : Resolver) (kind : SyscallKind) :
    Owned (bindSyscall resolver kind) := by
  refine (owned_link resolver _ _).bind fun function => ?_
  cases function with
  | syscall bound => exact owned_pure _
  | runtime function =>
      rintro _ ⟨⟩
      exact nofun

/-- Every import has to resolve. -/
theorem owned_imports (resolver : Resolver) (imports : List (String × String)) :
    Owned (forIn imports PUnit.unit fun (module, name) _ => do
      let _ ← link resolver module name
      pure (ForInStep.yield PUnit.unit)) := by
  induction imports with
  | nil => exact owned_pure _
  | cons first rest ih =>
      rw [List.forIn_cons]
      exact ((owned_link resolver _ _).bind fun _ => owned_pure _).bind fun step => by
        cases step with
        | done _ => exact owned_pure _
        | yield _ => exact ih

theorem owned_services (resolver : Resolver) (kinds : List SyscallKind) :
    Owned (kinds.mapM (bindSyscall resolver)) := by
  induction kinds with
  | nil => exact owned_pure _
  | cons kind rest ih =>
      rw [List.mapM_cons]
      exact (owned_bindSyscall resolver _).bind fun _ => ih.bind fun _ => owned_pure _

theorem owned_compile (resolver : Resolver) (bytecode : Bytes) :
    Owned (compile resolver bytecode) := by
  unfold compile
  split
  · exact (owned_imports resolver _).bind fun _ =>
      (owned_services resolver _).bind fun _ => owned_pure _
  · rintro _ ⟨⟩
    exact nofun

end Script.Module

/-- What is no failure of the host itself is a trap or a failure of the engine. -/
theorem EngineError.toHostError_cases {e : EngineError} (own : ∀ error, e ≠ .host error) :
    (∃ trap, e.toHostError = .trap trap) ∨ ∃ reason, e.toHostError = .engine reason := by
  cases e with
  | trap cause => exact .inl ⟨cause, rfl⟩
  | host error => exact absurd rfl (own error)
  | invalidModule reason | other reason => exact .inr ⟨_, rfl⟩

/-- What compiling stored bytecode fails with: the bytecode is missing or empty, or the engine
fails for a cause of its own. -/
theorem Store.error_of_build {store : Store} {contract : String} {e : HostError}
    (failed : store.build contract = .error e) :
    e = .missingCode contract ∨ e = .emptyCode contract ∨
      (∃ trap, e = .trap trap) ∨ ∃ reason, e = .engine reason := by
  unfold Store.build at failed
  split at failed
  · cases failed
    exact .inl rfl
  · next bytecode _ =>
    split at failed
    · cases failed
      exact .inr (.inl rfl)
    · split at failed
      · cases failed
      · next e compiled =>
        cases failed
        have own := Script.Module.owned_compile .standard bytecode e compiled
        exact .inr (.inr (EngineError.toHostError_cases own))

/-- Bytecode that is missing or no module is a failure of the host. -/
theorem Store.isOwn_of_build {store : Store} {contract : String} {e : HostError}
    (failed : store.build contract = .error e) : e.isOwn := by
  obtain rfl | rfl | ⟨_, rfl⟩ | ⟨_, rfl⟩ := Store.error_of_build failed
  all_goals rfl

/-! ## Behind the stage -/

namespace Host

variable {M : Type}

@[simp]
theorem settle_signals (change : Option (CompiledCode M) × CodeCache M) (h : Host M) :
    (h.settle change).signals = h.signals := by
  unfold settle
  cases change.1 <;> rfl

theorem isClearance_of_mem_releases {released? : Option (CompiledCode M)} {event : Event}
    (mem : event ∈ releases released?) : event.isClearance := by
  obtain ⟨_, _, rfl⟩ := List.mem_map.1 mem
  rfl

/-- Machines or code were given up, and nothing else has happened. -/
structure Cleared (h g : Host M) : Prop where
  contexts : g.contexts = h.contexts
  signals : g.signals = h.signals
  told : ∃ events, g.journal = events ++ h.journal ∧ ∀ event ∈ events, event.isClearance

namespace Cleared

variable {h g f : Host M}

theorem refl (h : Host M) : Cleared h h := ⟨rfl, rfl, [], rfl, by simp⟩

theorem trans (first : Cleared h g) (second : Cleared g f) : Cleared h f where
  contexts := second.contexts.trans first.contexts
  signals := second.signals.trans first.signals
  told := by
    obtain ⟨events, journal, clear⟩ := first.told
    obtain ⟨events', journal', clear'⟩ := second.told
    exact ⟨events' ++ events, by rw [journal', journal, List.append_assoc],
      List.forall_mem_append.2 ⟨clear', clear⟩⟩

/-- Nothing else of a host matters. -/
theorem congr (cleared : Cleared h g) (contexts : f.contexts = g.contexts)
    (signals : f.signals = g.signals) (journal : f.journal = g.journal) : Cleared h f :=
  ⟨contexts.trans cleared.contexts, signals.trans cleared.signals, journal ▸ cleared.told⟩

/-- Where running calls stay, no call takes notice. -/
theorem heard (cleared : Cleared h g) (surroundings : g.surroundings = h.surroundings)
    (running : g.running = h.running) : Heard h g := by
  obtain ⟨events, journal, clear⟩ := cleared.told
  exact .of_journal events surroundings running (congrArg _ cleared.contexts) cleared.signals
    journal fun event mem => Event.isSteady_of_isClearance (clear event mem)

end Cleared

/-- From one host to the next only events of a kind were entered into the journal. No call was
forgotten, and nothing but an abort raised a signal. -/
structure Passes (P : Event → Prop) (h g : Host M) : Prop where
  kept : g.contexts.Keeps h.contexts
  handed : h.signals.next ≤ g.signals.next
  told : ∃ events, g.journal = events ++ h.journal ∧ (∀ event ∈ events, P event) ∧
    ((∀ event ∈ events, event.raises = false) → ∀ id, g.signals.reason? id = h.signals.reason? id)

namespace Passes

variable {P : Event → Prop} {h g f : Host M}

theorem trans (first : Passes P h g) (second : Passes P g f) : Passes P h f where
  kept := second.kept.trans first.kept
  handed := Nat.le_trans first.handed second.handed
  told := by
    obtain ⟨events, journal, plain, calm⟩ := first.told
    obtain ⟨events', journal', plain', calm'⟩ := second.told
    refine ⟨events' ++ events, by rw [journal', journal, List.append_assoc],
      List.forall_mem_append.2 ⟨plain', plain⟩, fun unraised id => ?_⟩
    obtain ⟨unraised', unraised⟩ := List.forall_mem_append.1 unraised
    exact (calm' unraised' id).trans (calm unraised id)

/-- A change that enters some events into the journal and raises no signal. -/
theorem of_journal (events : List Event) (kept : g.contexts.Keeps h.contexts)
    (signals : g.signals = h.signals) (journal : g.journal = events ++ h.journal)
    (plain : ∀ event ∈ events, P event) : Passes P h g :=
  ⟨kept, Nat.le_of_eq (congrArg _ signals.symm), events, journal, plain,
    fun _ id => congrArg (·.reason? id) signals⟩

theorem of_backstage (backstage : Backstage h g) (kind : ∀ event, event.isBackstage → P event) :
    Passes P h g where
  kept := by
    rw [backstage.contexts]
    exact .refl h.contexts
  handed := Nat.le_of_eq backstage.handed.symm
  told := by
    obtain ⟨events, journal, plain, calm⟩ := backstage.told
    exact ⟨events, journal, fun event mem => kind event (plain event mem),
      fun unraised id => congrArg (·.reason? id) (calm unraised)⟩

theorem of_acts {id : ContextId} (acts : Acts id h g)
    (kind : ∀ event, event.IsOf id h.contexts.live → P event) : Passes P h g where
  kept := acts.kept
  handed := Nat.le_of_eq acts.handed.symm
  told := by
    obtain ⟨events, journal, own, calm⟩ := acts.told
    exact ⟨events, journal, fun event mem => kind event (own event mem),
      fun unraised id => congrArg (·.reason? id) (calm unraised)⟩

theorem of_cleared (cleared : Cleared h g) (kind : ∀ event, event.isClearance → P event) :
    Passes P h g := by
  obtain ⟨events, journal, clear⟩ := cleared.told
  refine .of_journal events ?_ cleared.signals journal fun event mem => kind event (clear event mem)
  rw [cleared.contexts]
  exact .refl h.contexts

theorem refl (h : Host M) : Passes P h h := .of_journal [] (.refl h.contexts) rfl rfl (by simp)

theorem addLines (h : Host M) (lines : List LogLine) : Passes P h (h.addLines lines) :=
  .of_journal [] (.refl h.contexts) rfl rfl (by simp)

theorem note (h : Host M) {event : Event} (kind : P event) : Passes P h (h.note event) :=
  .of_journal [event] (.refl h.contexts) rfl rfl (by simpa using kind)

/-- Nothing else of a host matters. -/
theorem congr (passes : Passes P h g) (contexts : f.contexts = g.contexts)
    (signals : f.signals = g.signals) (journal : f.journal = g.journal) : Passes P h f where
  kept := contexts ▸ passes.kept
  handed := signals ▸ passes.handed
  told := journal ▸ signals ▸ passes.told

end Passes

theorem cleared_settle (change : Option (CompiledCode M) × CodeCache M) (h : Host M) :
    Cleared h (h.settle change) :=
  ⟨h.settle_contexts change, h.settle_signals change, releases change.1, h.settle_journal change,
    fun _ => isClearance_of_mem_releases⟩

end Host

/-- After the result of a call is entered into the journal, code may be dropped. -/
theorem Manager.cleared_finish {M : Type} (contract : String)
    (result : Except HostError Outcome) (h : Host M) :
    (h.note (.finished contract result)).Cleared (Manager.finish contract result h) := by
  have counted : (h.note (.finished contract result)).Cleared
      (Manager.counted contract result h) := (Host.Cleared.refl _).congr rfl rfl rfl
  exact Manager.finish_induction counted (counted.trans (Host.cleared_settle _ _))

/-- When a call is counted its result is on record, and code may be dropped. -/
theorem Manager.finish_told {M : Type} (contract : String)
    (result : Except HostError Outcome) (h : Host M) :
    ∃ released, (∀ event ∈ released, event = .engine .releaseModule) ∧
      (Manager.finish contract result h).journal =
        (released ++ [.finished contract result]) ++ h.journal := by
  refine ⟨_, ?_, finish_journal contract result h⟩
  split
  · intro event mem
    obtain ⟨_, _, rfl⟩ := List.mem_map.1 mem
    rfl
  · simp

/-- Counting a result is of no account to the calls that go on. -/
theorem Manager.heard_finish {M : Type} (contract : String)
    (result : Except HostError Outcome) (h : Host M) :
    h.Heard (Manager.finish contract result h) :=
  (Host.Heard.note h rfl).trans ((cleared_finish contract result h).heard
    (finish_surroundings contract result h) (finish_running contract result h))

/-- The request of an accepted deployment or invocation. -/
def HostRequest.accepted? : HostRequest → Option CallRequest
  | .deploy fields => (CallRequest.parse fields true).toOption
  | .invoke _ fields => (CallRequest.parse fields false).toOption
  | .abort .. => none

/-- What the fields of a deployment or invocation say. -/
def HostRequest.parsed? : HostRequest → Option (Except HostError CallRequest)
  | .deploy fields => some (CallRequest.parse fields true)
  | .invoke _ fields => some (CallRequest.parse fields false)
  | .abort .. => none

/-- A request is refused for its form. -/
theorem HostRequest.validation_of_parsed {request : HostRequest} {e : HostError}
    (refused : request.parsed? = some (.error e)) : e.errorClass = .validation := by
  cases request with
  | deploy fields => exact CallRequest.validates_parse fields true e (Option.some.inj refused)
  | invoke _ fields => exact CallRequest.validates_parse fields false e (Option.some.inj refused)
  | abort => cases refused

/-- A refusal is no report of a contract. -/
theorem HostRequest.isReport_of_parsed {request : HostRequest} {e : HostError}
    (refused : request.parsed? = some (.error e)) : e.isReport = false := by
  have validation := validation_of_parsed refused
  cases e <;> first | rfl | cases validation

/-- What the call is made with that an accepted request asks for. -/
def HostRequest.setup? : HostRequest → Option CallSetup
  | .deploy fields => (CallRequest.parse fields true).toOption.map CallRequest.initSetup
  | .invoke method fields =>
    (CallRequest.parse fields false).toOption.map fun accepted => accepted.callSetup method
  | .abort .. => none

/-- A call that a request from outside asks for: nobody else asked for it. -/
structure CallRequest.Asks (request : CallRequest) (setup : CallSetup) : Prop where
  contract : setup.contract = request.contract
  caller : setup.caller = request.caller
  depth : setup.depth = 0

namespace Call

variable {h : Host Module} {ctx : Context}

/-- Code is obtained behind the stage, and failing to is a failure of the host. -/
theorem backstage_obtain (load : CodeLoad) (ctx : Context) (h : Host Module) :
    Ends (fun _ => h.Backstage) (fun e g => e.isOwn ∧ h.Backstage g)
      (obtain load ctx h) := by
  have asked := Host.backstage_beforeAccess .get (StoreKey.code ctx.setup.contract) h
  have read : h.Backstage (fetched ctx.setup.contract h) := asked.congr rfl rfl rfl
  unfold obtain
  dsimp only
  cases h.cache.find? ctx.setup.contract with
  | some code =>
      cases load with
      | compile => exact ⟨rfl, .refl h⟩
      | reuse => exact .of_journal [_] rfl rfl rfl (by simp [Event.isBackstage])
  | none =>
      cases h.surroundings.fault? h.accesses .get (StoreKey.code ctx.setup.contract) with
      | some fault => exact ⟨rfl, asked⟩
      | none =>
          dsimp only
          cases built : h.store.build ctx.setup.contract with
          | error e => exact ⟨Store.isOwn_of_build built, read⟩
          | ok result =>
              refine read.trans (.of_journal [_] rfl rfl rfl ?_)
              simp [Event.isBackstage]

/-- Code is obtained behind the stage, and from then on the call can be asked to end. -/
theorem offstage_obtain (load : CodeLoad) (ctx : Context) (h : Host Module) :
    Ends
      (fun _ g => ∃ f digest, h.Offstage f ∧
        g.journal = .obtained ctx.id ctx.setup.contract digest :: f.journal ∧
        g.signals = f.signals ∧ g.running = f.running ∧ g.contexts = f.contexts ∧
        g.surroundings = f.surroundings)
      (fun _ => h.Offstage) (obtain load ctx h) := by
  have asked : h.Offstage (h.beforeAccess .get (StoreKey.code ctx.setup.contract)) :=
    ⟨Host.backstage_beforeAccess .get _ h, Host.Heard.beforeAccess .get _ h⟩
  have read : h.Offstage (fetched ctx.setup.contract h) :=
    ⟨asked.backstage.congr rfl rfl rfl, asked.heard.congr rfl rfl rfl rfl rfl⟩
  unfold obtain
  dsimp only
  cases h.cache.find? ctx.setup.contract with
  | some code =>
      cases load with
      | compile => exact .refl h
      | reuse => exact ⟨h, code.digest, .refl h, rfl, rfl, rfl, rfl, rfl⟩
  | none =>
      cases h.surroundings.fault? h.accesses .get (StoreKey.code ctx.setup.contract) with
      | some fault => exact asked
      | none =>
          dsimp only
          cases h.store.build ctx.setup.contract with
          | error e => exact read
          | ok result => exact ⟨_, _, read, rfl, rfl, rfl, rfl, rfl⟩

theorem isBackstage_of_mem_preparations {event : Event} (mem : event ∈ preparations ctx) :
    event.isBackstage := by
  unfold preparations at mem
  cases Language.ofTag? ctx.setup.language <;> simp at mem <;> aesop

/-- After the usage of a call is entered into the journal, its machine and its code are
given up. -/
theorem cleared_part (id : ContextId) (result : Except HostError Unit) (m : Machine)
    (code : CompiledCode Module) (h : Host Module) :
    (h.note (.measured id result (usage m))).Cleared (part id result m code h) := by
  refine Host.Cleared.trans ?_ (Host.cleared_settle _ _)
  exact ⟨rfl, rfl, [.released id, .engine .closeMachine], rfl, by simp [Event.isClearance]⟩

section Conclude

variable (config : Config) (ctx : Context) (code : CompiledCode Module)
  (result : Except HostError Unit) (m : Machine) (h : Host Module)

theorem conclude_journal :
    ∃ events, (conclude config ctx code result m h).2.journal =
        events ++ .measured ctx.id result (usage m) :: h.journal ∧
      ∀ event ∈ events, event.isClearance := by
  have parted := (cleared_part ctx.id result m code h).told
  cases result with
  | ok _ => exact parted
  | error e => exact parted

@[simp]
theorem conclude_signals : (conclude config ctx code result m h).2.signals = h.signals := by
  have parted := (cleared_part ctx.id result m code h).signals
  cases result with
  | ok _ => exact parted
  | error e => exact parted

/-- Of the calls that are known at most an output is taken. -/
theorem conclude_keeps :
    (conclude config ctx code result m h).2.contexts.Keeps h.contexts := by
  have parted : (part ctx.id result m code h).contexts.Keeps h.contexts := by
    rw [part_contexts]
    exact .refl h.contexts
  cases result with
  | error e => exact parted
  | ok _ =>
      refine .trans ?_ parted
      show (judged config (part ctx.id (.ok ()) m code h).contexts ctx (usage m)).Keeps _
      unfold judged
      dsimp only
      split
      · exact .refl _
      · exact .update _ _ fun _ => ⟨none, rfl⟩

@[simp]
theorem conclude_live :
    (conclude config ctx code result m h).2.contexts.live = h.contexts.live := by
  obtain ⟨contexts, concluded, live, _⟩ := conclude_eq config ctx code result m h
  rw [concluded]
  exact live

/-- Giving up a machine and code is of no account to the calls that go on. -/
theorem heard_conclude : h.Heard (conclude config ctx code result m h).2 := by
  have parted : h.Heard (part ctx.id result m code h) :=
    (Host.Heard.note h rfl).trans ((cleared_part ctx.id result m code h).heard
      (part_surroundings ctx.id result m code h) (part_running ctx.id result m code h))
  obtain ⟨contexts, concluded, live, _⟩ := conclude_eq config ctx code result m h
  rw [concluded]
  exact parted.congr rfl rfl (live.trans parted.live.symm) rfl rfl

end Conclude

/-! ## The stages, as kinds of events -/

section Passes

variable {P : Event → Prop}

theorem passes_invoked {contract : String} (kind : P (.started contract)) (h : Host Module) :
    h.Passes P (invoked contract h) :=
  (Host.Passes.note h kind).congr rfl rfl rfl

theorem passes_beginCall {setup : CallSetup}
    (kind : P (.began h.contexts.next (h.store.peek? (StoreKey.description setup.contract)))) :
    h.Passes P (Manager.beginCall setup h) :=
  .of_journal [_] (.create h.contexts setup) rfl rfl (by simpa using kind)

theorem passes_ready (kind : ∀ event, event.isBackstage → P event) (ctx : Context)
    (h : Host Module) : h.Passes P (ready ctx h) where
  kept := .refl h.contexts
  handed := Nat.le_trans (Nat.le_succ _) (Nat.le_of_eq h.signals.next_issue.symm)
  told := ⟨preparations ctx, rfl, fun event mem => kind event (isBackstage_of_mem_preparations mem),
    fun _ id => h.signals.reason?_issue id⟩

theorem passes_conclude {ctx : Context} {result : Except HostError Unit} {m : Machine}
    (measured : P (.measured ctx.id result (usage m)))
    (kind : ∀ event, event.isClearance → P event) (config : Config) (code : CompiledCode Module)
    (h : Host Module) : h.Passes P (conclude config ctx code result m h).2 := by
  obtain ⟨events, journal, clear⟩ := conclude_journal config ctx code result m h
  refine .of_journal (events ++ [.measured ctx.id result (usage m)])
    (conclude_keeps config ctx code result m h) (conclude_signals config ctx code result m h)
    (by rw [journal, List.append_assoc]; rfl)
    (List.forall_mem_append.2 ⟨?_, by simpa using measured⟩)
  exact fun event mem => kind event (clear event mem)

theorem passes_endCall {id : ContextId} {result : Except HostError Outcome}
    (kind : P (.ended id result)) (h : Host Module) : h.Passes P (Manager.endCall id result h) :=
  .of_journal [.ended id result] (.refl h.contexts) rfl rfl (by simpa using kind)

theorem passes_finish {contract : String} {result : Except HostError Outcome}
    (finished : P (.finished contract result)) (kind : ∀ event, event.isClearance → P event)
    (h : Host Module) : h.Passes P (Manager.finish contract result h) :=
  (Host.Passes.note h finished).trans (.of_cleared (Manager.cleared_finish contract result h) kind)

end Passes

/-! ## Services, as kinds of events -/

section Services

variable {P : Event → Prop} {id : ContextId} {request : SyscallRequest}
  (kind : ∀ event, event.isBackstage → P event) (asked : ∀ live, P (.syscall id request live))
  (answered : ∀ result, P (.answered id request result))

include asked answered in
/-- A service enters the request and the answer into the journal, around what it does. -/
theorem passes_serve_of_answer {invoker? : Option (Invoker Module)} (h : Host Module)
    (inside : (h.note (.syscall id request h.contexts.live)).Passes P
      (runFrom (Syscall.answer invoker? id request)
        (h.note (.syscall id request h.contexts.live))).2) :
    h.Passes P (runFrom (Syscall.serve invoker? id request) h).2 := by
  rw [Host.runFrom_serve]
  exact ((Host.Passes.note h (asked _)).trans inside).trans (.note _ (answered _))

include kind asked answered

/-- Services other than calls of contracts do the rest behind the stage. -/
theorem passes_serve (invoker? : Option (Invoker Module)) (plain : request.kind ≠ .contractCall)
    (h : Host Module) : h.Passes P (runFrom (Syscall.serve invoker? id request) h).2 := by
  apply passes_serve_of_answer asked answered
  generalize h.note (.syscall id request h.contexts.live) = g
  by_cases output : request.kind = .setOutput
  · cases request with
    | setOutput response =>
        cases found : g.contexts.find? id with
        | none =>
            rw [Host.runFrom_answer_unknown found]
            exact .refl g
        | some ctx =>
            unfold Syscall.answer Syscall.setOutput
            rw [runFrom_bind, Host.runFrom_withContext found]
            exact .of_journal [] (.update _ id fun _ => ⟨_, rfl⟩) rfl rfl (by simp)
    | _ => cases output
  · have unseen : g.Unseen (runFrom (Syscall.answer invoker? id request) g).2 :=
      ((Host.unseen_answer id invoker? plain output g).mono (fun _ _ left => left)
        fun _ _ left => left.2).state
    exact .of_backstage unseen.backstage kind

/-- Without an invoker this is true of all services. -/
theorem passes_serve_uninvoked (h : Host Module) :
    h.Passes P (runFrom (Syscall.serve none id request) h).2 := by
  by_cases call : request.kind = .contractCall
  · cases request with
    | contractCall module contract method args =>
        apply passes_serve_of_answer asked answered
        generalize h.note _ = g
        obtain ⟨e, refused⟩ := Host.answer_uninvoked_fails id module contract method args g
        rw [refused]
        exact .refl g
    | _ => cases call
  · exact passes_serve kind asked answered none call h

end Services

/-! ## The journal only grows -/

theorem suffix_ready (ctx : Context) (h : Host Module) : h.journal <:+ (ready ctx h).journal :=
  ⟨preparations ctx, rfl⟩

theorem suffix_conclude (config : Config) (ctx : Context) (code : CompiledCode Module)
    (result : Except HostError Unit) (m : Machine) (h : Host Module) :
    h.journal <:+ (conclude config ctx code result m h).2.journal := by
  obtain ⟨events, journal, _⟩ := conclude_journal config ctx code result m h
  rw [journal]
  exact (List.suffix_cons _ _).trans (List.suffix_append _ _)

theorem suffix_endCall (id : ContextId) (result : Except HostError Outcome) (h : Host Module) :
    h.journal <:+ (Manager.endCall id result h).journal :=
  List.suffix_cons _ _

theorem suffix_finish (contract : String) (result : Except HostError Outcome) (h : Host Module) :
    h.journal <:+ (Manager.finish contract result h).journal := by
  obtain ⟨events, journal, _⟩ := (Manager.cleared_finish contract result h).told
  rw [journal]
  exact (List.suffix_cons _ _).trans (List.suffix_append _ _)

/-! ## Requests -/

/-- Writing a key of the store happens behind the stage. -/
theorem offstage_putKey (key value : Bytes) (h : Host Module) :
    Ends (fun _ => h.Offstage) (fun _ => h.Offstage) (runFrom (HostM.putKey key value) h) :=
  Host.Offstage.access .put key (fun store => ((), store.put key value)) h

/-- How a request is served: it is refused, or it is counted and fails over a write of the
store, or a call is made for it. Only an abort is neither. -/
theorem serve_cases (config : Config) (h : Host Module) (request : HostRequest)
    {P : Option (Except HostError Outcome) → Host Module → Prop}
    (aborted : ∀ contract message, request = .abort contract message →
      P none (h.abortRunning contract message))
    (refused : ∀ e, request.parsed? = some (.error e) → P (some (.error e)) h)
    (unwritten : ∀ accepted fault g, request.accepted? = some accepted →
      (h.note (.started accepted.contract)).Offstage g →
      P (some (.error (.storage fault)))
        (Manager.finish accepted.contract (.error (.storage fault)) g))
    (called : ∀ accepted load setup g, request.accepted? = some accepted →
      request.setup? = some setup → accepted.Asks setup →
      (h.note (.started accepted.contract)).Offstage g →
      let p := run config (outermost config) load (created setup g) (Manager.beginCall setup g)
      P (some p.1) (Manager.finish accepted.contract p.1 p.2)) :
    let p := (Manager.scripted config).serve h request
    P p.1 p.2 := by
  cases request with
  | deploy fields =>
      show P (some (runFrom ((Manager.scripted config).deploy fields) h).1)
        (runFrom ((Manager.scripted config).deploy fields) h).2
      rw [runFrom_deploy]
      cases parsed : CallRequest.parse fields true with
      | error e => exact refused e (congrArg some parsed)
      | ok accepted =>
          have known : HostRequest.accepted? (.deploy fields) = some accepted := by
            simp [HostRequest.accepted?, parsed, Except.toOption]
          have made : HostRequest.setup? (.deploy fields) = some accepted.initSetup := by
            simp [HostRequest.setup?, parsed, Except.toOption]
          have counted : (h.note (.started accepted.contract)).Offstage
              (deploying accepted.contract h) :=
            ⟨(Host.Backstage.refl _).congr rfl rfl rfl, (Host.Heard.refl _).congr rfl rfl rfl rfl rfl⟩
          have written := offstage_putKey (StoreKey.code accepted.contract) accepted.code
            (deploying accepted.contract h)
          dsimp only
          rw [runFrom_deployAccepted]
          revert written
          rcases runFrom (HostM.putKey (StoreKey.code accepted.contract) accepted.code) _ with
            ⟨fault | _, g⟩
          · exact fun written => unwritten accepted fault g known (counted.trans written)
          · intro written
            have described := offstage_putKey (StoreKey.description accepted.contract)
              (Utf8.encode accepted.language) g
            revert described
            dsimp only
            rcases runFrom (HostM.putKey (StoreKey.description accepted.contract) _) g with
              ⟨fault | _, f⟩
            · exact fun described =>
                unwritten accepted fault f known ((counted.trans written).trans described)
            · exact fun described => called accepted .compile accepted.initSetup f known made
                ⟨rfl, rfl, rfl⟩ ((counted.trans written).trans described)
  | invoke method fields =>
      show P (some (runFrom ((Manager.scripted config).invokeContract method fields) h).1)
        (runFrom ((Manager.scripted config).invokeContract method fields) h).2
      rw [runFrom_invokeContract]
      cases parsed : CallRequest.parse fields false with
      | error e => exact refused e (congrArg some parsed)
      | ok accepted =>
          have known : HostRequest.accepted? (.invoke method fields) = some accepted := by
            simp [HostRequest.accepted?, parsed, Except.toOption]
          have made : HostRequest.setup? (.invoke method fields) =
              some (accepted.callSetup method) := by
            simp [HostRequest.setup?, parsed, Except.toOption]
          exact called accepted .reuse (accepted.callSetup method) (invoked accepted.contract h)
            known made ⟨rfl, rfl, rfl⟩
            ⟨(Host.Backstage.refl _).congr rfl rfl rfl, (Host.Heard.refl _).congr rfl rfl rfl rfl rfl⟩
  | abort contract message => exact aborted contract message rfl

end Call

end ContractHost
