/-
# The course of a call

What is said of a host throughout a call, with all the calls inside it, has to survive
what programs do by themselves, and the beginning and end of every call that they make.
This module says exactly which steps these are and draws the conclusion for whole trees
of calls.

A condition is given in frames, one for every call that is running. In the frame of a call
it may speak of what the host was when the call began. A call that a program makes is one
step to it, from the request to the answer: what the call used is charged by then, and the
answer stands in the journal.
-/

import ContractHost.Proofs.Call.Stages
import ContractHost.Proofs.Host.Behaves
import ContractHost.Proofs.Script.Lockstep

namespace ContractHost

open Script (Machine Module)

/-- The request by which a program asks for a call. -/
def CallSetup.request (setup : CallSetup) (args : List ArgPair) : SyscallRequest :=
  .contractCall SyscallRequest.contractModule setup.contract setup.method args

namespace Call

/-- What is known of a call that a running call asks for when it is about to begin. -/
structure Asked (config : Config) (id : ContextId) (setup : CallSetup) (h : Host Module) :
    Prop where
  caller : ∃ ctx, h.contexts.find? id = some ctx ∧ setup.caller = ctx.setup.contract ∧
    setup.depth = ctx.setup.depth + 1
  bounded : setup.depth ≤ config.maxCallDepth.toNat
  named : Naming.validate setup.contract = .ok ()

/-- A program has just asked for a service, and since then something has happened behind the
stage only. -/
def Dispatched (id : ContextId) (request : SyscallRequest) (h : Host Module) : Prop :=
  ∃ behind live before, h.journal = behind ++ .syscall id request live :: before ∧
    ∀ event ∈ behind, event.isBackstage

theorem Dispatched.backstage {id : ContextId} {request : SyscallRequest} {h g : Host Module}
    (dispatched : Dispatched id request h) (backstage : h.Backstage g) :
    Dispatched id request g := by
  obtain ⟨behind, live, before, journal, plain⟩ := dispatched
  obtain ⟨events, journal', plain', _⟩ := backstage.told
  exact ⟨events ++ behind, live, before, by rw [journal', journal, List.append_assoc],
    List.forall_mem_append.2 ⟨plain', plain⟩⟩

/-- A call that a running call asked for with some arguments is about to begin. Its
language is what the store says. -/
structure Requested (config : Config) (id : ContextId) (args : List ArgPair) (setup : CallSetup)
    (h : Host Module) : Prop extends Asked config id setup h where
  dispatched : Dispatched id (setup.request args) h
  args : setup.args = Arguments.ofPairs args
  language : ∃ tag, h.store.peek? (StoreKey.description setup.contract) = some tag ∧
    Utf8.decode tag = .ok setup.language

/-- The host when a call was answered to the call that made it. -/
def replied (id : ContextId) (request : SyscallRequest) (response : Response) (used : Resources)
    (h : Host Module) : Host Module :=
  { h with contexts := h.contexts.update id (Context.addNestedUsage used) }.note
    (.answered id request (.ok (.response response)))

/-- A running call and the calls around it, innermost first. -/
structure Nest where
  context : ContextId
  outer : List ContextId

/-- What is said of a host inside a call, while its program runs and once it has failed.
The frames tell running calls apart; a frame knows the context of its call. -/
structure Condition (ι : Type) where
  context : ι → ContextId
  Holds : ι → Host Module → Prop
  Broken : ι → HostError → Host Module → Prop

/-- How the program of a call is done for which code was obtained: it was entered when the call
was ready, with room for some calls inside it, and left a machine and a host with a result. An
abort overrules what it came to. If it ran to its end, it is within the limit of its gas. -/
structure Ran (config : Config) (ctx : Context) (code : CompiledCode Module) (g : Host Module)
    (result : Except HostError Unit) (m : Machine) (f : Host Module) : Prop where
  entered : ∃ room, enter ((Manager.scripted config).nestedCall room)
    (instanceOn config ctx code g.signals.next) (ready ctx g) =
      ((overruled f.signals g.signals.next result, m), f)
  metered : result = .ok () → m.gasUsed ≤ config.gasLimit

namespace Condition

variable {ι : Type} (C : Condition ι)

/-- The condition when something inside a call has ended with a result. -/
def Ended {α : Type} (frame : ι) : Except HostError α → Host Module → Prop
  | .ok _ => C.Holds frame
  | .error e => C.Broken frame e

/-- The condition when a call was answered to the call that made it. A failure that the
called contract reports is an answer, and what the call used is charged. Any other failure
fails the call that made it. -/
def Answered (frame : ι) (request : SyscallRequest) :
    Except HostError Outcome → Host Module → Prop
  | .ok outcome, h =>
    C.Holds frame (replied (C.context frame) request outcome.response outcome.resources h)
  | .error (.contract response used _), h =>
    C.Holds frame (replied (C.context frame) request response used h)
  | .error e, h => C.Broken frame e (h.note (.answered (C.context frame) request (.error e)))

/-- Where a failed call is as good as any other, so is everything that has ended. -/
theorem ended_iff {α : Type} {frame : ι} (plain : ∀ e h, C.Broken frame e h ↔ C.Holds frame h)
    {result : Except HostError α} {h : Host Module} :
    C.Ended frame result h ↔ C.Holds frame h := by
  cases result with
  | ok _ => exact Iff.rfl
  | error e => exact plain e h

/-- A call that has its context begins well: it comes by its code, the condition then holds
in a frame of the call, and from however the program is done and leaves it there, the end of
the call leads to what is asked for. Or it fails. -/
def Begins (config : Config) (Closed : Except HostError Outcome → Host Module → Prop)
    (load : CodeLoad) (ctx : Context) (h : Host Module) : Prop :=
  Ends
    (fun code g => ∃ frame, C.context frame = ctx.id ∧ C.Holds frame (ready ctx g) ∧
      ∀ result m f, C.Ended frame result f → Ran config ctx code g result m f →
        let p := conclude config ctx code (overruled f.signals g.signals.next result) m f
        Closed p.1 (Manager.endCall ctx.id p.1 p.2))
    (fun e g => Closed (.error e) (Manager.endCall ctx.id (.error e) g))
    (obtain load ctx h)

/-- An invoker serves the calls of a running call, from the request to the answer. -/
def Serves (nested : Invoker Module) : Prop :=
  ∀ ⦃frame h ctx⦄ contract method args, h.contexts.find? (C.context frame) = some ctx →
    C.Holds frame h →
    let request := .contractCall SyscallRequest.contractModule contract method args
    Dispatched (C.context frame) request h →
    Ends (fun x g => C.Holds frame (replied (C.context frame) request x.1 x.2 g))
      (fun e g => C.Broken frame e (g.note (.answered (C.context frame) request (.error e))))
      (runFrom (nested ctx contract method (Arguments.ofPairs args)) h)

/-- What two runs of the program of a call have to do with each other: they are one. -/
def accord (config : Config) (frame : ι) : Script.Accord where
  context := C.context frame
  gasLimit := config.gasLimit
  Same h k := h = k ∧ C.Holds frame h
  Broken e h k := h = k ∧ C.Broken frame e h

variable {C}

/-- To begin well it is enough to follow a call through its stages: it may fail to obtain
code, it enters its program in a frame of its own, and it ends. -/
theorem Begins.of_stages {config : Config}
    {Closed : Except HostError Outcome → Host Module → Prop} {load : CodeLoad} {ctx : Context}
    {h : Host Module} (frame : ι) (framed : C.context frame = ctx.id)
    (unable : ∀ e g, e.isOwn → h.Backstage g →
      Closed (.error e) (Manager.endCall ctx.id (.error e) g))
    (entered : ∀ g, h.Backstage g → C.Holds frame (ready ctx g))
    (ended : ∀ code g result m f, h.Backstage g → C.Ended frame result f →
      Ran config ctx code g result m f →
      let p := conclude config ctx code (overruled f.signals g.signals.next result) m f
      Closed p.1 (Manager.endCall ctx.id p.1 p.2)) :
    C.Begins config Closed load ctx h := by
  refine (backstage_obtain load ctx h).mono ?_ ?_
  · intro code g backstage
    exact ⟨frame, framed, entered g backstage, fun result m f => ended code g result m f backstage⟩
  · exact fun e g ⟨own, backstage⟩ => unable e g own backstage

end Condition

/-- Why a call of a contract may be refused: for a cause of the host, or because there can be
no contract of that name. -/
def Refuses (module contract : String) (e : HostError) : Prop :=
  e.isOwn ∨ module = SyscallRequest.contractModule ∧ Naming.validate contract = .error e

theorem Refuses.isReport {module contract : String} {e : HostError}
    (refuses : Refuses module contract e) : e.isReport = false := by
  rcases refuses with own | ⟨_, refused⟩
  · exact HostError.isReport_of_isOwn own
  · unfold Naming.validate at refused
    split at refused
    · cases refused
    · cases refused
      rfl

/-- A condition is upheld by all that happens in calls. -/
structure Upheld {ι : Type} (config : Config) (C : Condition ι) : Prop where
  broken : ∀ {frame h} e, e.isOwn → C.Holds frame h → C.Broken frame e h
  acted : ∀ {frame h g}, h.Behaves (C.context frame) g → C.Holds frame h → C.Holds frame g
  refused : ∀ {frame h} module contract method args e, Refuses module contract e →
    C.Holds frame h → C.Broken frame e
      (h.note (.answered (C.context frame) (.contractCall module contract method args) (.error e)))
  called : ∀ {frame h setup args}, Requested config (C.context frame) args setup h →
    C.Holds frame h → C.Begins config
      (fun result g =>
        C.Answered frame (setup.request args) result (Manager.finish setup.contract result g))
      .reuse (created setup (invoked setup.contract h))
      (Manager.beginCall setup (invoked setup.contract h))

/-- A signal that was not raised overrules nothing. -/
theorem overruled_of_unraised {signals : Signals} {signal : SignalId}
    (unraised : signals.reason? signal = none) (result : Except HostError Unit) :
    overruled signals signal result = result := by
  unfold overruled Signals.trap?
  rw [unraised]
  rfl

/-- What a program came to stands, or the call was asked to end. -/
theorem overruled_cases (signals : Signals) (signal : SignalId) (result : Except HostError Unit) :
    overruled signals signal result = result ∨
      ∃ reason, overruled signals signal result = .error (.trap (.aborted reason)) := by
  unfold overruled Signals.trap?
  cases signals.reason? signal with
  | none => exact .inl rfl
  | some reason => exact .inr ⟨reason, rfl⟩

/-- Only a language that nobody knows keeps a call from entering its program. -/
theorem unsupported_of_entryPoint {inst : Instance Module Machine} {e : HostError}
    (failed : inst.entryPoint = .error e) : e = .unsupportedLanguage inst.setup.language := by
  unfold Instance.entryPoint Language.ofTag at failed
  cases tag : Language.ofTag? inst.setup.language with
  | some language => simp [tag, bind, Except.bind] at failed; cases failed
  | none =>
      simp [tag, bind, Except.bind] at failed
      exact failed.symm

theorem isOwn_of_entryPoint {inst : Instance Module Machine} {e : HostError}
    (failed : inst.entryPoint = .error e) : e.isOwn := by
  rw [unsupported_of_entryPoint failed]
  rfl

/-- What holds once the answer to a request is entered into the journal holds when the
request is served. -/
theorem ends_serve {invoker? : Option (Invoker Module)} {id : ContextId} {request : SyscallRequest}
    {h : Host Module} {Ok : SyscallResponse → Host Module → Prop}
    {Fail : HostError → Host Module → Prop}
    (answered : Ends (fun x g => Ok x (g.note (.answered id request (.ok x))))
      (fun e g => Fail e (g.note (.answered id request (.error e))))
      (runFrom (Syscall.answer invoker? id request)
        (h.note (.syscall id request h.contexts.live)))) :
    Ends Ok Fail (runFrom (Syscall.serve invoker? id request) h) := by
  rw [Host.runFrom_serve]
  match runFrom (Syscall.answer invoker? id request) _, answered with
  | (.ok _, _), ok => exact ok
  | (.error _, _), fail => exact fail

namespace Upheld

variable {ι : Type} {config : Config} {C : Condition ι} (up : Upheld config C)
  {nested : Invoker Module} {frame : ι} {h : Host Module}

include up

/-- A service other than a call is served. -/
theorem plain (holds : C.Holds frame h) {request : SyscallRequest}
    (plain : request.kind ≠ .contractCall) :
    Ends (fun _ => C.Holds frame) (fun e g => e.isOwn ∧ C.Holds frame g)
      (runFrom (Syscall.serve (some nested) (C.context frame) request) h) :=
  (Host.behaves_serve (C.context frame) (some nested) plain h).mono
    (fun _ _ behaves => up.acted behaves holds)
    fun _ _ ⟨own, behaves⟩ => ⟨own, up.acted behaves holds⟩

/-- A call of a contract is answered. -/
theorem contractCall (serves : C.Serves nested) (holds : C.Holds frame h)
    (module contract method : String) (args : List ArgPair)
    (asked : Dispatched (C.context frame) (.contractCall module contract method args) h) :
    let request := .contractCall module contract method args
    Ends (fun x g => C.Holds frame (g.note (.answered (C.context frame) request (.ok x))))
      (fun e g => C.Broken frame e (g.note (.answered (C.context frame) request (.error e))))
      (runFrom (Syscall.answer (some nested) (C.context frame) request) h) := by
  dsimp only
  cases found : h.contexts.find? (C.context frame) with
  | none =>
      rw [Host.runFrom_answer_unknown found]
      exact up.refused module contract method args _ (.inl rfl) holds
  | some ctx =>
      by_cases known : module = SyscallRequest.contractModule
      · subst known
        have served := serves contract method args found holds asked
        rw [Host.runFrom_answer_call found, runFrom_bind]
        match runFrom (nested ctx contract method (Arguments.ofPairs args)) h, served with
        | (.ok _, _), holds => exact holds
        | (.error _, _), broken => exact broken
      · rw [Host.runFrom_answer_foreign found known]
        exact up.refused module contract method args _ (.inl rfl) holds

/-- Every request is served. -/
theorem serve (serves : C.Serves nested) (holds : C.Holds frame h) (request : SyscallRequest) :
    Ends (fun _ => C.Holds frame) (C.Broken frame)
      (runFrom (Syscall.serve (some nested) (C.context frame) request) h) := by
  by_cases plain : request.kind = .contractCall
  · cases request with
    | contractCall module contract method args =>
        have dispatched := up.acted (.dispatchCall h module contract method args) holds
        exact ends_serve (up.contractCall serves dispatched module contract method args
          ⟨[], _, _, rfl, by simp⟩)
    | _ => cases plain
  · exact (up.plain holds plain).mono (fun _ _ holds => holds)
      fun e _ ⟨own, holds⟩ => up.broken e own holds

/-- So the handler of syscalls serves every program. -/
theorem servedAlike (serves : C.Serves nested) (frame : ι) :
    Script.ServedAlike (C.accord config frame) (Syscall.serve (some nested))
      (Syscall.serve (some nested)) where
  lasts _ _ _ := False.elim
  signals same := congrArg _ same.1
  broken := by
    rintro h _ e own ⟨rfl, holds⟩
    exact ⟨rfl, up.broken e own holds⟩
  operation := by
    rintro h _ op ⟨rfl, holds⟩
    exact ⟨rfl, up.acted (.note h rfl rfl rfl rfl) holds⟩
  lines := by
    rintro h _ lines ⟨rfl, holds⟩
    exact ⟨rfl, up.acted (.addLines h lines) holds⟩
  served := by
    rintro h _ request ⟨rfl, holds⟩
    refine .inr ((Both.of_ends (up.serve serves holds request)).mono ?_ fun _ _ _ broken => broken)
    exact fun _ _ _ _ ⟨answer, same, holds⟩ => ⟨answer, same, holds⟩
  read := by
    rintro h _ key ⟨rfl, holds⟩
    have ends : Ends (fun _ => C.Holds frame) (fun e g => e.isOwn ∧ C.Holds frame g)
        (runFrom (Syscall.serve (some nested) (C.context frame) (.getObject key)) h) :=
      up.plain holds nofun
    refine (Both.of_ends ends).mono ?_ ?_
    · exact fun _ _ _ _ ⟨answer, same, holds⟩ => ⟨answer, same, holds⟩
    · exact fun _ _ _ ⟨same, own, holds⟩ => ⟨own, same, holds⟩

/-- A program that is entered leaves the condition as its result says, and a run that ends
well is within the limit of its gas. What it came to may have been overruled. -/
theorem enter (serves : C.Serves nested) {ctx : Context} (framed : C.context frame = ctx.id)
    (code : CompiledCode Module) {signal : SignalId}
    (unraised : h.signals.reason? signal = none) (holds : C.Holds frame h) :
    let p := Call.enter nested (instanceOn config ctx code signal) h
    ∃ result, C.Ended frame result p.2 ∧ (result = .ok () → p.1.2.gasUsed ≤ config.gasLimit) ∧
      p.1.1 = overruled p.2.signals signal result := by
  have failing (e : HostError) (own : e.isOwn) (m : Machine) :
      ∃ result, C.Ended frame result h ∧ (result = .ok () → m.gasUsed ≤ config.gasLimit) ∧
        .error e = overruled h.signals signal result :=
    ⟨.error e, up.broken e own holds, nofun, (overruled_of_unraised unraised _).symm⟩
  unfold Call.enter
  cases named : (instanceOn config ctx code signal).entryPoint with
  | error e => exact failing e (isOwn_of_entryPoint named) _
  | ok entry =>
      dsimp only
      have trap : h.signals.trap? (instanceOn config ctx code signal).signal = none := by
        rw [Signals.trap?]
        exact congrArg (Option.map Trap.aborted) unraised
      rw [trap]
      dsimp only
      cases (instanceOn config ctx code signal).machine.memory.isNone with
      | true => exact failing _ rfl _
      | false =>
          simp only [Bool.false_eq_true, ↓reduceIte]
          have begins : (instanceOn config ctx code signal).machine.Begins
              (C.accord config frame) := {
            context := congrArg some framed.symm
            limit := rfl
            metered := UInt64.zero_le }
          have entered : C.Holds frame (h.note (.engine (.exec entry
              (instanceOn config ctx code signal).entryParams))) :=
            up.acted (.note h rfl rfl rfl rfl) holds
          have ran := Script.Machine.exec_alike (up.servedAlike serves frame) begins entry
            (instanceOn config ctx code signal).entryParams ⟨rfl, entered⟩
          revert ran
          rcases Script.Machine.exec _ (instanceOn config ctx code signal).machine entry _ _ with
            ⟨⟨result, m⟩, g⟩
          rintro (excused | ⟨_, ended⟩)
          · exact excused.elim
          · match result, ended with
            | .ok _, ⟨metered, _, holds⟩ => exact ⟨.ok (), holds, fun _ => metered, rfl⟩
            | .error e, ⟨_, _, broken⟩ => exact ⟨.error e.toHostError, broken, nofun, rfl⟩

/-- A call that begins well comes to the end asked for, if the calls inside it are served. -/
theorem runWith {room : Nat} (serves : C.Serves ((Manager.scripted config).nestedCall room))
    {Closed : Except HostError Outcome → Host Module → Prop} {load : CodeLoad} {ctx : Context}
    (begins : C.Begins config Closed load ctx h) :
    let p := Call.run config ((Manager.scripted config).nestedCall room) load ctx h
    Closed p.1 p.2 := by
  unfold Condition.Begins at begins
  unfold Call.run
  revert begins
  rcases obtain load ctx h with ⟨e | code, g⟩
  · exact fun closed => closed
  · rintro ⟨frame, framed, holds, closed⟩
    have unraised : (ready ctx g).signals.reason? g.signals.next = none :=
      (g.signals.reason?_issue _).trans (Signals.reason?_of_next_le (Nat.le_refl _))
    obtain ⟨result, ended, metered, came⟩ := up.enter serves framed code unraised holds
    dsimp only
    rw [came]
    exact closed result _ _ ended ⟨⟨room, Prod.ext (Prod.ext came rfl) rfl⟩, metered⟩

/-- A call that passes the checks of its depth and its name is asked for in the host where its
language was read. -/
theorem requested {ctx : Context} {contract : String} (method : String) {args : List ArgPair}
    (found : h.contexts.find? (C.context frame) = some ctx) (holds : C.Holds frame h)
    (bounded : ¬ config.maxCallDepth.toNat < ctx.setup.depth + 1)
    (named : Naming.validate contract = .ok ())
    (dispatched : Dispatched (C.context frame)
      (.contractCall SyscallRequest.contractModule contract method args) h) :
    Ends
      (fun language g => C.Holds frame g ∧ Requested config (C.context frame) args
        (nestedSetup ctx contract method (Arguments.ofPairs args) language) g)
      (fun e g => C.Broken frame e (g.note (.answered (C.context frame)
        (.contractCall SyscallRequest.contractModule contract method args) (.error e))))
      (runFrom (HostM.contractLanguage contract) h) := by
  refine (Host.unseen_contractLanguage contract h).mono ?_ ?_
  · rintro language g ⟨unseen, described⟩
    have acts : h.Acts (C.context frame) g := .of_unseen unseen
    obtain ⟨output, found⟩ := acts.find? found
    exact ⟨up.acted (.of_unseen unseen) holds, {
      caller := ⟨_, found, rfl, rfl⟩
      bounded := Nat.le_of_not_lt bounded
      named
      dispatched := dispatched.backstage unseen.backstage
      args := rfl
      language := described }⟩
  · rintro e g ⟨own, unseen⟩
    exact up.refused _ contract method args e (.inl own) (up.acted (.of_unseen unseen) holds)

/-- Calls that nest to any depth are served. -/
theorem nestedCall (room : Nat) : C.Serves ((Manager.scripted config).nestedCall room) := by
  induction room with
  | zero =>
      intro frame h ctx contract method args found holds _ _
      exact up.refused _ contract method args _ (.inl rfl) holds
  | succ room ih =>
      intro frame h ctx contract method args found holds _ dispatched
      by_cases deep : config.maxCallDepth.toNat < ctx.setup.depth + 1
      · rw [nestedCall_of_deep config (room + 1) contract method _ deep]
        exact up.refused _ contract method args _ (.inl rfl) holds
      · rw [nestedCall_succ config room contract method _ deep]
        cases named : Naming.validate contract with
        | error e => exact up.refused _ contract method args _ (.inr ⟨rfl, named⟩) holds
        | ok accepted =>
            have read := up.requested method found holds deep named dispatched
            rw [runFrom_bind, runFrom_liftExcept]
            refine Ends.bind read ?_
            rintro language g ⟨holds, requested⟩
            have answered := up.runWith ih (up.called requested holds)
            rw [runFrom_bind, runFrom_attempt, runFrom_invoke]
            dsimp only at answered ⊢
            revert answered
            generalize Call.run config _ .reuse _ _ = p
            rcases p with ⟨e | outcome, f⟩
            · cases e with
              | contract response used gas => exact fun holds => holds
              | _ => exact fun broken => broken
            · exact fun holds => holds

/-- A call that begins well, with all calls inside it, comes to the end asked for. -/
theorem run (room : Nat) {Closed : Except HostError Outcome → Host Module → Prop}
    {load : CodeLoad} {ctx : Context} (begins : C.Begins config Closed load ctx h) :
    let p := Call.run config ((Manager.scripted config).nestedCall room) load ctx h
    Closed p.1 p.2 :=
  up.runWith (up.nestedCall room) begins

end Upheld

end Call

end ContractHost
