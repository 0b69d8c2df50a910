/-
# Calls in lockstep

Two hosts run the same call, with all the calls that it makes. They stay in step, and the
calls end alike, if the relation between the hosts survives every step that a call can
take: the accesses of its own data, changes of its context, debug output and entries in
the journal, and the beginning and end of a call inside it. This module says what has to
be known of a relation for that, and draws the conclusion for whole trees of calls.

A relation is given in frames, one for every call that is running. In the frame of a call
it may speak of what the host was when the call began, so that the end of the call can
hand back to the frame of the caller what held there before.

A relation may permit calls of some contracts only. Then the first run has to ask for no
other call; if it does, its journal excuses the second run from all that follows.
-/

import ContractHost.Proofs.Call.Invariant

namespace ContractHost.Call

open Script (Machine Module)

/-- How two hosts are related inside a call, while its program runs and once it has
failed. The frames tell running calls apart; a frame knows the context of its call. -/
structure Relation (ι : Type) where
  context : ι → ContextId
  Same : ι → Host Module → Host Module → Prop
  Broken : ι → HostError → Host Module → Host Module → Prop
  Permits : String → Prop := fun _ => True
  excuse : Excuse := .none

namespace Relation

variable {ι : Type} (R : Relation ι)

/-- The first of two hosts excuses the second. -/
def Excused (h : Host Module) : Prop := R.excuse.Given h.journal

/-- Two hosts when something inside a call has ended with a result. -/
def Ended {α : Type} (frame : ι) : Except HostError α → Host Module → Host Module → Prop
  | .ok _ => R.Same frame
  | .error e => R.Broken frame e

/-- Two hosts when a call has returned to the call that made it. A failure that the called
contract reports is an answer. -/
def Returned (frame : ι) : Except HostError Outcome → Host Module → Host Module → Prop
  | .ok _ => R.Same frame
  | .error (.contract ..) => R.Same frame
  | .error e => R.Broken frame e

section Plain

/-! Where hosts that have failed are related as any others, so are all that have ended. -/

variable {frame : ι} (plain : ∀ e h k, R.Broken frame e h k ↔ R.Same frame h k)
  {h k : Host Module}

include plain

theorem ended_iff {α : Type} {result : Except HostError α} :
    R.Ended frame result h k ↔ R.Same frame h k := by
  cases result with
  | ok _ => exact Iff.rfl
  | error e => exact plain e h k

theorem returned_iff {result : Except HostError Outcome} :
    R.Returned frame result h k ↔ R.Same frame h k := by
  match result with
  | .ok _ => exact Iff.rfl
  | .error e => cases e <;> first | exact Iff.rfl | exact plain _ h k

end Plain

/-- Two runs inside a call end alike, on hosts that are related also where the runs fail. -/
def Kept {ε α : Type} (frame : ι) (p q : Except ε α × Host Module) : Prop :=
  Both (fun x y h k => x = y ∧ R.Same frame h k) (fun _ => R.Same frame) p q

/-- Two runs inside a call end alike, or the first one excuses the second. -/
abbrev Alike {α : Type} (frame : ι) (p q : Except HostError α × Host Module) : Prop :=
  Unless R.Excused (fun x y h k => x = y ∧ R.Same frame h k) (R.Broken frame) p q

/-- A call that has its context opens alike on two hosts. Either both come by code with
the same module, and the hosts are then related in a frame of the call; from however the
program leaves them related there, the end of the call leads to what is asked for. Or
both fail. -/
def Opens (config : Config) (Closed : Except HostError Outcome → Host Module → Host Module → Prop)
    (load : CodeLoad) (ctx : Context) (h k : Host Module) : Prop :=
  Both
    (fun code code' g g' => code.module = code'.module ∧ ∃ frame, R.context frame = ctx.id ∧
      R.Same frame (ready ctx g) (ready ctx g') ∧
      ∀ result m f f', R.Ended frame result f f' →
        let p := conclude config ctx code result m f
        let q := conclude config ctx code' result m f'
        p.1 = q.1 ∧
          Closed p.1 (Manager.endCall ctx.id p.1 p.2) (Manager.endCall ctx.id q.1 q.2))
    (fun e g g' =>
      Closed (.error e) (Manager.endCall ctx.id (.error e) g) (Manager.endCall ctx.id (.error e) g'))
    (obtain load ctx h) (obtain load ctx k)

theorem Opens.mono {R : Relation ι} {config : Config}
    {Closed Closed' : Except HostError Outcome → Host Module → Host Module → Prop}
    {load : CodeLoad} {ctx : Context} {h k : Host Module}
    (opens : R.Opens config Closed load ctx h k)
    (closed : ∀ result g g', Closed result g g' → Closed' result g g') :
    R.Opens config Closed' load ctx h k := by
  refine Both.mono opens ?_ fun e g g' => closed _ _ _
  rintro code code' g g' ⟨module, frame, framed, same, ending⟩
  refine ⟨module, frame, framed, same, fun result m f f' ended => ?_⟩
  exact ⟨(ending result m f f' ended).1, closed _ _ _ (ending result m f f' ended).2⟩

section Kept

variable {R} {frame : ι} {ε ε' α β : Type}

theorem Kept.mapError {f : ε → ε'} {first second : HostM Module ε α} {h k : Host Module}
    (kept : R.Kept frame (runFrom first h) (runFrom second k)) :
    R.Kept frame (runFrom (first.mapError f) h) (runFrom (second.mapError f) k) := by
  unfold Kept
  exact Both.mapError kept

theorem Kept.bind {first second : HostM Module ε α} {next next' : α → HostM Module ε β}
    {h k : Host Module} (kept : R.Kept frame (runFrom first h) (runFrom second k))
    (rest : ∀ x g g', R.Same frame g g' →
      R.Kept frame (runFrom (next x) g) (runFrom (next' x) g')) :
    R.Kept frame (runFrom (first >>= next) h) (runFrom (second >>= next') k) := by
  refine Both.bind kept ?_
  rintro x _ g g' ⟨rfl, same⟩
  exact rest x g g' same

/-- Where descriptions are read alike, languages are. -/
theorem Kept.contractLanguage {contract : String} {h k : Host Module}
    (read : R.Kept frame (runFrom (HostM.getKey (StoreKey.description contract)) h)
      (runFrom (HostM.getKey (StoreKey.description contract)) k)) :
    R.Kept frame (runFrom (HostM.contractLanguage contract : HostM Module HostError String) h)
      (runFrom (HostM.contractLanguage contract) k) := by
  refine (Kept.mapError read).bind fun tag? g g' same => ?_
  cases tag? with
  | none => exact ⟨rfl, same⟩
  | some tag =>
      dsimp only
      cases Utf8.decode tag with
      | ok language => exact ⟨rfl, same⟩
      | error fault => exact ⟨rfl, same⟩

end Kept

/-- What two runs of the program of a call have to do with each other. -/
def accord (config : Config) (frame : ι) : Script.Accord where
  context := R.context frame
  gasLimit := config.gasLimit
  Same := R.Same frame
  Broken := R.Broken frame
  excuse := R.excuse

end Relation

/-- A relation survives the steps of calls. -/
structure Simulation {ι : Type} (config : Config) (R : Relation ι) : Prop where
  contexts : ∀ {frame h k}, R.Same frame h k → h.contexts = k.contexts
  signals : ∀ {frame e h k}, R.Broken frame e h k → h.signals = k.signals
  broken : ∀ {frame h k} e, R.Same frame h k → R.Broken frame e h k
  aborted : ∀ {frame e h k} reason, R.Broken frame e h k →
    R.Broken frame (.trap (.aborted reason)) h k
  noted : ∀ {frame h k event}, event.isInner → R.Same frame h k →
    R.Same frame (h.note event) (k.note event)
  marked : ∀ {frame e h k event}, event.isInner → R.Broken frame e h k →
    R.Broken frame e (h.note event) (k.note event)
  lines : ∀ {frame h k} lines, R.Same frame h k →
    R.Same frame (h.addLines lines) (k.addLines lines)
  updated : ∀ {frame h k change}, (∀ ctx : Context, (change ctx).setup = ctx.setup) →
    R.Same frame h k →
    R.Same frame { h with contexts := h.contexts.update (R.context frame) change }
      { k with contexts := k.contexts.update (R.context frame) change }
  read : ∀ {frame h k ctx} key, h.contexts.find? (R.context frame) = some ctx →
    R.Same frame h k → R.Kept frame
      (runFrom (HostM.getKey (StoreKey.object ctx.setup.contract key)) h)
      (runFrom (HostM.getKey (StoreKey.object ctx.setup.contract key)) k)
  written : ∀ {frame h k ctx} key value, h.contexts.find? (R.context frame) = some ctx →
    R.Same frame h k → R.Kept frame
      (runFrom (HostM.putKey (StoreKey.object ctx.setup.contract key) value) h)
      (runFrom (HostM.putKey (StoreKey.object ctx.setup.contract key) value) k)
  deleted : ∀ {frame h k ctx} key, h.contexts.find? (R.context frame) = some ctx →
    R.Same frame h k → R.Kept frame
      (runFrom (HostM.deleteKey (StoreKey.object ctx.setup.contract key)) h)
      (runFrom (HostM.deleteKey (StoreKey.object ctx.setup.contract key)) k)
  asked : ∀ {frame h k} module contract method args, R.Same frame h k →
    R.Permits contract ∨ R.excuse.Given
      (.syscall (R.context frame) (.contractCall module contract method args) h.contexts.live ::
        h.journal)
  described : ∀ {frame h k} contract, R.Permits contract → R.Same frame h k → R.Kept frame
    (runFrom (HostM.contractLanguage contract) h) (runFrom (HostM.contractLanguage contract) k)
  called : ∀ {frame h k setup}, Asked config (R.context frame) setup h →
    R.Permits setup.contract → R.Same frame h k →
    R.Opens config
      (fun result g g' => R.Returned frame result (Manager.finish setup.contract result g)
        (Manager.finish setup.contract result g'))
      .reuse (created setup (invoked setup.contract h))
      (Manager.beginCall setup (invoked setup.contract h))
      (Manager.beginCall setup (invoked setup.contract k))

variable {ι : Type} {config : Config} {R : Relation ι}

namespace Simulation

/-! ## Syscalls -/

section Syscall

variable (sim : Simulation config R) {frame : ι} {h k : Host Module} (same : R.Same frame h k)

include sim same

/-- Both hosts know the same contexts. -/
theorem requireContext :
    Both (fun ctx ctx' g g' => ctx = ctx' ∧ g = h ∧ g' = k ∧
        h.contexts.find? (R.context frame) = some ctx)
      (fun _ => R.Same frame)
      (runFrom (Syscall.requireContext (R.context frame)) h)
      (runFrom (Syscall.requireContext (R.context frame)) k) := by
  unfold Syscall.requireContext
  simp only [runFrom_bind, runFrom_get]
  rw [← sim.contexts same]
  cases found : h.contexts.find? (R.context frame) with
  | some ctx => exact ⟨rfl, rfl, rfl, rfl⟩
  | none => exact ⟨rfl, same⟩

/-- An action on the context of the running call, as far as it uses that context alike. -/
theorem withContext {α : Type} {rest : Context → HostM Module HostError α}
    (use : ∀ ctx, h.contexts.find? (R.context frame) = some ctx →
      R.Kept frame (runFrom (rest ctx) h) (runFrom (rest ctx) k)) :
    R.Kept frame (runFrom (Syscall.requireContext (R.context frame) >>= rest) h)
      (runFrom (Syscall.requireContext (R.context frame) >>= rest) k) := by
  refine (sim.requireContext same).bind ?_
  rintro ctx _ g g' ⟨rfl, rfl, rfl, found⟩
  exact use ctx found

/-- Services other than calls of contracts keep the hosts related even where they fail. -/
theorem answer (invoker? : Option (Invoker Module)) {request : SyscallRequest}
    (plain : request.kind ≠ .contractCall) :
    R.Kept frame (runFrom (Syscall.answer invoker? (R.context frame) request) h)
      (runFrom (Syscall.answer invoker? (R.context frame) request) k) := by
  cases request with
  | putObject key value =>
      refine (sim.withContext same fun ctx found => ?_).bind fun _ _ _ same => ⟨rfl, same⟩
      cases value with
      | none => exact ⟨rfl, same⟩
      | some value => exact (sim.written key value found same).mapError
  | getObject key =>
      refine (sim.withContext same fun ctx found => ?_).bind fun _ _ _ same => ⟨rfl, same⟩
      refine (sim.read key found same).mapError.bind fun value? _ _ same => ?_
      cases value? with
      | none => exact ⟨rfl, same⟩
      | some value => exact ⟨rfl, same⟩
  | deleteObject key =>
      refine (sim.withContext same fun ctx found => ?_).bind fun _ _ _ same => ⟨rfl, same⟩
      exact (sim.deleted key found same).mapError
  | getCallArgs =>
      refine (sim.withContext same fun ctx _ => ?_).bind fun _ _ _ same => ⟨rfl, same⟩
      exact ⟨rfl, same⟩
  | setOutput response =>
      refine (sim.withContext same fun ctx _ => ?_).bind fun _ _ _ same => ⟨rfl, same⟩
      exact ⟨rfl, sim.updated (fun _ => rfl) same⟩
  | transfer payer payee amount =>
      refine (sim.withContext same fun ctx _ => ?_).bind fun _ _ _ same => ⟨rfl, same⟩
      exact ⟨rfl, same⟩
  | contractCall => exact absurd rfl plain

end Syscall

end Simulation

/-! ## Excuses -/

/-- An excuse was given. -/
def standing (excuse : Excuse) : Condition ContextId where
  context id := id
  Holds _ h := excuse.Given h.journal
  Broken _ _ h := excuse.Given h.journal

/-- The journal only grows in calls, so an excuse that was given stays given. -/
theorem standing_upheld (config : Config) (excuse : Excuse) :
    Upheld config (standing excuse) where
  broken _ _ given := given
  acted behaves given := excuse.lasts behaves.grows given
  refused _ _ _ _ _ _ given := excuse.lasts (List.suffix_cons _ _) given
  called := by
    intro id h setup args _ given
    have answered {result : Except HostError Outcome} {g : Host Module}
        (given : excuse.Given g.journal) :
        (standing excuse).Answered id (setup.request args) result
          (Manager.finish setup.contract result g) := by
      have noted (event : Event) :
          excuse.Given (event :: (Manager.finish setup.contract result g).journal) :=
        excuse.lasts ((suffix_finish ..).trans (List.suffix_cons _ _)) given
      match result with
      | .ok _ => exact noted _
      | .error e => cases e <;> exact noted _
    have begun : excuse.Given (Manager.beginCall setup (invoked setup.contract h)).journal :=
      excuse.lasts ((List.suffix_cons _ _).trans (List.suffix_cons _ _)) given
    refine Condition.Begins.of_stages _ rfl ?_ ?_ ?_
    · intro e g _ backstage
      exact answered (excuse.lasts (backstage.grows.trans (suffix_endCall ..)) begun)
    · intro g backstage
      exact excuse.lasts (backstage.grows.trans (suffix_ready ..)) begun
    · intro code g result m f _ ended _
      have given := ((standing excuse).ended_iff fun _ _ => Iff.rfl).1 ended
      exact answered (excuse.lasts ((suffix_conclude ..).trans (suffix_endCall ..)) given)

/-- An excuse that stands when a service is asked for is left standing when it is answered. -/
def Lasts (excuse : Excuse) (nested : Invoker Module) : Prop :=
  ∀ id request (h : Host Module), let asked := h.note (.syscall id request h.contexts.live)
    excuse.Given asked.journal →
    let p := runFrom (Syscall.answer (some nested) id request) asked
    excuse.Given (.answered id request p.1 :: p.2.journal)

theorem nestedCall_lasts (config : Config) (excuse : Excuse) (room : Nat) :
    Lasts excuse ((Manager.scripted config).nestedCall room) := by
  intro id request h asked given
  let nested := (Manager.scripted config).nestedCall room
  have up := standing_upheld config excuse
  have answered : Ends (fun x g => excuse.Given (.answered id request (.ok x) :: g.journal))
      (fun e g => excuse.Given (.answered id request (.error e) :: g.journal))
      (runFrom (Syscall.answer (some nested) id request) asked) := by
    by_cases plain : request.kind = .contractCall
    · cases request with
      | contractCall module contract method args =>
          have holds : (standing excuse).Holds id asked := given
          exact up.contractCall (up.nestedCall room) holds module contract method args
            ⟨[], _, _, rfl, by simp⟩
      | _ => cases plain
    · have grown {g : Host Module} (acts : asked.Acts id g) (event : Event) :
          excuse.Given (event :: g.journal) :=
        excuse.lasts (acts.grows.trans (List.suffix_cons _ _)) given
      exact (Host.modest_answer id (some nested) plain asked).mono (fun _ _ acts => grown acts _)
        fun _ _ ⟨_, acts⟩ => grown acts _
  dsimp only
  match runFrom (Syscall.answer (some nested) id request) asked, answered with
  | (.ok _, _), given => exact given
  | (.error _, _), given => exact given

/-- An invoker serves the calls of running calls alike on related hosts, and leaves an
excuse standing. -/
structure Relation.Serves (R : Relation ι) (nested : Invoker Module) : Prop where
  lasts : Lasts R.excuse nested
  alike : ∀ {frame h k ctx} contract method args,
    h.contexts.find? (R.context frame) = some ctx → R.Permits contract → R.Same frame h k →
    R.Alike frame (runFrom (nested ctx contract method args) h)
      (runFrom (nested ctx contract method args) k)

namespace Simulation

section Program

variable (sim : Simulation config R) {nested : Invoker Module} (serves : R.Serves nested)
  {frame : ι} {h k : Host Module} (same : R.Same frame h k)

include sim

/-- A failure that leaves the hosts related leaves them related as failed. -/
theorem failed {α : Type} {p q : Except HostError α × Host Module} (kept : R.Kept frame p q) :
    Both (fun x y h k => x = y ∧ R.Same frame h k) (R.Broken frame) p q :=
  Both.mono kept (fun _ _ _ _ same => same) fun e _ _ same => sim.broken e same

theorem same_signals (same : R.Same frame h k) : h.signals = k.signals :=
  sim.signals (sim.broken (.trap .gasExhausted) same)

/-- The syscall is entered into both journals alike. -/
theorem dispatched (request : SyscallRequest) (same : R.Same frame h k) :
    R.Same frame (h.note (.syscall (R.context frame) request h.contexts.live))
      (k.note (.syscall (R.context frame) request k.contexts.live)) := by
  rw [← sim.contexts same]
  exact sim.noted rfl same

/-- Whether a call was asked to end is the same on related hosts, and then decides its
result on both. -/
theorem overrule (signal : SignalId) {result : Except HostError Unit}
    (ended : R.Ended frame result h k) :
    overruled h.signals signal result = overruled k.signals signal result ∧
      R.Ended frame (overruled h.signals signal result) h k := by
  have signals : h.signals = k.signals := by
    cases result with
    | ok _ => exact sim.same_signals ended
    | error e => exact sim.signals ended
  refine ⟨by rw [signals], ?_⟩
  unfold overruled Signals.trap?
  cases h.signals.reason? signal with
  | none => exact ended
  | some reason =>
      cases result with
      | ok _ => exact sim.broken _ ended
      | error e => exact sim.aborted reason ended

/-- What is answered alike is entered into both journals alike. -/
theorem answered {request : SyscallRequest}
    (alike : R.Alike frame
      (runFrom (Syscall.answer (some nested) (R.context frame) request)
        (h.note (.syscall (R.context frame) request h.contexts.live)))
      (runFrom (Syscall.answer (some nested) (R.context frame) request)
        (k.note (.syscall (R.context frame) request k.contexts.live)))) :
    R.Alike frame (runFrom (Syscall.serve (some nested) (R.context frame) request) h)
      (runFrom (Syscall.serve (some nested) (R.context frame) request) k) := by
  rw [Host.runFrom_serve, Host.runFrom_serve]
  rcases alike with excused | both
  · exact .inl (R.excuse.lasts (List.suffix_cons _ _) excused)
  · right
    match runFrom (Syscall.answer (some nested) (R.context frame) request) _,
      runFrom (Syscall.answer (some nested) (R.context frame) request) _, both with
    | (.ok _, _), (.ok _, _), ⟨rfl, same⟩ => exact ⟨rfl, sim.noted rfl same⟩
    | (.error _, _), (.error _, _), ⟨rfl, broken⟩ => exact ⟨rfl, sim.marked rfl broken⟩

/-- A read is served alike, and leaves the hosts related also where it fails. -/
theorem read_served (key : Bytes) (same : R.Same frame h k) :
    Both (fun x y h k => x = y ∧ R.Same frame h k)
      (fun e h k => e.isOwn ∧ R.Same frame h k)
      (runFrom (Syscall.serve (some nested) (R.context frame) (.getObject key)) h)
      (runFrom (Syscall.serve (some nested) (R.context frame) (.getObject key)) k) := by
  have plain : (SyscallRequest.getObject key).kind ≠ .contractCall := nofun
  have kept := sim.answer (sim.dispatched (.getObject key) same) (some nested) plain
  have modest := Host.modest_answer (R.context frame) (some nested) plain
    (h.note (.syscall (R.context frame) (.getObject key) h.contexts.live))
  rw [Host.runFrom_serve, Host.runFrom_serve]
  unfold Relation.Kept at kept
  match runFrom (Syscall.answer (some nested) (R.context frame) (.getObject key)) _,
    runFrom (Syscall.answer (some nested) (R.context frame) (.getObject key)) _, kept, modest with
  | (.ok _, _), (.ok _, _), ⟨rfl, same⟩, _ => exact ⟨rfl, sim.noted rfl same⟩
  | (.error _, _), (.error _, _), ⟨rfl, same⟩, ⟨own, _⟩ => exact ⟨rfl, own, sim.noted rfl same⟩

include serves

/-- A call of a contract is answered alike if the invoker serves alike. -/
theorem contractCall (module contract method : String) (args : List ArgPair)
    (permitted : R.Permits contract) (same : R.Same frame h k) :
    R.Alike frame
      (runFrom (Syscall.answer (some nested) (R.context frame)
        (.contractCall module contract method args)) h)
      (runFrom (Syscall.answer (some nested) (R.context frame)
        (.contractCall module contract method args)) k) := by
  have contexts := sim.contexts same
  cases found : h.contexts.find? (R.context frame) with
  | none =>
      rw [Host.runFrom_answer_unknown found, Host.runFrom_answer_unknown (contexts ▸ found)]
      exact .inr ⟨rfl, sim.broken _ same⟩
  | some ctx =>
      by_cases known : module = SyscallRequest.contractModule
      · subst known
        rw [Host.runFrom_answer_call found, Host.runFrom_answer_call (contexts ▸ found)]
        refine (serves.alike contract method _ found permitted same).bind
          (fun _ _ excused => excused) ?_
        rintro ⟨response, used⟩ _ f f' ⟨rfl, same⟩
        exact .inr ⟨rfl, sim.updated (fun _ => rfl) same⟩
      · rw [Host.runFrom_answer_foreign found known,
          Host.runFrom_answer_foreign (contexts ▸ found) known]
        exact .inr ⟨rfl, sim.broken _ same⟩

/-- Every request is served alike. -/
theorem serve (request : SyscallRequest) (same : R.Same frame h k) :
    R.Alike frame (runFrom (Syscall.serve (some nested) (R.context frame) request) h)
      (runFrom (Syscall.serve (some nested) (R.context frame) request) k) := by
  have dispatched := sim.dispatched request same
  by_cases plain : request.kind = .contractCall
  · cases request with
    | contractCall module contract method args =>
        rcases sim.asked module contract method args same with permitted | given
        · exact sim.answered
            (sim.contractCall serves module contract method args permitted dispatched)
        · exact .inl (serves.lasts _ _ h given)
    | _ => cases plain
  · exact sim.answered (.inr (sim.failed (sim.answer dispatched (some nested) plain)))

/-- With such an invoker the handler of syscalls serves programs alike. -/
theorem servedAlike (frame : ι) :
    Script.ServedAlike (R.accord config frame) (Syscall.serve (some nested))
      (Syscall.serve (some nested)) where
  lasts id request h given :=
    serves.lasts id request h (R.excuse.lasts (List.suffix_cons _ _) given)
  signals same := sim.same_signals same
  broken e _ same := sim.broken e same
  operation _ same := sim.noted rfl same
  lines lines same := sim.lines lines same
  served request same := sim.serve serves request same
  read key same := sim.read_served key same

/-- Entering a program keeps two hosts related, up to the end of it. Whether the call was
asked to end is the same on both. -/
theorem enter (ctx : Context) (framed : R.context frame = ctx.id) (code : CompiledCode Module)
    (signal : SignalId) (same : R.Same frame h k) :
    let inst := instanceOn config ctx code signal
    let p := Call.enter nested inst h
    let q := Call.enter nested inst k
    R.Excused p.2 ∨ p.1 = q.1 ∧ R.Ended frame p.1.1 p.2 q.2 := by
  intro inst
  unfold Call.enter
  rw [← sim.same_signals same]
  cases inst.entryPoint with
  | error e => exact .inr ⟨rfl, sim.broken e same⟩
  | ok entry =>
      dsimp only
      cases h.signals.trap? inst.signal with
      | some trap => exact .inr ⟨rfl, sim.broken _ same⟩
      | none =>
          cases inst.machine.memory.isNone with
          | true => exact .inr ⟨rfl, sim.broken _ same⟩
          | false =>
              have begins : inst.machine.Begins (R.accord config frame) := {
                context := congrArg some framed.symm
                limit := rfl
                metered := UInt64.zero_le }
              have begun : R.Same frame (h.note (.engine (.exec entry inst.entryParams)))
                  (k.note (.engine (.exec entry inst.entryParams))) := sim.noted rfl same
              have ran := Script.Machine.exec_alike (sim.servedAlike serves frame) begins entry
                inst.entryParams begun
              simp only [Bool.false_eq_true, ↓reduceIte]
              revert ran
              rcases Script.Machine.exec _ inst.machine entry inst.entryParams _ with
                ⟨⟨result, m⟩, g⟩
              rcases Script.Machine.exec _ inst.machine entry inst.entryParams _ with
                ⟨⟨result', m'⟩, g'⟩
              rintro (excused | ⟨rfl, ended⟩)
              · exact .inl excused
              · right
                match result, result', ended with
                | .ok _, .ok _, ⟨_, same⟩ =>
                    have ended : R.Ended frame (.ok () : Except HostError Unit) g g' := same
                    obtain ⟨alike, ended⟩ := sim.overrule inst.signal ended
                    exact ⟨congrArg (·, m) alike, ended⟩
                | .error e, .error _, ⟨rfl, broken⟩ =>
                    have ended : R.Ended frame (.error e.toHostError : Except HostError Unit) g g' :=
                      broken
                    obtain ⟨alike, ended⟩ := sim.overrule inst.signal ended
                    exact ⟨congrArg (·, m) alike, ended⟩

/-- Related hosts run a call that opens alike to ends that are closed alike. -/
theorem run {Closed : Except HostError Outcome → Host Module → Host Module → Prop}
    {load : CodeLoad} {ctx : Context} (opens : R.Opens config Closed load ctx h k) :
    let p := Call.run config nested load ctx h
    let q := Call.run config nested load ctx k
    R.Excused p.2 ∨ p.1 = q.1 ∧ Closed p.1 p.2 q.2 := by
  unfold Relation.Opens at opens
  unfold Call.run
  revert opens
  rcases obtain load ctx h with ⟨e | code, g⟩ <;>
    rcases obtain load ctx k with ⟨e' | code', g'⟩
  · rintro ⟨rfl, closed⟩
    exact .inr ⟨rfl, closed⟩
  · exact False.elim
  · exact False.elim
  · rintro ⟨module, frame, framed, same, closed⟩
    have signals : g.signals = g'.signals := Signals.issue_injective (sim.same_signals same)
    dsimp only
    rw [enter_instanceOn config nested ctx module.symm, ← signals]
    rcases sim.enter serves ctx framed code g.signals.next same with excused | ⟨alike, ended⟩
    · exact .inl (R.excuse.lasts ((suffix_conclude ..).trans (suffix_endCall ..)) excused)
    · rw [← alike]
      exact .inr (closed _ _ _ _ ended)

/-- Related hosts serve an invocation that opens alike with the same answer, or fail it
with the same error. -/
theorem invoke {setup : CallSetup} (same : R.Same frame h k)
    (opens : R.Opens config
      (fun result g g' => R.Returned frame result (Manager.finish setup.contract result g)
        (Manager.finish setup.contract result g'))
      .reuse (created setup (invoked setup.contract h))
      (Manager.beginCall setup (invoked setup.contract h))
      (Manager.beginCall setup (invoked setup.contract k))) :
    let p := runFrom ((Manager.scripted config).invoke nested setup) h
    let q := runFrom ((Manager.scripted config).invoke nested setup) k
    R.Excused p.2 ∨ p.1 = q.1 ∧ R.Returned frame p.1 p.2 q.2 := by
  have next : created setup (invoked setup.contract k) = created setup (invoked setup.contract h) :=
    congrArg (fun cs : Contexts => Context.mk cs.next setup none {}) (sim.contexts same).symm
  rw [runFrom_invoke, runFrom_invoke]
  dsimp only
  rw [next]
  rcases sim.run serves opens with excused | ⟨alike, returned⟩
  · exact .inl (R.excuse.lasts (suffix_finish ..) excused)
  · rw [← alike]
    exact .inr ⟨rfl, returned⟩

end Program

/-- Reading the description of a contract changes no context. -/
theorem contractLanguage_contexts (contract : String) (h : Host Module) :
    (runFrom (HostM.contractLanguage contract : HostM Module HostError String) h).2.contexts =
      h.contexts := by
  obtain ⟨signals, events, same, _⟩ := h.beforeAccess_eq .get (StoreKey.description contract)
  unfold HostM.contractLanguage HostM.getKey
  rw [runFrom_bind, runFrom_mapError, Host.runFrom_access, same]
  cases h.surroundings.fault? h.accesses .get (StoreKey.description contract) with
  | some fault => rfl
  | none =>
      cases (h.store.get? (StoreKey.description contract)).1 with
      | none => rfl
      | some tag =>
          simp only [mapError_ok]
          cases Utf8.decode tag <;> rfl

/-- Calls that nest to any depth are served alike. -/
theorem nestedCall (sim : Simulation config R) (room : Nat) :
    R.Serves ((Manager.scripted config).nestedCall room) := by
  induction room with
  | zero =>
      refine ⟨nestedCall_lasts config R.excuse 0, ?_⟩
      exact fun contract method args found permitted same => .inr ⟨rfl, sim.broken _ same⟩
  | succ room ih =>
      refine ⟨nestedCall_lasts config R.excuse (room + 1), ?_⟩
      intro frame h k ctx contract method args found permitted same
      by_cases deep : config.maxCallDepth.toNat < ctx.setup.depth + 1
      · rw [nestedCall_of_deep config (room + 1) contract method _ deep]
        exact .inr ⟨rfl, sim.broken _ same⟩
      · rw [nestedCall_succ config room contract method _ deep]
        cases named : Naming.validate contract with
        | error e => exact .inr ⟨rfl, sim.broken e same⟩
        | ok accepted =>
            have described := (sim.failed (sim.described contract permitted same)).tracked
            rw [runFrom_bind, runFrom_bind, runFrom_liftExcept, runFrom_liftExcept]
            refine Unless.of_both_bind described ?_
            rintro language _ g g' ⟨⟨rfl, same⟩, ran, _⟩
            have kept := contractLanguage_contexts contract h
            rw [ran] at kept
            have asked : Asked config (R.context frame)
                (nestedSetup ctx contract method args language) g :=
              { caller := ⟨ctx, kept ▸ found, rfl, rfl⟩, bounded := Nat.le_of_not_lt deep, named }
            have returned := sim.invoke ih same (sim.called asked permitted same)
            revert returned
            rw [runFrom_bind, runFrom_bind, runFrom_attempt, runFrom_attempt]
            rcases runFrom ((Manager.scripted config).invoke _ _) g with ⟨result, f⟩
            rcases runFrom ((Manager.scripted config).invoke _ _) g' with ⟨result', f'⟩
            rintro (excused | ⟨rfl, returned⟩)
            · left
              cases result with
              | ok outcome => exact excused
              | error e => cases e <;> exact excused
            · right
              cases result with
              | ok outcome => exact ⟨rfl, returned⟩
              | error e =>
                  cases e with
                  | contract response resources gas => exact ⟨rfl, returned⟩
                  | _ => exact ⟨rfl, returned⟩

end Simulation

end ContractHost.Call
