/-
# Whom an abort reaches

A call can be asked to end from when it has come by its code until it ends. An abort that
arrives meanwhile, with whatever access of the store, by whatever program, counts it and
raises its signal. The signal stays raised, and when the program of the call is done, by itself
or with calls inside it, the first reason overrules what the program came to.

A context is live earlier than that, from when the call is begun. So of the calls that are in
flight an abort misses the one, if any, whose code is being fetched.

Both are followed through a call tree: the running calls of a host with their signals against
the calls that the journal says can be asked to end.
-/

import ContractHost.Proofs.Call.Balance
import ContractHost.Proofs.Call.Course
import ContractHost.Proofs.Call.Eviction
import ContractHost.Proofs.Journal.Failures

namespace ContractHost

open Script (Machine Module)

/-- Aborts found all calls of their contract that could be asked to end, which are all calls in
flight except that the latest may be about to obtain its code. A call that was asked to end ended
so, for the reason that came first. -/
structure Obeyed (events : List Event) : Prop where
  arrived : ∀ contract message signalled live early,
    (.abort contract message signalled live :: early) <:+ events →
    signalled = ((abortableIn early).filter (·.contract == contract)).length ∧
      live = (openIn early).length ∧
      ∃ coming, coming.length ≤ 1 ∧ openIn early = coming ++ (abortableIn early).map (·.context)
  ended : ∀ id result early, (.ended id result :: early) <:+ events →
    ∀ call ∈ abortableIn early, call.context = id →
      ∀ reason, call.reason? = some reason → result = .error (.trap (.aborted reason))

/-- Calls obtained the code of their own contracts. -/
def Named (cs : Contexts) (events : List Event) : Prop :=
  ∀ id contract digest, .obtained id contract digest ∈ events →
    ∃ setup, cs.setup? id = some setup ∧ setup.contract = contract

/-- When a call ends its result is counted at once. -/
def Counted (cs : Contexts) (events : List Event) : Prop :=
  ∀ id result early, (.ended id result :: early) <:+ events →
    ∃ setup, cs.setup? id = some setup ∧
      (.finished setup.contract result :: .ended id result :: early) <:+ events

namespace Event

/-- True of the beginnings and ends of calls. -/
def isBoundary : Event → Bool
  | .began .. | .ended .. => true
  | _ => false

variable {event : Event}

theorem isBoundary_of_isBackstage (backstage : event.isBackstage) : event.isBoundary = false := by
  cases event <;> first | rfl | cases backstage

theorem isBoundary_of_isOf {id : ContextId} {live : List ContextId} (own : event.IsOf id live) :
    event.isBoundary = false := by
  cases event <;> first | rfl | cases own

end Event

theorem openIn_silent {later : List Event} (silent : ∀ event ∈ later, event.isBoundary = false)
    (early : List Event) : openIn (later ++ early) = openIn early := by
  induction later with
  | nil => rfl
  | cons event later ih =>
      obtain ⟨plain, rest⟩ := List.forall_mem_cons.1 silent
      cases event with
      | began => cases plain
      | ended => cases plain
      | _ => exact ih rest

theorem length_filter_abortable (running : List RunningCall) (s : Signals) (contract : String) :
    ((running.map (·.abortable s)).filter (·.contract == contract)).length =
      (running.filter (·.contract == contract)).length := by
  rw [List.filter_map, List.length_map]
  rfl

theorem map_context_abortable (running : List RunningCall) (s : Signals) :
    (running.map (·.abortable s)).map (·.context) = running.map (·.context) := by
  rw [List.map_map]
  rfl

namespace Obeyed

variable {events later : List Event}

theorem nil : Obeyed [] where
  arrived contract message signalled live early suffix := by simp at suffix
  ended id result early suffix := by simp at suffix

/-- What is neither an abort nor the end of a call. -/
theorem cons (obeyed : Obeyed events) {event : Event} (quiet : event.isEnd = false)
    (calm : event.abort? = none) :
    Obeyed (event :: events) where
  arrived contract message signalled live early suffix := by
    rcases List.suffix_cons_iff.1 suffix with same | suffix
    · obtain ⟨rfl, -⟩ := List.cons.inj same
      cases calm
    · exact obeyed.arrived contract message signalled live early suffix
  ended id result early suffix := by
    rcases List.suffix_cons_iff.1 suffix with same | suffix
    · obtain ⟨rfl, -⟩ := List.cons.inj same
      cases quiet
    · exact obeyed.ended id result early suffix

theorem endCall (obeyed : Obeyed events) {id : ContextId} {result : Except HostError Outcome}
    (law : ∀ call ∈ abortableIn events, call.context = id →
      ∀ reason, call.reason? = some reason → result = .error (.trap (.aborted reason))) :
    Obeyed (.ended id result :: events) where
  arrived contract message signalled live early suffix := by
    rcases List.suffix_cons_iff.1 suffix with same | suffix
    · cases same
    · exact obeyed.arrived contract message signalled live early suffix
  ended id' result' early suffix := by
    rcases List.suffix_cons_iff.1 suffix with same | suffix
    · cases same
      exact law
    · exact obeyed.ended id' result' early suffix

section Arrive

variable {running : List RunningCall} {s : Signals} {coming : List ContextId}
  {surroundings : Surroundings} (own : OwnSignals running s)
  (same : abortableIn events = running.map (·.abortable s)) (short : coming.length ≤ 1)
  (opened : openIn events = coming ++ running.map (·.context))

include own same short opened

/-- Between the turns of calls aborts arrive. -/
theorem arrive (obeyed : Obeyed events) (silent : ∀ event ∈ later, event.isBoundary = false)
    (arrives : ∀ event ∈ later, event.Arrives surroundings running (openIn events).length) :
    Obeyed (later ++ events) := by
  induction later with
  | nil => exact obeyed
  | cons event later ih =>
      obtain ⟨plain, quiet⟩ := List.forall_mem_cons.1 silent
      obtain ⟨arrived, others⟩ := List.forall_mem_cons.1 arrives
      have obeyed := ih quiet others
      obtain ⟨found, _⟩ := own.abortableIn_append
        (fun event mem => (others event mem).isTurn) same
      have still := openIn_silent quiet events
      rw [List.cons_append]
      cases event with
      | abort contract message signalled live =>
          obtain ⟨rfl, rfl, _⟩ := arrived
          constructor
          · intro contract' message' signalled live early suffix
            rcases List.suffix_cons_iff.1 suffix with split | suffix
            · cases split
              rw [found, still, length_filter_abortable, map_context_abortable]
              exact ⟨rfl, rfl, coming, short, opened⟩
            · exact obeyed.arrived contract' message' signalled live early suffix
          · intro id result early suffix
            rcases List.suffix_cons_iff.1 suffix with split | suffix
            · cases split
            · exact obeyed.ended id result early suffix
      | ended => cases plain
      | _ => exact obeyed.cons rfl rfl

end Arrive

end Obeyed

/-- Whoever was asked to end by an abort, and is gone, has ended for the first reason that it was
given. -/
theorem Obeyed.ended_of_asked {cs : Contexts} {late early : List Event} {call : Abortable}
    {message : String} {signalled live : Nat}
    (obeyed : Obeyed (late ++ .abort call.contract message signalled live :: early))
    (counted : Counted cs (late ++ .abort call.contract message signalled live :: early))
    (left : abortableIn (late ++ .abort call.contract message signalled live :: early) = [])
    (was : call ∈ abortableIn early) :
    let failure := .error (.trap (.aborted (call.reason?.getD message)))
    .ended call.context failure ∈ late ∧
      ∃ setup, cs.setup? call.context = some setup ∧ .finished setup.contract failure ∈ late := by
  intro failure
  have heard : call.hear call.contract message ∈
      abortableIn (.abort call.contract message signalled live :: early) :=
    List.mem_map_of_mem was
  have followed := abortable_or_ended late heard Abortable.reason?_hear_self
  rw [Abortable.hear_context, left] at followed
  obtain ⟨call', still, _⟩ | ⟨later, result, before, rfl, call', still, same, reason⟩ := followed
  · cases still
  · rw [List.append_assoc, List.cons_append] at obeyed counted
    have suffix := List.suffix_append later (.ended call.context result ::
      (before ++ .abort call.contract message signalled live :: early))
    obtain rfl : result = failure := obeyed.ended _ _ _ suffix call' still same _ reason
    obtain ⟨setup, known, first, split⟩ := counted _ _ _ suffix
    refine ⟨by simp, setup, known, List.mem_append_left _ ?_⟩
    rw [← List.singleton_append, ← List.append_assoc] at split
    rw [← List.append_cancel_right split]
    simp

theorem Named.mono {cs cs' : Contexts} {events : List Event} (named : Named cs events)
    (kept : ∀ {id setup}, cs.setup? id = some setup → cs'.setup? id = some setup) :
    Named cs' events := by
  intro id contract digest mem
  obtain ⟨setup, known, same⟩ := named id contract digest mem
  exact ⟨setup, kept known, same⟩

theorem Named.cons {cs : Contexts} {events : List Event} (named : Named cs events) {event : Event}
    (other : event.obtained? = none) : Named cs (event :: events) := by
  intro id contract digest mem
  rcases List.mem_cons.1 mem with rfl | mem
  · cases other
  · exact named id contract digest mem

theorem Named.append {cs : Contexts} {events later : List Event} (named : Named cs events)
    (turnless : ∀ event ∈ later, event.isTurn = false) : Named cs (later ++ events) := by
  induction later with
  | nil => exact named
  | cons event later ih =>
      obtain ⟨plain, turnless⟩ := List.forall_mem_cons.1 turnless
      apply Named.cons (ih turnless)
      cases event <;> first | rfl | cases plain

namespace Counted

variable {cs cs' : Contexts} {events later : List Event}

theorem nil (cs : Contexts) : Counted cs [] := by
  intro id result early suffix
  simp at suffix

theorem mono (counted : Counted cs events)
    (kept : ∀ {id setup}, cs.setup? id = some setup → cs'.setup? id = some setup) :
    Counted cs' events := by
  intro id result early suffix
  obtain ⟨setup, known, followed⟩ := counted id result early suffix
  exact ⟨setup, kept known, followed⟩

theorem cons (counted : Counted cs events) {event : Event}
    (other : event.isEnd = false) : Counted cs (event :: events) := by
  intro id result early suffix
  rcases List.suffix_cons_iff.1 suffix with same | inside
  · obtain ⟨rfl, -⟩ := List.cons.inj same
    cases other
  · obtain ⟨setup, known, followed⟩ := counted id result early inside
    exact ⟨setup, known, followed.trans (List.suffix_cons _ _)⟩

theorem append (counted : Counted cs events) (silent : ∀ event ∈ later, event.isBoundary = false) :
    Counted cs (later ++ events) := by
  induction later with
  | nil => exact counted
  | cons event later ih =>
      obtain ⟨plain, silent⟩ := List.forall_mem_cons.1 silent
      apply cons (ih silent)
      cases event <;> first | rfl | cases plain

/-- A call that has ended is counted. -/
theorem finish (counted : Counted cs events) {id : ContextId} {setup : CallSetup}
    (known : cs.setup? id = some setup) (result : Except HostError Outcome) :
    Counted cs (.finished setup.contract result :: .ended id result :: events) := by
  intro id' result' early suffix
  rcases List.suffix_cons_iff.1 suffix with same | suffix
  · cases same
  · rcases List.suffix_cons_iff.1 suffix with same | inside
    · cases same
      exact ⟨setup, known, List.suffix_refl _⟩
    · obtain ⟨setup, known, followed⟩ := counted id' result' early inside
      exact ⟨setup, known,
        followed.trans ((List.suffix_cons _ _).trans (List.suffix_cons _ _))⟩

end Counted

namespace Call

/-- Since the start, with the given events, aborts were obeyed, and of the calls in flight all
but those that are coming can be asked to end. -/
structure Watched (start : Host Module) (coming : List ContextId) (events : List Event)
    (h : Host Module) : Prop where
  journal : h.journal = events ++ start.journal
  obeyed : Obeyed events
  named : Named h.contexts events
  same : abortableIn events = h.running.map (·.abortable h.signals)
  own : OwnSignals h.running h.signals
  opened : openIn events = h.contexts.live
  live : h.contexts.live = coming ++ h.running.map (·.context)
  short : coming.length ≤ 1
  once : h.contexts.live.Nodup
  known : ∀ id ∈ h.contexts.live, ∃ setup, h.contexts.setup? id = some setup

variable {config : Config} {start h g f : Host Module} {waiting : List ContextId}
  {events later : List Event} {ctx : Context}

namespace Watched

variable (watched : Watched start waiting events h)

include watched

/-- While calls go on aborts are heard. -/
theorem heard (heard : h.Heard g) (journal : g.journal = later ++ h.journal)
    (silent : ∀ event ∈ later, event.isBoundary = false)
    (kept : ∀ {id setup}, h.contexts.setup? id = some setup → g.contexts.setup? id = some setup) :
    Watched start waiting (later ++ events) g := by
  obtain ⟨later', journal', signals, arrives⟩ := heard.told
  obtain rfl : later = later' := List.append_cancel_right (journal.symm.trans journal')
  have turnless : ∀ event ∈ later, event.isTurn = false := fun event mem =>
    (arrives event mem).isTurn
  have opened : openIn events = waiting ++ h.running.map (·.context) :=
    watched.opened.trans watched.live
  obtain ⟨same, own⟩ := watched.own.abortableIn_append turnless watched.same
  rw [← signals, ← heard.running] at same own
  constructor
  · rw [journal, watched.journal, List.append_assoc]
  · apply watched.obeyed.arrive watched.own watched.same watched.short opened silent
    rw [watched.opened]
    exact arrives
  · exact (watched.named.mono kept).append turnless
  · exact same
  · exact own
  · rw [openIn_silent silent, watched.opened, heard.live]
  · rw [heard.live, heard.running]
    exact watched.live
  · exact watched.short
  · exact heard.live ▸ watched.once
  · intro id mem
    obtain ⟨setup, known⟩ := watched.known id (heard.live ▸ mem)
    exact ⟨setup, kept known⟩

end Watched

/-- A call is begun. -/
theorem Watched.beginCall (watched : Watched start [] events h) (setup : CallSetup) :
    Watched start [h.contexts.next]
      (.began h.contexts.next (h.store.peek? (StoreKey.description setup.contract)) :: events)
      (Manager.beginCall setup h) := by
  have kept {id : ContextId} {made : CallSetup} (known : h.contexts.setup? id = some made) :
      (Manager.beginCall setup h).contexts.setup? id = some made :=
    (Contexts.Keeps.create h.contexts setup).setup? known
  constructor
  · exact congrArg (List.cons _) watched.journal
  · exact watched.obeyed.cons rfl rfl
  · exact (watched.named.mono kept).cons rfl
  · exact watched.same
  · exact watched.own
  · exact congrArg (List.cons _) watched.opened
  · exact congrArg (List.cons _) watched.live
  · exact Nat.le_refl 1
  · refine List.nodup_cons.2 ⟨fun mem => ?_, watched.once⟩
    obtain ⟨setup, known⟩ := watched.known _ mem
    exact Contexts.ne_next_of_setup? known rfl
  · intro id mem
    rcases List.mem_cons.1 mem with rfl | mem
    · exact ⟨setup, Contexts.setup?_create_next h.contexts setup⟩
    · obtain ⟨setup, known⟩ := watched.known id mem
      exact ⟨setup, kept known⟩

/-- The call that is made ready to run. -/
def readied (ctx : Context) (g : Host Module) : RunningCall where
  context := ctx.id
  contract := ctx.setup.contract
  signal := g.signals.next

/-- A new signal belongs to one call. -/
theorem ownSignals_readied {running : List RunningCall} (own : OwnSignals running g.signals)
    (ctx : Context) : OwnSignals (readied ctx g :: running) g.signals.issue where
  once := by
    refine List.nodup_cons.2 ⟨fun mem => ?_, own.once⟩
    obtain ⟨call, mem, same⟩ := List.mem_map.1 mem
    exact Nat.lt_irrefl _ (same ▸ own.handed call mem)
  handed call mem := by
    rw [Signals.next_issue]
    rcases List.mem_cons.1 mem with rfl | mem
    · exact Nat.lt_succ_self _
    · exact Nat.lt_succ_of_lt (own.handed call mem)

/-- It is not raised, and the others are raised as they were. -/
theorem abortable_readied (running : List RunningCall) (ctx : Context) :
    (readied ctx g :: running).map (·.abortable g.signals.issue) =
      { context := ctx.id, contract := ctx.setup.contract } ::
        running.map (·.abortable g.signals) := by
  have unraised : g.signals.issue.reason? g.signals.next = none :=
    (g.signals.reason?_issue _).trans (Signals.reason?_of_next_le (Nat.le_refl _))
  rw [List.map_cons]
  unfold RunningCall.abortable readied
  simp only [Signals.reason?_issue, List.cons.injEq, and_true]
  rw [← Signals.reason?_issue, unraised]

/-- A call that has come by its code is made ready to run. -/
theorem Watched.prepared (watched : Watched start [ctx.id] events f) {digest : String}
    (journal : g.journal = .obtained ctx.id ctx.setup.contract digest :: f.journal)
    (signals : g.signals = f.signals) (running : g.running = f.running)
    (contexts : g.contexts = f.contexts) (made : f.contexts.setup? ctx.id = some ctx.setup) :
    Watched start [] (preparations ctx ++ .obtained ctx.id ctx.setup.contract digest :: events)
      (ready ctx g) := by
  have silent : ∀ event ∈ preparations ctx, event.isBoundary = false := fun event mem =>
    Event.isBoundary_of_isBackstage (isBackstage_of_mem_preparations mem)
  have steady : ∀ event ∈ preparations ctx, event.isSteady := by
    intro event mem
    unfold preparations at mem
    cases Language.ofTag? ctx.setup.language <;> simp at mem <;> aesop
  have obtained : Watched start [] (.obtained ctx.id ctx.setup.contract digest :: events)
      { ready ctx g with journal := g.journal } := by
    have same : f.running = g.running := running.symm
    have own : OwnSignals g.running g.signals := by
      rw [running, signals]
      exact watched.own
    constructor
    · show g.journal = _
      rw [journal, watched.journal]
      rfl
    · exact watched.obeyed.cons rfl rfl
    · show Named g.contexts _
      rw [contexts]
      intro id contract digest' mem
      rcases List.mem_cons.1 mem with found | mem
      · cases found
        exact ⟨ctx.setup, made, rfl⟩
      · exact watched.named id contract digest' mem
    · show _ :: abortableIn events = (readied ctx g :: g.running).map (·.abortable g.signals.issue)
      rw [abortable_readied, watched.same, running, signals]
    · exact ownSignals_readied own ctx
    · show openIn events = g.contexts.live
      rw [contexts, watched.opened]
    · show g.contexts.live = ctx.id :: g.running.map (·.context)
      rw [contexts, running, watched.live]
      rfl
    · exact Nat.zero_le 1
    · show g.contexts.live.Nodup
      exact contexts ▸ watched.once
    · show ∀ id ∈ g.contexts.live, ∃ setup, g.contexts.setup? id = some setup
      exact contexts ▸ watched.known
  exact obtained.heard (.of_journal (preparations ctx) rfl rfl rfl rfl rfl steady) rfl silent
    fun known => known

/-- Other calls go on when a call ends. -/
theorem filter_outer {id : ContextId} {outer : List RunningCall}
    (fresh : id ∉ outer.map (·.context)) : outer.filter (·.context != id) = outer := by
  refine List.filter_eq_self.2 fun call mem => bne_iff_ne.2 fun same => fresh ?_
  exact same ▸ List.mem_map_of_mem mem

/-- The latest call ends. It ended for the reason that it was asked to, if it was. -/
theorem Watched.endCall (watched : Watched start waiting events h) {id : ContextId}
    {outer : List RunningCall} {result : Except HostError Outcome}
    (live : h.contexts.live = id :: outer.map (·.context))
    (rest : h.running.filter (·.context != id) = outer)
    (law : ∀ call ∈ h.running, call.context = id → ∀ reason,
      h.signals.reason? call.signal = some reason →
      result = .error (.trap (.aborted reason))) :
    Watched start [] (.ended id result :: events) (Manager.endCall id result h) := by
  have same : (abortableIn events).filter (fun call => call.context != id) =
      (h.running.filter (·.context != id)).map (·.abortable h.signals) := by
    rw [watched.same, List.filter_map]
    rfl
  have fresh : id ∉ outer.map (·.context) := (List.nodup_cons.1 (live ▸ watched.once)).1
  constructor
  · exact congrArg (List.cons _) watched.journal
  · refine watched.obeyed.endCall fun call mem own reason asked => ?_
    rw [watched.same] at mem
    obtain ⟨running, found, rfl⟩ := List.mem_map.1 mem
    exact law running found own reason asked
  · exact watched.named.cons rfl
  · exact same
  · exact ⟨watched.own.once.sublist (List.filter_sublist.map _),
      fun call mem => watched.own.handed call (List.mem_filter.1 mem).1⟩
  · show (openIn events).filter (· != id) = h.contexts.live.filter fun other => other != id
    rw [watched.opened]
  · show h.contexts.live.filter (fun other => other != id) =
      (h.running.filter (·.context != id)).map (·.context)
    rw [rest, live, Contexts.filter_latest fresh]
  · exact Nat.zero_le 1
  · exact watched.once.sublist List.filter_sublist
  · exact fun id mem => watched.known id (List.mem_filter.1 mem).1

/-- Some calls are running, and of all that has happened account was given. -/
def Attended (start : Host Module) (running : List RunningCall) (h : Host Module) : Prop :=
  ∃ events, Watched start [] events h ∧ Counted h.contexts events ∧ h.running = running

/-- A call has ended just now, and of all that has happened account was given. -/
def Dismissed (start : Host Module) (outer : List RunningCall) (ctx : Context)
    (result : Except HostError Outcome) (h : Host Module) : Prop :=
  ∃ events, Watched start [] (.ended ctx.id result :: events) h ∧ Counted h.contexts events ∧
    h.running = outer ∧
    ∃ setup, h.contexts.setup? ctx.id = some setup ∧ setup.contract = ctx.setup.contract

theorem Attended.heard {running : List RunningCall} (attended : Attended start running h)
    (heard : h.Heard g) (journal : g.journal = later ++ h.journal)
    (silent : ∀ event ∈ later, event.isBoundary = false)
    (kept : ∀ {id setup}, h.contexts.setup? id = some setup → g.contexts.setup? id = some setup) :
    Attended start running g := by
  obtain ⟨events, watched, counted, same⟩ := attended
  exact ⟨later ++ events, watched.heard heard journal silent kept,
    (counted.mono kept).append silent, heard.running.trans same⟩

theorem Attended.finish {running : List RunningCall} (attended : Attended start running h)
    (contract : String) (result : Except HostError Outcome) :
    Attended start running (Manager.finish contract result h) := by
  obtain ⟨released, plain, journal⟩ := Manager.finish_told contract result h
  apply attended.heard (Manager.heard_finish contract result h) journal
  · exact List.forall_mem_append.2
      ⟨fun event mem => plain event mem ▸ rfl, List.forall_mem_singleton.2 rfl⟩
  · rw [Manager.finish_contexts]
    exact id

/-- A call that has ended is counted. -/
theorem Dismissed.finish {outer : List RunningCall} {result : Except HostError Outcome}
    (dismissed : Dismissed start outer ctx result h) :
    Attended start outer (Manager.finish ctx.setup.contract result h) := by
  obtain ⟨events, watched, counted, running, setup, known, named⟩ := dismissed
  obtain ⟨released, plain, journal⟩ := Manager.finish_told ctx.setup.contract result h
  have silent : ∀ event ∈ released, event.isBoundary = false :=
    fun event mem => plain event mem ▸ rfl
  have heard := Manager.heard_finish ctx.setup.contract result h
  have contexts := Manager.finish_contexts ctx.setup.contract result h
  have watched' := watched.heard heard journal
    (List.forall_mem_append.2 ⟨silent, List.forall_mem_singleton.2 rfl⟩)
    (by rw [contexts]; exact id)
  rw [List.append_assoc, List.singleton_append] at watched'
  refine ⟨_, watched', ?_, heard.running.trans running⟩
  rw [contexts, ← named]
  exact (counted.finish known result).append silent

/-- When the program of a call is done the call ends, for the reason that it was asked to if it
was. -/
theorem Attended.closed {call : RunningCall} {outer : List RunningCall}
    (attended : Attended start (call :: outer) h) (framed : call.context = ctx.id)
    (named : call.contract = ctx.setup.contract) (code : CompiledCode Module)
    (result : Except HostError Unit) (m : Machine) :
    let p := conclude config ctx code (overruled h.signals call.signal result) m h
    Dismissed start outer ctx p.1 (Manager.endCall ctx.id p.1 p.2) := by
  intro p
  obtain ⟨events, watched, counted, running⟩ := attended
  obtain ⟨later, journal, clear⟩ :=
    conclude_journal config ctx code (overruled h.signals call.signal result) m h
  have heard : h.Heard p.2 := heard_conclude config ctx code _ m h
  have journal' : p.2.journal = (later ++ [.measured ctx.id
      (overruled h.signals call.signal result) (usage m)]) ++ h.journal := by
    rw [List.append_assoc]
    exact journal
  have silent : ∀ event ∈ later, event.isBoundary = false := fun event mem =>
    Event.isBoundary_of_isBackstage (Event.isBackstage_of_isClearance (clear event mem))
  have quiet : ∀ event ∈ later ++ [.measured ctx.id (overruled h.signals call.signal result)
      (usage m)], event.isBoundary = false :=
    List.forall_mem_append.2 ⟨silent, List.forall_mem_singleton.2 rfl⟩
  have kept {id : ContextId} {setup : CallSetup} (known : h.contexts.setup? id = some setup) :
      p.2.contexts.setup? id = some setup :=
    (conclude_keeps config ctx code _ m h).setup? known
  have watched' := watched.heard heard journal' quiet kept
  have running' : p.2.running = call :: outer := heard.running.trans running
  have live : p.2.contexts.live = ctx.id :: outer.map (·.context) := by
    rw [watched'.live, running', List.nil_append, List.map_cons, framed]
  have fresh : ctx.id ∉ outer.map (·.context) := (List.nodup_cons.1 (live ▸ watched'.once)).1
  have rest : p.2.running.filter (·.context != ctx.id) = outer := by
    rw [running', List.filter_cons_of_neg (by simp [framed]), filter_outer fresh]
  have law : ∀ other ∈ p.2.running, other.context = ctx.id → ∀ reason,
      p.2.signals.reason? other.signal = some reason →
      p.1 = .error (.trap (.aborted reason)) := by
    intro other mem own reason asked
    rw [running'] at mem
    have one : other = call := by
      rcases List.mem_cons.1 mem with same | mem
      · exact same
      · exact absurd (own ▸ List.mem_map_of_mem mem) fresh
    rw [one, conclude_signals] at asked
    have stopped : overruled h.signals call.signal result = .error (.trap (.aborted reason)) := by
      unfold overruled Signals.trap?
      rw [asked]
      rfl
    show (conclude config ctx code (overruled h.signals call.signal result) m h).1 = _
    rw [stopped]
    rfl
  refine ⟨_, watched'.endCall live rest law, (counted.mono kept).append quiet, rest, ?_⟩
  have mem : call.abortable p.2.signals ∈ abortableIn (later ++ [.measured ctx.id
      (overruled h.signals call.signal result) (usage m)] ++ events) := by
    rw [watched'.same, running']
    exact List.mem_cons_self
  obtain ⟨digest, obtained⟩ := obtained_of_abortable mem
  obtain ⟨setup, known, same⟩ := watched'.named _ _ _ obtained
  exact ⟨setup, framed ▸ known, same.trans named⟩

/-- A call is about to come by its code, and of all that has happened account was given. -/
def Coming (start : Host Module) (outer : List RunningCall) (ctx : Context) (h : Host Module) :
    Prop :=
  ∃ events, Watched start [ctx.id] events h ∧ Counted h.contexts events ∧ h.running = outer ∧
    h.contexts.setup? ctx.id = some ctx.setup

namespace Coming

variable {outer : List RunningCall} (begun : Coming start outer ctx h)

include begun

theorem offstage (offstage : h.Offstage g) : Coming start outer ctx g := by
  obtain ⟨events, watched, counted, running, made⟩ := begun
  obtain ⟨later, journal, plain, _⟩ := offstage.backstage.told
  have silent : ∀ event ∈ later, event.isBoundary = false := fun event mem =>
    Event.isBoundary_of_isBackstage (plain event mem)
  have contexts : g.contexts = h.contexts := offstage.backstage.contexts
  refine ⟨later ++ events, watched.heard offstage.heard journal silent ?_, ?_,
    offstage.heard.running.trans running, contexts ▸ made⟩
  · rw [contexts]
    exact id
  · rw [contexts]
    exact counted.append silent

/-- A call that does not come by its code cannot be asked to end. -/
theorem unable (e : HostError) :
    Dismissed start outer ctx (.error e) (Manager.endCall ctx.id (.error e) h) := by
  obtain ⟨events, watched, counted, rfl, made⟩ := begun
  have live : h.contexts.live = ctx.id :: h.running.map (·.context) := watched.live
  have fresh : ctx.id ∉ h.running.map (·.context) := (List.nodup_cons.1 (live ▸ watched.once)).1
  have rest := filter_outer fresh
  refine ⟨events, watched.endCall live rest ?_, counted, rest, ctx.setup, made, rfl⟩
  exact fun call mem own => absurd (own ▸ List.mem_map_of_mem mem) fresh

/-- A call that has come by its code can be asked to end. -/
theorem prepared {digest : String}
    (journal : g.journal = .obtained ctx.id ctx.setup.contract digest :: h.journal)
    (signals : g.signals = h.signals) (running : g.running = h.running)
    (contexts : g.contexts = h.contexts) :
    Attended start (readied ctx g :: outer) (ready ctx g) := by
  obtain ⟨events, watched, counted, same, made⟩ := begun
  refine ⟨_, watched.prepared journal signals running contexts made, ?_,
    congrArg (List.cons _) (running.trans same)⟩
  show Counted g.contexts _
  rw [contexts]
  refine Counted.append (counted.cons rfl) fun event mem => ?_
  exact Event.isBoundary_of_isBackstage (isBackstage_of_mem_preparations mem)

end Coming

/-! ## Whole call trees -/

/-- A running call, and the calls around it that are running. -/
structure Watch where
  call : RunningCall
  outer : List RunningCall

/-- Inside a call account was given of all that has happened, and the same calls are running
whenever its program goes on. -/
def attends (start : Host Module) : Condition Watch where
  context watch := watch.call.context
  Holds watch := Attended start (watch.call :: watch.outer)
  Broken watch _ := Attended start (watch.call :: watch.outer)

/-- However a call ends, account was given. -/
theorem begins_of_coming {Closed : Except HostError Outcome → Host Module → Prop}
    {load : CodeLoad} {outer : List RunningCall} (begun : Coming start outer ctx h)
    (closed : ∀ result g, Dismissed start outer ctx result g → Closed result g) :
    (attends start).Begins config Closed load ctx h := by
  refine (offstage_obtain load ctx h).mono ?_ fun e g offstage =>
    closed _ _ ((begun.offstage offstage).unable e)
  rintro code g ⟨f, digest, offstage, journal, signals, running, contexts, _⟩
  have prepared := (begun.offstage offstage).prepared journal signals running contexts
  refine ⟨⟨readied ctx g, outer⟩, rfl, prepared, fun result m e ended _ => ?_⟩
  have attended : Attended start (readied ctx g :: outer) e :=
    ((attends start).ended_iff fun _ _ => Iff.rfl).1 ended
  exact closed _ _ (attended.closed rfl rfl code result m)

/-- What is of no account here goes on while calls are attended. -/
theorem Attended.note {running : List RunningCall} (attended : Attended start running h)
    {event : Event} (steady : event.isSteady) (silent : event.isBoundary = false) :
    Attended start running (h.note event) :=
  attended.heard (.note h steady) rfl (List.forall_mem_singleton.2 silent) fun known => known

/-- A call is charged. -/
theorem Attended.charged {running : List RunningCall} (attended : Attended start running h)
    (id : ContextId) (used : Resources) :
    Attended start running
      { h with contexts := h.contexts.update id (Context.addNestedUsage used) } := by
  obtain ⟨events, watched, counted, same⟩ := attended
  have known (other : ContextId) :
      (h.contexts.update id (Context.addNestedUsage used)).setup? other = h.contexts.setup? other :=
    h.contexts.setup?_update id other (fun _ => rfl) fun _ => rfl
  have kept {other : ContextId} {setup : CallSetup}
      (made : h.contexts.setup? other = some setup) :
      (h.contexts.update id (Context.addNestedUsage used)).setup? other = some setup :=
    (known other).trans made
  exact ⟨events, { watched with
    named := watched.named.mono kept
    known := fun other mem => by
      obtain ⟨setup, made⟩ := watched.known other mem
      exact ⟨setup, kept made⟩ }, counted.mono kept, same⟩

/-- A call begins. -/
theorem Attended.coming {running : List RunningCall} (attended : Attended start running h)
    (setup : CallSetup) :
    Coming start running (created setup h) (Manager.beginCall setup h) := by
  obtain ⟨events, watched, counted, same⟩ := attended
  have kept {id : ContextId} {made : CallSetup} (known : h.contexts.setup? id = some made) :
      (Manager.beginCall setup h).contexts.setup? id = some made :=
    (Contexts.Keeps.create h.contexts setup).setup? known
  exact ⟨_, watched.beginCall setup, (counted.mono kept).cons rfl, same,
    Contexts.setup?_create_next h.contexts setup⟩

theorem attends_upheld (config : Config) (start : Host Module) : Upheld config (attends start) where
  broken _ _ attended := attended
  acted behaves attended := by
    obtain ⟨later, journal, own, _⟩ := behaves.told
    exact attended.heard behaves.heard journal
      (fun event mem => Event.isBoundary_of_isOf (own event mem)) behaves.kept.setup?
  refused _ _ _ _ _ _ attended := attended.note rfl rfl
  called := by
    intro watch h setup args _ attended
    have asked : Attended start (watch.call :: watch.outer) (invoked setup.contract h) :=
      attended.heard (.of_journal [.started setup.contract] rfl rfl rfl rfl rfl
        (List.forall_mem_singleton.2 rfl)) rfl (List.forall_mem_singleton.2 rfl) fun known => known
    refine begins_of_coming (asked.coming setup) fun result g dismissed => ?_
    have counted : Attended start (watch.call :: watch.outer)
        (Manager.finish setup.contract result g) := dismissed.finish
    have reply (response : Response) (used : Resources) :
        Attended start (watch.call :: watch.outer) (replied watch.call.context
          (setup.request args) response used (Manager.finish setup.contract result g)) :=
      (counted.charged watch.call.context used).note rfl rfl
    match result with
    | .ok outcome => exact reply outcome.response outcome.resources
    | .error e =>
        cases e with
        | contract response used gas => exact reply response used
        | _ => exact counted.note rfl rfl

/-! ## Requests -/

theorem attended_refl (live : h.contexts.live = []) (running : h.running = []) :
    Attended h [] h := by
  refine ⟨[], ?_, .nil h.contexts, running⟩
  constructor
  · rfl
  · exact .nil
  · exact nofun
  · rw [running]
    rfl
  · rw [running]
    exact ⟨.nil, nofun⟩
  · exact live.symm
  · rw [live, running]
    rfl
  · exact Nat.zero_le 1
  · rw [live]
    exact .nil
  · rw [live]
    exact nofun

/-- From rest to rest, account is given of all that happens when a request is served. -/
theorem attended_serve (config : Config) (live : h.contexts.live = []) (running : h.running = [])
    (request : HostRequest) :
    Attended h [] ((Manager.scripted config).serve h request).2 := by
  have rest := attended_refl live running
  have asked {contract : String} {g : Host Module}
      (offstage : (h.note (.started contract)).Offstage g) : Attended h [] g := by
    obtain ⟨later, journal, plain, _⟩ := offstage.backstage.told
    have noted : Attended h [] (h.note (.started contract)) := rest.note rfl rfl
    apply noted.heard offstage.heard journal
    · exact fun event mem => Event.isBoundary_of_isBackstage (plain event mem)
    · rw [offstage.backstage.contexts]
      exact id
  refine serve_cases config h request (P := fun _ g => Attended h [] g) ?_ ?_ ?_ ?_
  · intro contract message _
    have nobody : h.runningOf contract = [] := by
      rw [Host.runningOf, running]
      rfl
    have spared : h.abortRunning contract message = h := by
      unfold Host.abortRunning
      rw [nobody]
      rfl
    rw [spared]
    exact rest
  · exact fun _ _ => rest
  · exact fun accepted fault g _ offstage => (asked offstage).finish accepted.contract _
  · intro accepted load setup g _ _ asks offstage
    have begins : (attends h).Begins config
        (fun result f => Attended h [] (Manager.finish accepted.contract result f))
        load (created setup g) (Manager.beginCall setup g) := by
      refine begins_of_coming ((asked offstage).coming setup) fun result f dismissed => ?_
      rw [← asks.contract]
      exact dismissed.finish
    exact (attends_upheld config h).run config.maxCallDepth.toNat begins

end Call

/-- Whom aborts reach, for every session and every request after it.

An abort that arrives while the request is served, with whatever access of the store, counts
the calls of its contract that have come by their code and have not ended. These are all calls
in flight, except that the call that was begun last may be missing: the one whose code is being
fetched. Each call that was counted ends with a trap that tells the first reason for which it
was asked to end, whatever its program and the calls inside it do, and it costs the contract
its code. -/
theorem session_aborts_reach_running_calls (config : Config) (store : Store)
    (surroundings : Surroundings) (requests : List HostRequest) (request : HostRequest) :
    let h := (Manager.scripted config).session (.fresh store surroundings) requests
    let p := (Manager.scripted config).serve h request
    ∃ events, p.2.journal = events ++ h.journal ∧
      ∀ late contract message signalled live early,
        events = late ++ .abort contract message signalled live :: early →
        let asked := (abortableIn early).filter (·.contract == contract)
        signalled = asked.length ∧ live = (openIn early).length ∧
          (∃ coming, coming.length ≤ 1 ∧
            openIn early = coming ++ (abortableIn early).map (·.context)) ∧
          (∀ call ∈ abortableIn early, ∃ setup,
            p.2.contexts.setup? call.context = some setup ∧ setup.contract = call.contract) ∧
          ∀ call ∈ asked,
            let failure := .error (.trap (.aborted (call.reason?.getD message)))
            .ended call.context failure ∈ late ∧ .finished contract failure ∈ late ∧
              p.2.cache.contains contract = false := by
  intro h p
  obtain ⟨_, inHand⟩ := session_books config store surroundings requests
  have rest : h.contexts.live = [] := inHand.live
  obtain ⟨events, watched, counted, running⟩ :=
    Call.attended_serve config rest inHand.running request
  refine ⟨events, watched.journal, ?_⟩
  rintro late contract message signalled live early rfl
  have suffix : (.abort contract message signalled live :: early) <:+
      late ++ .abort contract message signalled live :: early := List.suffix_append _ _
  obtain ⟨found, size, coming⟩ := watched.obeyed.arrived _ _ _ _ _ suffix
  refine ⟨found, size, coming, fun call mem => ?_, fun call mem => ?_⟩
  · obtain ⟨digest, obtained⟩ := obtained_of_abortable mem
    exact watched.named _ _ _ (List.mem_append_right _ (List.mem_cons_of_mem _ obtained))
  · obtain ⟨was, called⟩ := List.mem_filter.1 mem
    obtain rfl : call.contract = contract := beq_iff_eq.1 called
    -- at the end of a request no call is running
    have left : abortableIn (late ++ .abort call.contract message signalled live :: early) = [] := by
      rw [watched.same, running]
      rfl
    obtain ⟨ended, setup, known, finished⟩ := watched.obeyed.ended_of_asked counted left was
    obtain ⟨digest, obtained⟩ := obtained_of_abortable was
    obtain ⟨setup', known', same⟩ :=
      watched.named _ _ _ (List.mem_append_right _ (List.mem_cons_of_mem _ obtained))
    cases known.symm.trans known'
    rw [same] at finished
    refine ⟨ended, finished, ?_⟩
    have settled : Host.Settled h [] (p.1.any Manager.evicts) p.2 :=
      Call.settled_serve config h request
    obtain ⟨events, traced⟩ : ∃ events, Host.Traced h events p.2 := by
      rcases settled with ⟨_, events, traced, _⟩ | ⟨_, events, traced, _⟩
      · exact ⟨events, traced⟩
      · exact ⟨events, traced⟩
    obtain rfl := List.append_cancel_right (watched.journal.symm.trans traced.journal)
    rw [← Bool.not_eq_true, traced.cached]
    exact fun cached => cached.2 (mem_condemnedIn.2 ⟨_, List.mem_append_left _ finished, rfl⟩)

/-- A deployment that starts a program with a single operation. -/
def shopDeploy : HostRequest :=
  .deploy (.ofList [("contract_name", Utf8.encode "shop"), ("contract_code", Utf8.encode
    "\x7b\"exports\":\x7b\"_initialize\":[\x7b\"op\":\"output\"\x7d]\x7d\x7d"),
    ("language", Utf8.encode "c"), ("args", Utf8.encode "\x7b\x7d"), ("caller", Utf8.encode "alice")])

/-- Surroundings that abort the shop whenever its code is fetched. -/
def abortAtFetch : Surroundings where
  aborts _ op key := if op = .get ∧ key = StoreKey.code "shop" then [("shop", "stop")] else []

/-- Not every call that is in flight can be asked to end: the call that fetches its code is not
counted, and succeeds. -/
theorem fetching_call_is_missed :
    ¬ ∀ (config : Config) (store : Store) (surroundings : Surroundings)
      (requests : List HostRequest) (request : HostRequest),
      let h := (Manager.scripted config).session (.fresh store surroundings) requests
      let p := (Manager.scripted config).serve h request
      ∀ late contract message signalled live early,
        p.2.journal = late ++ .abort contract message signalled live :: early →
        signalled = ((openIn early).filter fun id =>
          (p.2.contexts.setup? id).any (·.contract == contract)).length := by
  intro reached
  have fresh : (Manager.scripted .standard).session (.fresh (.memory .empty) abortAtFetch) [] =
      .fresh (.memory .empty) abortAtFetch := rfl
  have missed := reached .standard (.memory .empty) abortAtFetch [] shopDeploy
  rw [fresh] at missed
  dsimp only at missed
  have told : (((Manager.scripted .standard).serve (.fresh (.memory .empty) abortAtFetch)
      shopDeploy).2.journal[14]?.bind Event.abort?) = some ("shop", "stop", 0, 1) := by
    decide +kernel
  have inFlight :
      let p := (Manager.scripted .standard).serve (.fresh (.memory .empty) abortAtFetch) shopDeploy
      ((openIn (p.2.journal.drop 15)).filter fun id =>
        (p.2.contexts.setup? id).any (·.contract == "shop")).length = 1 := by
    decide +kernel
  revert missed told inFlight
  generalize (Manager.scripted .standard).serve (.fresh (.memory .empty) abortAtFetch) shopDeploy = p
  intro missed told inFlight
  obtain ⟨event, found, told⟩ := Option.bind_eq_some_iff.1 told
  obtain rfl := Event.eq_abort_of_abort? told
  obtain ⟨bound, found⟩ := List.getElem?_eq_some_iff.1 found
  have split : p.2.journal =
      p.2.journal.take 14 ++ .abort "shop" "stop" 0 1 :: p.2.journal.drop 15 := by
    rw [← found, ← List.drop_eq_getElem_cons bound, List.take_append_drop]
  exact absurd ((missed _ _ _ _ _ _ split).trans inFlight) (by decide)

end ContractHost
