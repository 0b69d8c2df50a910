/-
# What becomes of one signal

A signal may be shared by many. Every running call that holds it has it raised by the aborts of
its contract, and nobody else raises it, whatever services a program asks for and whatever calls
are made for it: those have signals of their own. So the journal tells in which order a signal
was given its reasons, and the first of them is the one that it keeps. A handler of syscalls is
heedful if that is so while it serves, and if it starts no operation in the name of the program
that it serves. A dispatcher is, with a manager to make nested calls and without.
-/

import ContractHost.Proofs.Call.Invariant

namespace ContractHost

open Script (Machine Module)

/-! ## The reasons that a signal was given -/

namespace Event

/-- The reason that an event gives to a signal while some calls are running: an abort gives its
own to the signals of all calls of its contract. -/
def raised? (running : List RunningCall) (signal : SignalId) : Event → Option String
  | .abort contract message _ _ =>
    if ∃ call ∈ running, call.signal = signal ∧ call.contract = contract then some message else none
  | _ => none

/-- True of the operations that the program of a context starts. -/
def isOperationOf (own : ContextId) : Event → Bool
  | .operation context? _ => context? == some own
  | _ => false

/-- What happens aside from a signal and from the program of a context: nothing is aborted, and
the program starts no operation. -/
def Aside (own : ContextId) (event : Event) : Prop :=
  event.abort? = none ∧ event.isOperationOf own = false

variable {event : Event} {own : ContextId} {running running' : List RunningCall}
  {signal : SignalId}

theorem raised?_of_not_abort (other : event.abort? = none) :
    event.raised? running signal = none := by
  cases event <;> first | rfl | cases other

theorem raises_of_not_abort (other : event.abort? = none) : event.raises = false := by
  cases event <;> first | rfl | cases other

/-- Only the calls that hold the signal matter. -/
theorem raised?_congr
    (same : ∀ call : RunningCall, call.signal = signal → (call ∈ running' ↔ call ∈ running)) :
    event.raised? running' signal = event.raised? running signal := by
  cases event with
  | abort contract message signalled live =>
      have holders : (∃ call ∈ running', call.signal = signal ∧ call.contract = contract) ↔
          ∃ call ∈ running, call.signal = signal ∧ call.contract = contract :=
        exists_congr fun call => and_congr_left fun ⟨held, _⟩ => same call held
      simp only [raised?, holders]
  | _ => rfl

theorem isOperationOf_of_isBackstage (backstage : event.isBackstage) :
    event.isOperationOf own = false := by
  cases event <;> first | rfl | cases backstage

/-- The programs of other contexts start operations of their own. -/
theorem isOperationOf_of_isOf {id : ContextId} {live : List ContextId} (does : event.IsOf id live)
    (apart : id ≠ own) : event.isOperationOf own = false := by
  cases event with
  | operation context? op =>
      obtain rfl : context? = some id := does
      simpa [isOperationOf] using apart
  | _ => rfl

theorem aside_of_isClearance (clears : event.isClearance) : event.Aside own := by
  cases event <;> first | exact ⟨rfl, rfl⟩ | cases clears

end Event

/-- The reasons that a signal was given by some events while some calls were running, the first
one first. -/
def raisedIn (running : List RunningCall) (signal : SignalId) : List Event → List String
  | [] => []
  | event :: early => raisedIn running signal early ++ (event.raised? running signal).toList

section RaisedIn

variable {running running' : List RunningCall} {signal : SignalId}

theorem raisedIn_append (later early : List Event) :
    raisedIn running signal (later ++ early) =
      raisedIn running signal early ++ raisedIn running signal later := by
  induction later with
  | nil => exact (List.append_nil _).symm
  | cons event later ih => simp [raisedIn, ih]

theorem raisedIn_of_no_abort {events : List Event} (calm : ∀ event ∈ events, event.abort? = none) :
    raisedIn running signal events = [] := by
  induction events with
  | nil => rfl
  | cons event early ih =>
      obtain ⟨other, calm⟩ := List.forall_mem_cons.1 calm
      rw [raisedIn, ih calm, Event.raised?_of_not_abort other]
      rfl

theorem raisedIn_congr
    (same : ∀ call : RunningCall, call.signal = signal → (call ∈ running' ↔ call ∈ running))
    (events : List Event) :
    raisedIn running' signal events = raisedIn running signal events := by
  induction events with
  | nil => rfl
  | cons event early ih => rw [raisedIn, raisedIn, ih, Event.raised?_congr same]

end RaisedIn

namespace Signals

variable (running : List RunningCall) {signal : SignalId}

/-- What an event does to a signal. -/
theorem hear_reason? (event : Event) (s : Signals) (handed : signal < s.next) :
    (s.hear running event).next = s.next ∧
      (s.hear running event).reason? signal =
        (s.reason? signal).or (event.raised? running signal) := by
  cases event with
  | abort contract message signalled live =>
      have holders : signal ∈ (running.filter (·.contract == contract)).map (·.signal) ↔
          ∃ call ∈ running, call.signal = signal ∧ call.contract = contract := by
        simp only [List.mem_map, List.mem_filter, beq_iff_eq]
        exact exists_congr fun _ => ⟨fun ⟨⟨mem, named⟩, held⟩ => ⟨mem, held, named⟩,
          fun ⟨mem, held, named⟩ => ⟨⟨mem, named⟩, held⟩⟩
      refine ⟨s.next_raiseAll _ message, (s.reason?_raiseAll _ message handed).trans ?_⟩
      simp only [Event.raised?, holders]
  | _ => exact ⟨rfl, (Option.or_none).symm⟩

/-- A signal keeps the reason that it has, or else the first one that it is given. -/
theorem after_reason? (events : List Event) (s : Signals) (handed : signal < s.next) :
    (s.after running events).next = s.next ∧
      (s.after running events).reason? signal =
        (s.reason? signal).or (raisedIn running signal events).head? := by
  induction events with
  | nil => exact ⟨rfl, (Option.or_none).symm⟩
  | cons event early ih =>
      obtain ⟨next, reason⟩ := ih
      obtain ⟨next', reason'⟩ :=
        hear_reason? running event (s.after running early) (next ▸ handed)
      refine ⟨next'.trans next, reason'.trans ?_⟩
      rw [reason, raisedIn, List.head?_append, Option.or_assoc]
      cases event.raised? running signal <;> rfl

end Signals

namespace Host

variable {M : Type}

/-- A signal was handed out, and is held by calls of one context. -/
structure Owns (own : ContextId) (signal : SignalId) (h : Host M) : Prop where
  handed : signal < h.signals.next
  running : ∀ call ∈ h.running, call.signal = signal → call.context = own

/-- From one host to the next, a signal was raised by the aborts that arrived for its holders and
by nothing else, and the program of a context started operations only while it was not raised. -/
structure Obeys (own : ContextId) (signal : SignalId) (h g : Host M) : Prop where
  known : ∀ {id setup}, h.contexts.setup? id = some setup → g.contexts.setup? id = some setup
  handed : h.signals.next ≤ g.signals.next
  running : ∀ call, call.signal = signal → (call ∈ g.running ↔ call ∈ h.running)
  told : ∃ events, g.journal = events ++ h.journal ∧
    g.signals.reason? signal =
      (h.signals.reason? signal).or (raisedIn h.running signal events).head? ∧
    ∀ later op early, events = later ++ .operation (some own) op :: early →
      h.signals.reason? signal = none ∧ raisedIn h.running signal early = []

/-- No operation was started in the name of a context. -/
theorem not_operation_of_foreign {own : ContextId} {events later early : List Event}
    {op : Script.Op} (foreign : ∀ event ∈ events, event.isOperationOf own = false) :
    events ≠ later ++ .operation (some own) op :: early := by
  rintro rfl
  simpa [Event.isOperationOf] using foreign (.operation (some own) op) (by simp)

namespace Obeys

variable {own : ContextId} {signal : SignalId} {h g f : Host M}

theorem owns (obeys : Obeys own signal h g) (owns : h.Owns own signal) : g.Owns own signal where
  handed := Nat.lt_of_lt_of_le owns.handed obeys.handed
  running call mem held := owns.running call ((obeys.running call held).1 mem) held

theorem trans (first : Obeys own signal h g) (second : Obeys own signal g f) :
    Obeys own signal h f where
  known known := second.known (first.known known)
  handed := Nat.le_trans first.handed second.handed
  running call held := (second.running call held).trans (first.running call held)
  told := by
    obtain ⟨events, journal, reason, free⟩ := first.told
    obtain ⟨events', journal', reason', free'⟩ := second.told
    rw [raisedIn_congr first.running] at reason'
    refine ⟨events' ++ events, by rw [journal', journal, List.append_assoc], ?_, ?_⟩
    · rw [reason', reason, raisedIn_append, List.head?_append, Option.or_assoc]
    · intro later op early split
      -- the operation was started in the first part, or in the second
      obtain ⟨between, -, inside⟩ | ⟨between, inside, outside⟩ :=
        List.append_eq_append_iff.1 split
      · exact free between op early inside
      · cases between with
        | nil => exact free [] op early outside.symm
        | cons event between =>
            obtain ⟨rfl, rest⟩ := List.cons.inj outside
            obtain rfl : early = between ++ events := rest
            obtain ⟨unraised, none⟩ := free' later op between inside
            rw [raisedIn_congr first.running] at none
            rw [reason, Option.or_eq_none_iff, List.head?_eq_none_iff] at unraised
            rw [raisedIn_append, unraised.2, none]
            exact ⟨unraised.1, rfl⟩

/-- Nothing was aborted, and nothing started. -/
theorem of_passes (passes : h.Passes (Event.Aside own) g)
    (running : ∀ call, call.signal = signal → (call ∈ g.running ↔ call ∈ h.running)) :
    Obeys own signal h g where
  known := passes.kept.setup?
  handed := passes.handed
  running := running
  told := by
    obtain ⟨events, journal, aside, calm⟩ := passes.told
    have still := calm fun event mem => Event.raises_of_not_abort (aside event mem).1
    refine ⟨events, journal, ?_, fun later op early split =>
      absurd split (not_operation_of_foreign fun event mem => (aside event mem).2)⟩
    rw [still, raisedIn_of_no_abort fun event mem => (aside event mem).1]
    exact Option.or_none.symm

theorem refl (h : Host M) : Obeys own signal h h := of_passes (.refl h) fun _ _ => Iff.rfl

/-- An entry into the journal. -/
theorem note (h : Host M) {event : Event} (aside : event.Aside own) :
    Obeys own signal h (h.note event) :=
  of_passes (.note h aside) fun _ _ => Iff.rfl

/-- Aborts arrived, and other programs did what they do. -/
theorem of_heard (owns : h.Owns own signal) (heard : h.Heard g)
    (known : ∀ {id setup}, h.contexts.setup? id = some setup → g.contexts.setup? id = some setup)
    {events : List Event} (journal : g.journal = events ++ h.journal)
    (foreign : ∀ event ∈ events, event.isOperationOf own = false) : Obeys own signal h g := by
  obtain ⟨events', journal', signals, -⟩ := heard.told
  obtain rfl := List.append_cancel_right (journal.symm.trans journal')
  obtain ⟨next, reason⟩ := h.signals.after_reason? h.running events owns.handed
  exact {
    known := known
    handed := Nat.le_of_eq (by rw [signals, next])
    running := fun call _ => by rw [heard.running]
    told := ⟨events, journal, by rw [signals, reason], fun later op early split =>
      absurd split (not_operation_of_foreign foreign)⟩ }

theorem of_offstage (owns : h.Owns own signal) (offstage : h.Offstage g) :
    Obeys own signal h g := by
  obtain ⟨events, journal, plain, -⟩ := offstage.backstage.told
  refine of_heard owns offstage.heard ?_ journal fun event mem =>
    Event.isOperationOf_of_isBackstage (plain event mem)
  rw [offstage.backstage.contexts]
  exact id

/-- Another program did something by itself. -/
theorem of_acts {id : ContextId} (owns : h.Owns own signal) (apart : id ≠ own)
    (acts : h.Acts id g) : Obeys own signal h g := by
  obtain ⟨events, journal, does, -⟩ := acts.told
  exact of_heard owns acts.heard acts.kept.setup? journal fun event mem =>
    Event.isOperationOf_of_isOf (does event mem) apart

/-- An operation is started while the signal is not raised. -/
theorem start (h : Host M) (free : h.signals.reason? signal = none) (context? : Option ContextId)
    (op : Script.Op) : Obeys own signal h (h.note (.operation context? op)) where
  known := id
  handed := Nat.le_refl _
  running _ _ := Iff.rfl
  told := by
    refine ⟨[.operation context? op], rfl, Option.or_none.symm, fun later op' early split => ?_⟩
    obtain rfl : early = [] := by
      cases later with
      | nil => exact (List.cons.inj split).2.symm
      | cons event later => simp at split
    exact ⟨free, rfl⟩

end Obeys

end Host

namespace Call

open Host (Obeys Owns)

variable {own : ContextId} {signal : SignalId} {config : Config} {start h g : Host Module}
  {ctx : Context}

/-! ## Calls inside calls -/

theorem aside_of_mem_preparations {event : Event} (mem : event ∈ preparations ctx) :
    event.Aside own := by
  have clears : event.isClearance := by
    unfold preparations at mem
    cases Language.ofTag? ctx.setup.language <;> simp at mem <;> aesop
  exact Event.aside_of_isClearance clears

/-- A call that is made ready gets a signal of its own. -/
theorem obeys_ready (owns : h.Owns own signal) (ctx : Context) :
    Obeys own signal h (ready ctx h) where
  known := id
  handed := by
    show h.signals.next ≤ h.signals.issue.next
    simp
  running call held := by
    have other : call ≠ ⟨ctx.id, ctx.setup.contract, h.signals.next⟩ := by
      rintro rfl
      exact Nat.lt_irrefl _ (held ▸ owns.handed)
    show call ∈ _ :: h.running ↔ _
    simp [other]
  told := by
    refine ⟨preparations ctx, rfl, ?_, fun later op early split => absurd split
      (Host.not_operation_of_foreign fun event mem => (aside_of_mem_preparations mem).2)⟩
    have calm : ∀ event ∈ preparations ctx, event.abort? = none := fun event mem =>
      (aside_of_mem_preparations mem : event.Aside own).1
    rw [raisedIn_of_no_abort calm]
    show h.signals.issue.reason? signal = _
    simp

theorem obeys_conclude (config : Config) (ctx : Context) (code : CompiledCode Module)
    (result : Except HostError Unit) (m : Machine) (h : Host Module) :
    Obeys own signal h (conclude config ctx code result m h).2 := by
  apply Obeys.of_passes
  · exact passes_conclude ⟨rfl, rfl⟩ (fun _ => Event.aside_of_isClearance) config code h
  · intro call _
    rw [(heard_conclude config ctx code result m h).running]

theorem obeys_finish (contract : String) (result : Except HostError Outcome) (h : Host Module) :
    Obeys own signal h (Manager.finish contract result h) := by
  apply Obeys.of_passes
  · exact passes_finish ⟨rfl, rfl⟩ (fun _ => Event.aside_of_isClearance) h
  · intro call _
    rw [Manager.finish_running]

/-- A call is about to begin. -/
theorem obeys_beginCall (setup : CallSetup) (h : Host Module) :
    Obeys own signal h (Manager.beginCall setup (invoked setup.contract h)) :=
  have counted : Obeys own signal h (invoked setup.contract h) :=
    .of_passes (passes_invoked ⟨rfl, rfl⟩ h) fun _ _ => Iff.rfl
  counted.trans (.of_passes (passes_beginCall ⟨rfl, rfl⟩) fun _ _ => Iff.rfl)

/-- A call is charged to the one that asked for it. -/
theorem obeys_charge (id : ContextId) (used : Resources) (h : Host Module) :
    Obeys own signal h
      { h with contexts := h.contexts.update id (Context.addNestedUsage used) } :=
  { Obeys.refl h with
    known := fun {other _} made => by
      have same : (h.contexts.update id (Context.addNestedUsage used)).setup? other =
          h.contexts.setup? other :=
        h.contexts.setup?_update id other (fun _ => rfl) fun _ => rfl
      exact same.trans made }

/-- When another call ends, the signal stays with those who hold it. -/
theorem obeys_endCall (owns : start.Owns own signal) {made : CallSetup}
    (known : start.contexts.setup? own = some made) {id : ContextId}
    (unknown : start.contexts.setup? id = none) (obeys : Obeys own signal start h)
    (result : Except HostError Outcome) : Obeys own signal start (Manager.endCall id result h) :=
  have noted : Obeys own signal start (h.note (.ended id result)) :=
    obeys.trans (.note h ⟨rfl, rfl⟩)
  { noted with
    running := fun call held => by
      have apart (mem : call ∈ start.running) : call.context ≠ id := by
        rintro rfl
        rw [owns.running call mem held, known] at unknown
        cases unknown
      show call ∈ h.running.filter _ ↔ _
      rw [List.mem_filter, obeys.running call held, bne_iff_ne]
      exact and_iff_left_of_imp apart }

/-- Inside the calls that a program asks for, the signal of the program is raised by aborts only.
Those calls have contexts that were not there before. -/
def heeds (own : ContextId) (signal : SignalId) (start : Host Module) : Condition ContextId where
  context id := id
  Holds id h := start.contexts.setup? id = none ∧ Obeys own signal start h
  Broken id _ h := start.contexts.setup? id = none ∧ Obeys own signal start h

section Heeds

variable (owns : start.Owns own signal) {made : CallSetup}
  (known : start.contexts.setup? own = some made)

include owns known

theorem heeds_begins {Closed : Except HostError Outcome → Host Module → Prop}
    (obeys : Obeys own signal start h) (setup : CallSetup)
    (closed : ∀ result g, Obeys own signal start g → Closed result g) :
    (heeds own signal start).Begins config Closed .reuse
      (created setup (invoked setup.contract h))
      (Manager.beginCall setup (invoked setup.contract h)) := by
  have unknown : start.contexts.setup? h.contexts.next = none := by
    rw [Option.eq_none_iff_forall_ne_some]
    exact fun _ known => Contexts.ne_next_of_setup? (obeys.known known) rfl
  have begun := obeys.trans (obeys_beginCall setup h)
  refine (offstage_obtain .reuse _ _).mono ?_ fun e g offstage => ?_
  · rintro code g ⟨f, digest, offstage, journal, signals, running, contexts, -⟩
    have asked := begun.trans (.of_offstage (begun.owns owns) offstage)
    have obtained : Obeys own signal f g :=
      .of_passes (.of_journal [_] (contexts ▸ .refl f.contexts) signals journal
        (List.forall_mem_singleton.2 ⟨rfl, rfl⟩)) fun call _ => by rw [running]
    have entered := asked.trans obtained
    refine ⟨_, rfl, ⟨unknown, entered.trans (obeys_ready (entered.owns owns) _)⟩, ?_⟩
    intro result m e ended _
    have left := ((heeds own signal start).ended_iff fun _ _ => Iff.rfl).1 ended
    have concluded := left.2.trans (obeys_conclude config
      (created setup (invoked setup.contract h)) code (overruled e.signals g.signals.next result) m e)
    exact closed _ _ (obeys_endCall owns known unknown concluded _)
  · have unable := begun.trans (.of_offstage (begun.owns owns) offstage)
    exact closed _ _ (obeys_endCall owns known unknown unable _)

/-- Whatever calls are made inside a call, the signal is raised by aborts only. -/
theorem heeds_upheld (config : Config) : Upheld config (heeds own signal start) where
  broken _ _ holds := holds
  acted := by
    rintro id h g behaves ⟨unknown, obeys⟩
    have apart : id ≠ own := by
      rintro rfl
      rw [known] at unknown
      cases unknown
    exact ⟨unknown, obeys.trans (.of_acts (obeys.owns owns) apart behaves.toActs)⟩
  refused _ _ _ _ _ _ holds := ⟨holds.1, holds.2.trans (.note _ ⟨rfl, rfl⟩)⟩
  called := by
    rintro id h setup args _ ⟨unknown, obeys⟩
    refine heeds_begins owns known obeys setup ?_
    intro result g obeys
    have counted := obeys.trans (obeys_finish setup.contract result g)
    have reply (response : Response) (used : Resources) :
        (heeds own signal start).Holds id (replied id (setup.request args) response used
          (Manager.finish setup.contract result g)) :=
      ⟨unknown, (counted.trans (obeys_charge id used _)).trans (.note _ ⟨rfl, rfl⟩)⟩
    match result with
    | .ok outcome => exact reply outcome.response outcome.resources
    | .error e =>
        cases e with
        | contract response used gas => exact reply response used
        | _ => exact ⟨unknown, counted.trans (.note _ ⟨rfl, rfl⟩)⟩

end Heeds

/-- A call that a program asks for, with all calls inside it. -/
theorem obeys_invoke (config : Config) (room : Nat) (owns : start.Owns own signal) {made : CallSetup}
    (known : start.contexts.setup? own = some made) (begun : Obeys own signal start h)
    (setup : CallSetup) :
    Obeys own signal start (runFrom ((Manager.scripted config).invoke
      ((Manager.scripted config).nestedCall room) setup) h).2 := by
  rw [runFrom_invoke]
  exact (heeds_upheld owns known config).run room (heeds_begins owns known begun setup
    fun result g obeys => obeys.trans (obeys_finish setup.contract result g))

/-- To relay a result changes nothing. -/
theorem relay_state (result : Except HostError Outcome) (h : Host Module) :
    (runFrom (relay result) h).2 = h := by
  match result with
  | .ok _ => rfl
  | .error e => cases e <;> rfl

theorem obeys_nestedCall (room : Nat) (owns : h.Owns own signal) {made : CallSetup}
    (known : h.contexts.setup? own = some made) (caller : Context)
    (contract method : String) (args : Arguments) :
    Obeys own signal h
      (runFrom ((Manager.scripted config).nestedCall room caller contract method args) h).2 := by
  by_cases deep : config.maxCallDepth.toNat < caller.setup.depth + 1
  · rw [nestedCall_of_deep config room contract method _ deep]
    exact .refl h
  · cases room with
    | zero => exact .refl h
    | succ room =>
        rw [nestedCall_succ config room contract method _ deep, runFrom_bind, runFrom_liftExcept]
        cases Naming.validate contract with
        | error e => exact .refl h
        | ok accepted =>
            have read : Ends (fun _ => Obeys own signal h) (fun _ => Obeys own signal h)
                (runFrom (HostM.contractLanguage contract) h) :=
              (Host.unseen_contractLanguage contract h).mono
                (fun _ _ left => .of_offstage owns left.1.toOffstage)
                fun _ _ left => .of_offstage owns left.2.toOffstage
            apply Ends.state (Ends.bind read ?_)
            intro language g read
            have ran := obeys_invoke config room owns known read
              (nestedSetup caller contract method args language)
            rw [runFrom_bind, runFrom_attempt]
            revert ran
            rcases runFrom ((Manager.scripted config).invoke _ _) g with ⟨result, f⟩
            have relayed := relay_state result f
            dsimp only
            revert relayed
            rcases runFrom (relay result) f with ⟨_ | _, _⟩
            all_goals
              rintro rfl
              exact id

/-- Whatever calls are made, the journal only grows. -/
theorem grows_invariant (config : Config) (start : Host Module) :
    Invariant config (always fun h => start.journal <:+ h.journal) := by
  have abides : Abides fun h : Host Module => start.journal <:+ h.journal := {
    quiet := fun quiet grown => by
      obtain ⟨events, journal, -⟩ := quiet.journal
      exact grown.trans ⟨events, journal.symm⟩
    ready := fun ctx grown => grown.trans (suffix_ready ctx _)
    conclude := fun config ctx code result m grown =>
      grown.trans (suffix_conclude config ctx code result m _)
    endCall := fun id result grown => grown.trans (suffix_endCall id result _)
    finish := fun contract result grown => grown.trans (suffix_finish contract result _) }
  refine abides.invariant config fun {g setup} _ grown => ?_
  have begun : start.journal <:+ (Manager.beginCall setup (invoked setup.contract g)).journal :=
    grown.trans ((List.suffix_cons _ _).trans (List.suffix_cons _ _))
  refine abides.opens config begun (fun code _ => begun.trans (List.suffix_cons _ _)) ?_
  intro bytecode module _
  have fetched := abides.quiet (fetched_quiet setup.contract _) begun
  exact fetched.trans (List.suffix_cons _ _)

end Call

/-! ## Heedful handlers -/

/-- A handler of syscalls that only adds to the journal and, in the name of a program, starts no
operations. Nor does it raise the signal of the program, unless aborts arrive for its holders. -/
structure HeedfulHandler where
  serve : SyscallHandler Module
  grows : ∀ id request h, h.journal <:+ (runFrom (serve id request) h).2.journal
  heeds : ∀ {own signal} {h : Host Module} request, h.Owns own signal →
    h.Obeys own signal (runFrom (serve own request) h).2

section Serve

open Host (Obeys)

variable {own : ContextId} {signal : SignalId} {h : Host Module}

/-- Services other than calls of contracts. -/
theorem obeys_serve_plain (owns : h.Owns own signal) (invoker? : Option (Invoker Module))
    {request : SyscallRequest} (plain : request.kind ≠ .contractCall) :
    Obeys own signal h (runFrom (Syscall.serve invoker? own request) h).2 := by
  have behaves := Ends.state ((Host.behaves_serve own invoker? plain h).mono
    (fun _ _ behaves => behaves) fun _ _ failed => failed.2)
  obtain ⟨events, journal, foreign, -⟩ := (Call.passes_serve
    (P := fun event => event.isOperationOf own = false)
    (fun _ => Event.isOperationOf_of_isBackstage) (fun _ => rfl) (fun _ => rfl)
    invoker? plain h).told
  exact .of_heard owns behaves.heard behaves.kept.setup? journal foreign

/-- All services, if the calls that are made for the program leave its signal alone. -/
theorem obeys_serve (owns : h.Owns own signal) {invoker? : Option (Invoker Module)}
    (calls : ∀ invoker ∈ invoker?, ∀ {g : Host Module} {ctx : Context}
      (contract method : String) (args : Arguments), g.Owns own signal →
      g.contexts.setup? own = some ctx.setup →
      Obeys own signal g (runFrom (invoker ctx contract method args) g).2)
    (request : SyscallRequest) :
    Obeys own signal h (runFrom (Syscall.serve invoker? own request) h).2 := by
  by_cases plain : request.kind = .contractCall
  · cases request with
    | contractCall module contract method args =>
        have asked : Obeys own signal h
            (h.note (.syscall own (.contractCall module contract method args) h.contexts.live)) :=
          .note h ⟨rfl, rfl⟩
        rw [Host.runFrom_serve]
        refine Obeys.trans ?_ (.note _ ⟨rfl, rfl⟩)
        generalize h.note _ = g at asked ⊢
        apply asked.trans
        cases found : g.contexts.find? own with
        | none =>
            rw [Host.runFrom_answer_unknown found]
            exact .refl g
        | some ctx =>
            by_cases foreign : module = SyscallRequest.contractModule
            · subst foreign
              have known : g.contexts.setup? own = some ctx.setup :=
                congrArg (Option.map Context.setup) (Contexts.held?_of_find? found)
              cases invoker? with
              | none =>
                  rw [Host.runFrom_answer_uninvoked found]
                  exact .refl g
              | some invoker =>
                  have called := calls invoker rfl contract method (Arguments.ofPairs args)
                    (asked.owns owns) known
                  rw [Host.runFrom_answer_call found, runFrom_bind]
                  revert called
                  rcases runFrom (invoker ctx contract method _) g with
                    ⟨e | ⟨response, used⟩, f⟩
                  · exact id
                  · exact fun called => called.trans (Call.obeys_charge own used f)
            · rw [Host.runFrom_answer_foreign found foreign]
              exact .refl g
    | _ => cases plain
  · exact obeys_serve_plain owns invoker? plain

end Serve

namespace HeedfulHandler

/-- A dispatcher without an invoker. -/
def alone : HeedfulHandler where
  serve := Syscall.serve none
  grows id request h := by
    have passes : h.Passes (fun _ => True) (runFrom (Syscall.serve none id request) h).2 :=
      Call.passes_serve_uninvoked (fun _ _ => trivial) (fun _ => trivial) (fun _ => trivial) h
    obtain ⟨events, journal, -⟩ := passes.told
    exact ⟨events, journal.symm⟩
  heeds request owns := by
    apply obeys_serve owns
    rintro _ ⟨⟩

/-- A dispatcher whose nested calls are made by a manager, at most so many levels deep. -/
def managed (config : Config) (room : Nat) : HeedfulHandler where
  serve := Syscall.serve (some ((Manager.scripted config).nestedCall room))
  grows id request h := by
    have upheld := (Call.grows_invariant config h).upheld
    have start : (Call.always fun g => h.journal <:+ g.journal).Holds id h := List.suffix_rfl
    exact Ends.state (upheld.serve (upheld.nestedCall room) start request)
  heeds request owns := by
    apply obeys_serve owns
    rintro _ ⟨⟩ g ctx contract method args owns known
    exact Call.obeys_nestedCall room owns known ctx contract method args

end HeedfulHandler

end ContractHost
