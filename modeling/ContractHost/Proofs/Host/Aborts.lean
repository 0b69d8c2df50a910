/-
# Aborts that arrive at a host

Before every access of the store the surroundings of a host may let aborts arrive. An abort
raises the signals of the running calls of its contract, the first reason stays, and nothing
else raises a signal. What the signals say after a while can therefore be computed from the
journal, and it is the same that the journal alone says of the calls that can be asked to
end.
-/

import ContractHost.Proofs.Host.Quiet
import ContractHost.Proofs.Journal.Aborts
import Mathlib.Data.List.Nodup

namespace ContractHost

namespace Signals

@[simp]
theorem next_raise (s : Signals) (id : SignalId) (reason : String) :
    (s.raise id reason).next = s.next :=
  Array.size_modify

@[simp]
theorem next_issue (s : Signals) : s.issue.next = s.next + 1 :=
  Array.size_push _

/-- A new signal is not raised, and those handed out before are raised as they were. -/
@[simp]
theorem reason?_issue (s : Signals) (id : SignalId) : s.issue.reason? id = s.reason? id := by
  unfold reason? issue
  rw [Array.getElem?_push]
  split
  · next new => simp [new]
  · rfl

/-- Signals that were not handed out are not raised. -/
theorem reason?_of_next_le {s : Signals} {id : SignalId} (beyond : s.next ≤ id) :
    s.reason? id = none := by
  rw [reason?, Array.getElem?_eq_none beyond]
  rfl

/-- Raising a signal gives it a reason, unless it has one. -/
theorem reason?_raise (s : Signals) (id : SignalId) (reason : String) {other : SignalId}
    (handed : other < s.next) :
    (s.raise id reason).reason? other =
      (s.reason? other).or (if id = other then some reason else none) := by
  have found : s.reasons[other]? = some s.reasons[other] := Array.getElem?_eq_getElem handed
  unfold reason? raise
  rw [Array.getElem?_modify, found]
  by_cases same : id = other
  · simp [same]
  · simp [same]

/-- Raises the signals of some calls. -/
def raiseAll (calls : List RunningCall) (message : String) (s : Signals) : Signals :=
  calls.foldl (fun s call => s.raise call.signal message) s

@[simp]
theorem next_raiseAll (calls : List RunningCall) (message : String) (s : Signals) :
    (s.raiseAll calls message).next = s.next := by
  induction calls generalizing s with
  | nil => rfl
  | cons call rest ih => exact (ih _).trans (s.next_raise call.signal message)

theorem reason?_raiseAll (calls : List RunningCall) (message : String) (s : Signals)
    {id : SignalId} (handed : id < s.next) :
    (s.raiseAll calls message).reason? id =
      (s.reason? id).or (if id ∈ calls.map (·.signal) then some message else none) := by
  induction calls generalizing s with
  | nil => simp [raiseAll]
  | cons call rest ih =>
      have later := ih (s.raise call.signal message) (by simpa using handed)
      rw [s.reason?_raise call.signal message handed] at later
      refine later.trans ?_
      by_cases own : call.signal = id
      · cases s.reason? id <;> simp [own]
      · simp [own, Ne.symm own]

/-- What an event does to signals while some calls are running. -/
def hear (running : List RunningCall) (event : Event) (s : Signals) : Signals :=
  match event with
  | .abort contract message _ _ =>
    s.raiseAll (running.filter fun call => call.contract == contract) message
  | _ => s

/-- The signals after some events. -/
def after (running : List RunningCall) (events : List Event) (s : Signals) : Signals :=
  events.foldr (hear running) s

theorem after_append (running : List RunningCall) (later events : List Event) (s : Signals) :
    s.after running (later ++ events) = (s.after running events).after running later :=
  List.foldr_append

theorem after_of_no_abort (running : List RunningCall) {events : List Event}
    (calm : ∀ contract message signalled live, .abort contract message signalled live ∉ events)
    (s : Signals) : s.after running events = s := by
  induction events with
  | nil => rfl
  | cons event events ih =>
      have earlier : s.after running events = s :=
        ih fun contract message signalled live mem =>
          calm contract message signalled live (List.mem_cons_of_mem _ mem)
      show hear running event (s.after running events) = s
      rw [earlier]
      cases event with
      | abort contract message signalled live =>
          exact absurd List.mem_cons_self (calm contract message signalled live)
      | _ => rfl

end Signals

/-! ## Running calls as calls that can be asked to end -/

/-- A running call as a call that can be asked to end. -/
def RunningCall.abortable (s : Signals) (call : RunningCall) : Abortable where
  context := call.context
  contract := call.contract
  reason? := s.reason? call.signal

/-- The signals of running calls were handed out, each to one of them. -/
structure OwnSignals (running : List RunningCall) (s : Signals) : Prop where
  once : (running.map (·.signal)).Nodup
  handed : ∀ call ∈ running, call.signal < s.next

namespace OwnSignals

variable {running : List RunningCall} {s : Signals}

/-- An abort does to running calls what it does to calls that can be asked to end. -/
theorem abortable_raiseAll (own : OwnSignals running s) (contract message : String) :
    running.map (·.abortable (s.raiseAll (running.filter (·.contract == contract)) message)) =
      (running.map (·.abortable s)).map (.hear contract message) := by
  rw [List.map_map]
  apply List.map_congr_left
  intro call mem
  have found : call.signal ∈ (running.filter (·.contract == contract)).map (·.signal) ↔
      call.contract = contract := by
    constructor
    · intro found
      obtain ⟨other, kept, same⟩ := List.mem_map.1 found
      obtain ⟨mem', called⟩ := List.mem_filter.1 kept
      have one : other = call := List.inj_on_of_nodup_map own.once mem' mem same
      exact one ▸ beq_iff_eq.1 called
    · intro called
      exact List.mem_map.2 ⟨call, List.mem_filter.2 ⟨mem, beq_iff_eq.2 called⟩, rfl⟩
  have reason := s.reason?_raiseAll (running.filter (·.contract == contract)) message
    (own.handed call mem)
  unfold RunningCall.abortable Abortable.hear
  rw [reason]
  by_cases called : call.contract = contract
  · simp only [found.2 called, called, ↓reduceIte, Function.comp_apply]
  · simp only [mt found.1 called, called, ↓reduceIte, Function.comp_apply, Option.or_none]

/-- Between the turns of calls the journal says the same of running calls as their signals. -/
theorem abortableIn_append (own : OwnSignals running s) {events early : List Event}
    (turnless : ∀ event ∈ events, event.isTurn = false)
    (same : abortableIn early = running.map (·.abortable s)) :
    abortableIn (events ++ early) = running.map (·.abortable (s.after running events)) ∧
      OwnSignals running (s.after running events) := by
  induction events with
  | nil => exact ⟨same, own⟩
  | cons event events ih =>
      obtain ⟨plain, turnless⟩ := List.forall_mem_cons.1 turnless
      obtain ⟨same, own⟩ := ih turnless
      cases event with
      | obtained => cases plain
      | ended => cases plain
      | abort contract message signalled live =>
          constructor
          · show (abortableIn (events ++ early)).map _ = _
            rw [same]
            exact (own.abortable_raiseAll contract message).symm
          · exact ⟨own.once, fun call mem => by
              simpa [Signals.after, Signals.hear] using own.handed call mem⟩
      | _ => exact ⟨same, own⟩

end OwnSignals

/-! ## What a host hears -/

/-- True of an event by which no call turns into one that can be asked to end, or back. An
abort came from the surroundings, and was told how many calls of its contract are running
and how many contexts are live. -/
def Event.Arrives (s : Surroundings) (running : List RunningCall) (live : Nat) : Event → Prop
  | .abort contract message signalled live' =>
    signalled = (running.filter fun call => call.contract == contract).length ∧ live' = live ∧
      ∃ access op key, (contract, message) ∈ s.aborts access op key
  | event => event.isTurn = false

theorem Event.Arrives.isTurn {event : Event} {s : Surroundings} {running : List RunningCall}
    {live : Nat} (arrives : event.Arrives s running live) : event.isTurn = false := by
  cases event <;> first | rfl | exact arrives

theorem Event.arrives_of_isSteady {event : Event} {s : Surroundings}
    {running : List RunningCall} {live : Nat} (steady : event.isSteady) :
    event.Arrives s running live := by
  cases event <;> first | rfl | cases steady

namespace Host

variable {M : Type}

/-- From one host to the next the running calls and the live contexts stayed the same, and
signals were raised by the aborts that arrived. -/
structure Heard (h g : Host M) : Prop where
  surroundings : g.surroundings = h.surroundings
  running : g.running = h.running
  live : g.contexts.live = h.contexts.live
  told : ∃ events, g.journal = events ++ h.journal ∧
    g.signals = h.signals.after h.running events ∧
    ∀ event ∈ events, event.Arrives h.surroundings h.running h.contexts.size

namespace Heard

variable {h g f : Host M}

/-- Nothing was heard. -/
theorem of_journal (events : List Event) (surroundings : g.surroundings = h.surroundings)
    (running : g.running = h.running) (live : g.contexts.live = h.contexts.live)
    (signals : g.signals = h.signals) (journal : g.journal = events ++ h.journal)
    (steady : ∀ event ∈ events, event.isSteady) : Heard h g where
  surroundings; running; live
  told := by
    refine ⟨events, journal, ?_, fun event mem => Event.arrives_of_isSteady (steady event mem)⟩
    rw [signals, Signals.after_of_no_abort]
    intro contract message signalled live mem
    cases steady _ mem

theorem refl (h : Host M) : Heard h h := .of_journal [] rfl rfl rfl rfl rfl (by simp)

theorem note (h : Host M) {event : Event} (steady : event.isSteady) : Heard h (h.note event) :=
  .of_journal [event] rfl rfl rfl rfl rfl (by simpa using steady)

theorem trans (first : Heard h g) (second : Heard g f) : Heard h f where
  surroundings := second.surroundings.trans first.surroundings
  running := second.running.trans first.running
  live := second.live.trans first.live
  told := by
    obtain ⟨events, journal, signals, arrived⟩ := first.told
    obtain ⟨events', journal', signals', arrived'⟩ := second.told
    refine ⟨events' ++ events, by rw [journal', journal, List.append_assoc], ?_, ?_⟩
    · rw [signals', signals, first.running, Signals.after_append]
    · have size : g.contexts.size = h.contexts.size := congrArg List.length first.live
      rw [first.surroundings, first.running, size] at arrived'
      exact List.forall_mem_append.2 ⟨arrived', arrived⟩

/-- Nothing else of a host matters. -/
theorem congr (heard : Heard h g) (surroundings : f.surroundings = g.surroundings)
    (running : f.running = g.running) (live : f.contexts.live = g.contexts.live)
    (signals : f.signals = g.signals) (journal : f.journal = g.journal) : Heard h f :=
  heard.trans (.of_journal [] surroundings running live signals journal (by simp))

/-- An abort arrives. -/
theorem receiveAbort (h : Host M) {contract message : String} {access : Nat} {op : StoreOp}
    {key : Bytes} (arriving : (contract, message) ∈ h.surroundings.aborts access op key) :
    Heard h (h.receiveAbort (contract, message)) where
  surroundings := rfl
  running := rfl
  live := rfl
  told := ⟨[_], rfl, rfl, List.forall_mem_singleton.2 ⟨rfl, rfl, access, op, key, arriving⟩⟩

/-- Before an access of the store aborts arrive. -/
theorem beforeAccess (op : StoreOp) (key : Bytes) (h : Host M) :
    Heard h (h.beforeAccess op key) := by
  have arrive (aborts : List (String × String)) {g : Host M}
      (arriving : ∀ abort ∈ aborts, abort ∈ g.surroundings.aborts h.accesses op key) :
      Heard g (aborts.foldl Host.receiveAbort g) := by
    induction aborts generalizing g with
    | nil => exact .refl g
    | cons abort rest ih =>
        obtain ⟨first, arriving⟩ := List.forall_mem_cons.1 arriving
        exact (receiveAbort g first).trans (ih arriving)
  have counted : Heard h { h.note (.access op key) with accesses := h.accesses + 1 } :=
    .of_journal [.access op key] rfl rfl rfl rfl rfl (by simp [Event.isSteady])
  exact counted.trans (arrive (h.surroundings.aborts h.accesses op key) fun _ mem => mem)

/-- With an access of the store aborts arrive. -/
theorem access {α : Type} (op : StoreOp) (key : Bytes) (use : Store → α × Store) (h : Host M) :
    Ends (fun _ => Heard h) (fun _ => Heard h) (runFrom (HostM.access op key use) h) :=
  access_ends (fun _ => beforeAccess op key h)
    ((beforeAccess op key h).congr rfl rfl rfl rfl rfl)

/-- Where no aborts can arrive, no signal is raised. -/
theorem signals_of_no_abort (heard : Heard h g)
    (undisturbed : ∀ access op key, h.surroundings.aborts access op key = []) :
    g.signals = h.signals := by
  obtain ⟨events, _, signals, arrived⟩ := heard.told
  rw [signals, Signals.after_of_no_abort]
  intro contract message signalled live mem
  obtain ⟨_, _, access, op, key, arriving⟩ := arrived _ mem
  rw [undisturbed] at arriving
  cases arriving

end Heard

end Host

end ContractHost
