/-
# The accounts in a journal

A journal tells when each call began, what its program used by itself, and how the call
ended. So what is reported for a call can be compared with the journal of that call: the
stretch from its beginning to its end, which holds all the calls inside it.
-/

import ContractHost.Config
import ContractHost.Journal
import ContractHost.Proofs.Resources

namespace ContractHost

/-- The usage and the gas that a result reports, if it reports any. -/
def billed? : Except HostError Outcome → Option (Resources × UInt64)
  | .ok outcome => some (outcome.resources, outcome.gas)
  | .error (.contract _ resources gas) => some (resources, gas)
  | .error _ => none

namespace Event

/-- The call whose program was done by an event, and what the program used by itself. -/
def measured? : Event → Option (ContextId × Resources)
  | .measured context _ used => some (context, used)
  | _ => none

/-- The call that was begun by an event. -/
def began? : Event → Option ContextId
  | .began context _ => some context
  | _ => none

/-- True of the events that accounts are made of. -/
def isEntry : Event → Bool
  | .began .. | .measured .. | .ended .. => true
  | _ => false

/-- True of the ends of calls. -/
def isEnd : Event → Bool
  | .ended .. => true
  | _ => false

variable {event : Event}

theorem measured?_of_not_isEntry (silent : event.isEntry = false) : event.measured? = none := by
  cases event <;> first | rfl | cases silent

theorem began?_of_not_isEntry (silent : event.isEntry = false) : event.began? = none := by
  cases event <;> first | rfl | cases silent

end Event

/-- What programs used by themselves, latest first. -/
def usagesIn (events : List Event) : List Resources :=
  (events.filterMap Event.measured?).map (·.2)

/-- The calls whose programs were done, latest first. -/
def measuredIn (events : List Event) : List ContextId :=
  (events.filterMap Event.measured?).map (·.1)

/-- The calls that were begun, latest first. -/
def begunIn (events : List Event) : List ContextId := events.filterMap Event.began?

/-- What happened since a call was begun. -/
def sinceBegan (id : ContextId) (events : List Event) : List Event :=
  events.takeWhile fun event => event.began? != some id

/-- All programs that were done ran to their ends, within the limit of gas and using nothing
but time and memory. -/
def WithinGas (config : Config) (events : List Event) : Prop :=
  ∀ context result used, .measured context result used ∈ events →
    result = .ok () ∧ used.cpu ≤ config.gasLimit ∧ used.disk = 0 ∧ used.fee = 0

/-- The end of a call agrees with what happened during the call. A result that reports usage
reports that of all calls inside, each counted once, within the limits and at the price that
the rates give. A call whose program ran to its end has exhausted its gas if it passed the
limits, and only then. -/
structure Accounted (config : Config) (id : ContextId) (events : List Event)
    (result : Except HostError Outcome) : Prop where
  reported : ∀ used gas, billed? result = some (used, gas) →
    used = Resources.total (usagesIn events) ∧ used.exceeds config.maxLimits = false ∧
      gas = used.gas config.rates ∧ (measuredIn events).Perm (id :: begunIn events) ∧
      WithinGas config events
  exhausted : ∀ own, .measured id (.ok ()) own ∈ events →
    (Resources.total (usagesIn events)).exceeds config.maxLimits = true →
    result = .error (.trap .gasExhausted)
  passed : ∀ own, .measured id (.ok ()) own ∈ events → result = .error (.trap .gasExhausted) →
    (Resources.total (usagesIn events)).exceeds config.maxLimits = true

/-- The ends of all calls agree with what happened during them. -/
def Reckoned (config : Config) (events : List Event) : Prop :=
  ∀ id result early, (.ended id result :: early) <:+ events →
    Accounted config id (sinceBegan id early) result

section Lists

variable (events earlier : List Event)

@[simp]
theorem usagesIn_append : usagesIn (events ++ earlier) = usagesIn events ++ usagesIn earlier := by
  simp [usagesIn]

@[simp]
theorem measuredIn_append :
    measuredIn (events ++ earlier) = measuredIn events ++ measuredIn earlier := by
  simp [measuredIn]

@[simp]
theorem begunIn_append : begunIn (events ++ earlier) = begunIn events ++ begunIn earlier := by
  simp [begunIn]

end Lists

section Silent

variable {events : List Event} (silent : ∀ event ∈ events, event.isEntry = false)

include silent

theorem usagesIn_silent : usagesIn events = [] := by
  rw [usagesIn, List.filterMap_eq_nil_iff.2 fun event mem =>
    Event.measured?_of_not_isEntry (silent event mem)]
  rfl

theorem measuredIn_silent : measuredIn events = [] := by
  rw [measuredIn, List.filterMap_eq_nil_iff.2 fun event mem =>
    Event.measured?_of_not_isEntry (silent event mem)]
  rfl

theorem begunIn_silent : begunIn events = [] :=
  List.filterMap_eq_nil_iff.2 fun event mem => Event.began?_of_not_isEntry (silent event mem)

end Silent

theorem WithinGas.silent {config : Config} {events later : List Event}
    (within : WithinGas config events) (silent : ∀ event ∈ later, event.isEntry = false) :
    WithinGas config (later ++ events) := by
  intro context result used mem
  rcases List.mem_append.1 mem with mem | mem
  · exact Bool.noConfusion (silent _ mem)
  · exact within context result used mem

theorem mem_measuredIn {id : ContextId} {events : List Event}
    {result : Except HostError Unit} {used : Resources} (mem : .measured id result used ∈ events) :
    id ∈ measuredIn events :=
  List.mem_map.2 ⟨(id, used), List.mem_filterMap.2 ⟨_, mem, rfl⟩, rfl⟩

/-- Since a call was begun just that has happened which stands above its beginning. -/
theorem sinceBegan_append {id : ContextId} {events : List Event} (other : id ∉ begunIn events)
    (description : Option Bytes) (earlier : List Event) :
    sinceBegan id (events ++ .began id description :: earlier) = events := by
  unfold sinceBegan
  rw [List.takeWhile_append_of_pos]
  · simp [Event.began?]
  · intro event mem
    refine bne_iff_ne.2 fun began => other ?_
    exact List.mem_filterMap.2 ⟨event, mem, began⟩

namespace Reckoned

variable {config : Config} {events : List Event}

theorem nil (config : Config) : Reckoned config [] := by
  intro id result early suffix
  simp at suffix

/-- What is no end of a call needs no account. -/
theorem cons (reckoned : Reckoned config events) {event : Event}
    (other : event.isEnd = false) : Reckoned config (event :: events) := by
  intro id result early suffix
  rcases List.suffix_cons_iff.1 suffix with same | suffix
  · cases same
    cases other
  · exact reckoned id result early suffix

theorem silent (reckoned : Reckoned config events) {later : List Event}
    (silent : ∀ event ∈ later, event.isEntry = false) : Reckoned config (later ++ events) := by
  induction later with
  | nil => exact reckoned
  | cons event later ih =>
      obtain ⟨plain, silent⟩ := List.forall_mem_cons.1 silent
      refine (ih silent).cons ?_
      cases event <;> first | rfl | cases plain

/-- A call ends as it has to. -/
theorem ended (reckoned : Reckoned config events) {id : ContextId}
    {result : Except HostError Outcome}
    (accounted : Accounted config id (sinceBegan id events) result) :
    Reckoned config (.ended id result :: events) := by
  intro id' result' early suffix
  rcases List.suffix_cons_iff.1 suffix with same | suffix
  · cases same
    exact accounted
  · exact reckoned id' result' early suffix

end Reckoned

end ContractHost
