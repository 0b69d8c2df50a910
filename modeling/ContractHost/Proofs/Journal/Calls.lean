/-
# The calls in a journal

A journal tells which calls were started and finished, which code they obtained, and which
results cost a contract its code. Nothing else in it matters for what is cached in the end.

Two stages are told apart. At first no call has failed in a way that costs code. Once one
has, the calls that were open at that moment fail in that way too, one after the other from
the inside out, and no call is started and no code is obtained any more.
-/

import ContractHost.Proofs.Call.Anatomy

namespace ContractHost

namespace Manager

/-- True of some results that cost no contract its code: success, a failure that the
contract reports, a missing output, a missing object and the name of no contract. -/
def spares : Except HostError Outcome → Bool
  | .ok _ | .error (.contract ..) | .error (.missingOutput _) | .error (.objectNotFound _)
  | .error (.invalidName _) => true
  | .error _ => false

theorem evicts_of_spares {result : Except HostError Outcome} (spared : spares result = true) :
    evicts result = false := by
  cases result with
  | ok _ => rfl
  | error e =>
      cases e
      all_goals first | rfl | cases spared

end Manager

namespace Event

/-- The contract and the digest of code that a call obtained. -/
def obtained? : Event → Option (String × String)
  | .obtained _ contract digest => some (contract, digest)
  | _ => none

/-- The contract that a result costs its code. -/
def condemned? : Event → Option String
  | .finished contract result => if Manager.evicts result then some contract else none
  | _ => none

/-- True of the events by which a call is counted. -/
def isCount : Event → Bool
  | .started _ | .finished .. => true
  | _ => false

/-- True of the events by which a call is counted or comes by its code. -/
def isMark : Event → Bool
  | .started _ | .obtained .. | .finished .. => true
  | _ => false

/-- True of the events that can follow a failure that costs code: calls end, each with
such a failure. -/
def isUnwinding : Event → Bool
  | .started _ | .obtained .. => false
  | .finished _ result => Manager.evicts result
  | _ => true

variable {event : Event}

theorem obtained?_of_unmarked (unmarked : event.isMark = false) : event.obtained? = none := by
  cases event with
  | obtained => cases unmarked
  | _ => rfl

theorem condemned?_of_unmarked (unmarked : event.isMark = false) : event.condemned? = none := by
  cases event with
  | finished => cases unmarked
  | _ => rfl

theorem isUnwinding_of_unmarked (unmarked : event.isMark = false) : event.isUnwinding = true := by
  cases event with
  | started => cases unmarked
  | obtained => cases unmarked
  | finished => cases unmarked
  | _ => rfl

theorem uncounted_of_unmarked (unmarked : event.isMark = false) : event.isCount = false := by
  cases event <;> first | rfl | cases unmarked

theorem unmarked_of_isInner (inner : event.isInner = true) : event.isMark = false := by
  cases event with
  | started => cases inner
  | obtained => cases inner
  | finished => cases inner
  | _ => rfl

end Event

/-- The contracts whose code was obtained, latest first. -/
def loadedIn (events : List Event) : List String :=
  (events.filterMap Event.obtained?).map (·.1)

/-- The contracts that were to lose their code, latest first. -/
def condemnedIn (events : List Event) : List String := events.filterMap Event.condemned?

/-- The contracts of the calls that were started and have not been finished, innermost
first. -/
def openCalls : List Event → List String
  | [] => []
  | .started contract :: earlier => contract :: openCalls earlier
  | .finished .. :: earlier => (openCalls earlier).tail
  | _ :: earlier => openCalls earlier

theorem mem_loadedIn {contract : String} {events : List Event} :
    contract ∈ loadedIn events ↔ ∃ id digest, .obtained id contract digest ∈ events := by
  unfold loadedIn
  rw [List.mem_map]
  constructor
  · rintro ⟨⟨_, digest⟩, mem, rfl⟩
    obtain ⟨event, mem, loaded⟩ := List.mem_filterMap.1 mem
    cases event with
    | obtained id name digest =>
        cases loaded
        exact ⟨id, digest, mem⟩
    | _ => cases loaded
  · rintro ⟨id, digest, mem⟩
    exact ⟨(contract, digest), List.mem_filterMap.2 ⟨_, mem, rfl⟩, rfl⟩

theorem mem_condemnedIn {contract : String} {events : List Event} :
    contract ∈ condemnedIn events ↔
      ∃ e, .finished contract (.error e) ∈ events ∧ e.evictsCode = true := by
  unfold condemnedIn
  rw [List.mem_filterMap]
  constructor
  · rintro ⟨event, mem, condemned⟩
    cases event with
    | finished name result =>
        cases result with
        | ok _ => cases condemned
        | error e =>
            by_cases evicting : e.evictsCode = true
            · simp only [Event.condemned?, Manager.evicts, evicting, ↓reduceIte,
                Option.some.injEq] at condemned
              exact ⟨e, condemned ▸ mem, evicting⟩
            · simp [Event.condemned?, Manager.evicts, evicting] at condemned
    | _ => cases condemned
  · rintro ⟨e, mem, evicting⟩
    exact ⟨_, mem, if_pos evicting⟩

theorem openCalls_uncounted {events : List Event}
    (uncounted : ∀ event ∈ events, event.isCount = false) (earlier : List Event) :
    openCalls (events ++ earlier) = openCalls earlier := by
  induction events with
  | nil => rfl
  | cons event rest ih =>
      obtain ⟨first, others⟩ := List.forall_mem_cons.1 uncounted
      have ih := ih others
      cases event with
      | started => cases first
      | finished => cases first
      | _ => exact ih

section Unmarked

variable {events : List Event} (unmarked : ∀ event ∈ events, event.isMark = false)
  (earlier : List Event)

include unmarked

theorem loadedIn_unmarked : loadedIn (events ++ earlier) = loadedIn earlier := by
  unfold loadedIn
  rw [List.filterMap_append, List.filterMap_eq_nil_iff.2 fun event mem =>
    Event.obtained?_of_unmarked (unmarked event mem)]
  rfl

theorem condemnedIn_unmarked : condemnedIn (events ++ earlier) = condemnedIn earlier := by
  unfold condemnedIn
  rw [List.filterMap_append, List.filterMap_eq_nil_iff.2 fun event mem =>
    Event.condemned?_of_unmarked (unmarked event mem)]
  rfl

theorem openCalls_unmarked : openCalls (events ++ earlier) = openCalls earlier :=
  openCalls_uncounted (fun event mem => Event.uncounted_of_unmarked (unmarked event mem)) earlier

end Unmarked

theorem condemnedIn_finished (contract : String) (result : Except HostError Outcome)
    (earlier : List Event) :
    condemnedIn (.finished contract result :: earlier) =
      if Manager.evicts result then contract :: condemnedIn earlier else condemnedIn earlier := by
  unfold condemnedIn
  by_cases evicting : Manager.evicts result = true
  · simp [Event.condemned?, evicting]
  · simp [Event.condemned?, evicting]

/-- If nothing was condemned, nothing had been at any earlier moment. -/
theorem condemnedIn_early {late early : List Event} {event : Event}
    (spared : condemnedIn (late ++ event :: early) = []) : condemnedIn early = [] := by
  have plain := List.filterMap_eq_nil_iff.1 spared
  exact List.filterMap_eq_nil_iff.2 fun event mem => plain event (by simp [mem])

/-! ## Two stages of a request -/

/-- No call has failed in a way that costs code, and the given calls are open. -/
structure Intact (calls : List String) (events : List Event) : Prop where
  spared : condemnedIn events = []
  calls : openCalls events = calls

/-- The first failure that costs code, and what has happened since. It was that of the
innermost call. Of the calls that were open then the given ones are still to fail; the
others have failed since, in order, and nothing was started or obtained. -/
structure FailedAt (late : List Event) (contract : String) (e : HostError) (early : List Event)
    (calls : List String) (events : List Event) : Prop where
  split : events = late ++ .finished contract (.error e) :: early
  evicting : e.evictsCode = true
  first : condemnedIn early = []
  innermost : (openCalls early).head? = some contract
  orderly : ∀ event ∈ late, event.isUnwinding = true
  pending : openCalls events = calls
  chain : (condemnedIn events).reverse ++ calls = openCalls early

/-- A call has failed in a way that costs code, and the given calls are still to fail. -/
def Unwinding (calls : List String) (events : List Event) : Prop :=
  ∃ late contract e early, FailedAt late contract e early calls events

namespace Intact

variable {calls : List String} {events : List Event} (intact : Intact calls events)

include intact

theorem unmarked {events' : List Event} (unmarked : ∀ event ∈ events', event.isMark = false) :
    Intact calls (events' ++ events) where
  spared := (condemnedIn_unmarked unmarked events).trans intact.spared
  calls := (openCalls_unmarked unmarked events).trans intact.calls

theorem started (contract : String) : Intact (contract :: calls) (.started contract :: events) where
  spared := intact.spared
  calls := congrArg (contract :: ·) intact.calls

theorem obtained (id : ContextId) (contract digest : String) :
    Intact calls (.obtained id contract digest :: events) where
  spared := intact.spared
  calls := intact.calls

end Intact

variable {calls : List String} {events : List Event} {contract : String}

/-- A result that costs no code closes the innermost call. -/
theorem Intact.finished (intact : Intact (contract :: calls) events)
    {result : Except HostError Outcome} (sparing : Manager.evicts result = false) :
    Intact calls (.finished contract result :: events) where
  spared := by
    rw [condemnedIn_finished, sparing]
    exact intact.spared
  calls := congrArg List.tail intact.calls

/-- A result that costs code begins the unwinding of the open calls. -/
theorem Intact.condemned (intact : Intact (contract :: calls) events) {e : HostError}
    (evicting : e.evictsCode = true) :
    Unwinding calls (.finished contract (.error e) :: events) := by
  have lost : condemnedIn (.finished contract (.error e) :: events) = [contract] := by
    rw [condemnedIn_finished, intact.spared]
    exact if_pos evicting
  exact ⟨[], contract, e, events, {
    split := rfl
    evicting
    first := intact.spared
    innermost := by rw [intact.calls]; rfl
    orderly := by simp
    pending := congrArg List.tail intact.calls
    chain := by rw [lost, intact.calls]; rfl }⟩

namespace Unwinding

theorem unmarked (unwinding : Unwinding calls events) {events' : List Event}
    (unmarked : ∀ event ∈ events', event.isMark = false) :
    Unwinding calls (events' ++ events) := by
  obtain ⟨late, failed, e, early, failure⟩ := unwinding
  refine ⟨events' ++ late, failed, e, early, { failure with
    split := by rw [failure.split, List.append_assoc]
    orderly := fun event mem => ?_
    pending := (openCalls_unmarked unmarked events).trans failure.pending
    chain := by rw [condemnedIn_unmarked unmarked, failure.chain] }⟩
  rcases List.mem_append.1 mem with mem | mem
  · exact Event.isUnwinding_of_unmarked (unmarked event mem)
  · exact failure.orderly event mem

/-- The next call of the chain fails. -/
theorem condemned (unwinding : Unwinding (contract :: calls) events) {e : HostError}
    (evicting : e.evictsCode = true) :
    Unwinding calls (.finished contract (.error e) :: events) := by
  obtain ⟨late, failed, e', early, failure⟩ := unwinding
  have lost : condemnedIn (.finished contract (.error e) :: events) =
      contract :: condemnedIn events := by
    rw [condemnedIn_finished]
    exact if_pos evicting
  exact ⟨.finished contract (.error e) :: late, failed, e', early, { failure with
    split := congrArg (List.cons _) failure.split
    orderly := List.forall_mem_cons.2 ⟨evicting, failure.orderly⟩
    pending := congrArg List.tail failure.pending
    chain := by
      rw [lost, ← failure.chain, List.reverse_cons, List.append_assoc]
      rfl }⟩

/-- What was condemned first is condemned. -/
theorem condemnedIn_ne_nil (unwinding : Unwinding calls events) : condemnedIn events ≠ [] := by
  obtain ⟨late, failed, e, early, failure⟩ := unwinding
  have mem : .finished failed (.error e) ∈ events := by
    rw [failure.split]
    simp
  exact List.ne_nil_of_mem (mem_condemnedIn.2 ⟨e, mem, failure.evicting⟩)

/-- A call that ended with a result that costs no code ended before the first failure. -/
theorem spared_of_finished (unwinding : Unwinding calls events) {late early : List Event}
    {result : Except HostError Outcome} (split : events = late ++ .finished contract result :: early)
    (sparing : Manager.evicts result = false) : condemnedIn early = [] := by
  obtain ⟨late', failed, e, early', failure⟩ := unwinding
  have twice := split.symm.trans failure.split
  have other : Event.finished contract result ≠ .finished failed (.error e) := by
    intro same
    obtain ⟨rfl, rfl⟩ := Event.finished.inj same
    exact Bool.false_ne_true (sparing.symm.trans failure.evicting)
  have apart : .finished contract result ∉ late' := by
    intro mem
    have unwinds : Manager.evicts result = true := failure.orderly _ mem
    exact Bool.false_ne_true (sparing.symm.trans unwinds)
  rcases List.append_eq_append_iff.1 twice with ⟨between, rfl, same⟩ | ⟨between, rfl, same⟩
  · cases between with
    | nil => exact absurd (List.cons.inj same).1 other
    | cons event between =>
        obtain ⟨rfl, _⟩ := List.cons.inj same
        exact absurd (by simp) apart
  · cases between with
    | nil => exact absurd (List.cons.inj same).1.symm other
    | cons event between =>
        obtain ⟨_, later⟩ := List.cons.inj same
        exact condemnedIn_early (later ▸ failure.first)

end Unwinding

end ContractHost
