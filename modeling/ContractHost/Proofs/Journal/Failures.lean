/-
# Failures in a journal

A call fails when its program fails, when it comes to its end without an outcome, or when
it is refused before it begins. All of this stands in the journal: in the measure of its
program, in its end, in its result, and in the answer to the program that asked for it. A
failure that the called contract reports is no failure in this sense, but an answer.

Once a call has failed, the calls around it fail too. What can stand in the journal from
then on is told here, and what a journal looks like in which it is so.
-/

import ContractHost.Journal
import ContractHost.Proofs.Host.Acts

namespace ContractHost

/-- The failure with which something has ended, unless a contract reported it. -/
def failureOf {α : Type} : Except HostError α → Option HostError
  | .ok _ => none
  | .error e => if e.isReport then none else some e

theorem failureOf_error {α : Type} {e : HostError} (own : e.isReport = false) :
    failureOf (.error e : Except HostError α) = some e := by
  simp [failureOf, own]

theorem eq_error_of_failureOf {α : Type} {result : Except HostError α} {e : HostError}
    (failed : failureOf result = some e) : result = .error e ∧ e.isReport = false := by
  cases result with
  | ok _ => cases failed
  | error d =>
      by_cases own : d.isReport = true
      · simp [failureOf, own] at failed
      · simp only [failureOf, own, Bool.false_eq_true, ↓reduceIte, Option.some.injEq] at failed
        exact ⟨congrArg _ failed, failed ▸ Bool.eq_false_iff.2 own⟩

theorem HostError.error_eq_of_failureOf {α : Type} {result : Except HostError α} {d e : HostError}
    (ended : result = .error e) (failed : failureOf result = some d) : d = e := by
  have same := (eq_error_of_failureOf failed).1
  rw [ended] at same
  exact (Except.error.inj same).symm

namespace Event

/-- The failure of a call that an event tells. -/
def failure? : Event → Option HostError
  | .measured _ result _ => failureOf result
  | .ended _ result => failureOf result
  | .finished _ result => failureOf result
  | .answered _ (.contractCall ..) result => failureOf result
  | _ => none

/-- What happens while calls fail with an error, one after the other: programs are done and
calls end, all with this error, and machines and code are given up. -/
def unwinds (e : HostError) : Event → Prop
  | .measured _ result _ => result = .error e
  | .ended _ result => result = .error e
  | .finished _ result => result = .error e
  | .answered _ (.contractCall ..) result => result = .error e
  | event => event.isClearance

/-- True of the events between which calls are open, and of reports that are to be
answered. -/
def isSeam : Event → Bool
  | .began .. | .ended .. => true
  | .finished _ (.error e) => e.isReport
  | _ => false

variable {event : Event} {e : HostError}

theorem unwinds_of_isClearance (clear : event.isClearance) : event.unwinds e := by
  cases event <;> first | exact clear | cases clear

theorem failure?_of_isBackstage (backstage : event.isBackstage) : event.failure? = none := by
  cases event <;> first | rfl | cases backstage

theorem isSeam_of_isBackstage (backstage : event.isBackstage) : event.isSeam = false := by
  cases event <;> first | rfl | cases backstage

/-- What a program does by itself is no failure of a call. -/
theorem failure?_of_isOf {id : ContextId} {live : List ContextId} (own : event.IsOf id live) :
    event.failure? = none := by
  cases event with
  | answered context request result =>
      cases request <;> first | rfl | exact absurd rfl own.2
  | _ => first | rfl | exact failure?_of_isBackstage own

theorem isSeam_of_isOf {id : ContextId} {live : List ContextId} (own : event.IsOf id live) :
    event.isSeam = false := by
  cases event <;> first | rfl | exact isSeam_of_isBackstage own

/-- An event that tells a failure while calls fail with an error tells that error. -/
theorem eq_of_unwinds {d : HostError} (unwinding : event.unwinds e)
    (failed : event.failure? = some d) : d = e := by
  cases event with
  | measured _ result _ =>
      exact HostError.error_eq_of_failureOf unwinding failed
  | ended _ result => exact HostError.error_eq_of_failureOf unwinding failed
  | finished _ result => exact HostError.error_eq_of_failureOf unwinding failed
  | answered _ request result =>
      cases request <;>
        first | cases failed | exact HostError.error_eq_of_failureOf unwinding failed
  | _ => cases failed

end Event

/-! ## Open calls -/

/-- The calls that were begun and have not ended, latest first. -/
def openIn : List Event → List ContextId
  | [] => []
  | .began id _ :: earlier => id :: openIn earlier
  | .ended id _ :: earlier => (openIn earlier).filter (· != id)
  | _ :: earlier => openIn earlier

theorem openIn_cons {event : Event} (plain : event.isSeam = false) (earlier : List Event) :
    openIn (event :: earlier) = openIn earlier := by
  cases event <;> first | rfl | cases plain

theorem openIn_append {later : List Event} (plain : ∀ event ∈ later, event.isSeam = false)
    (earlier : List Event) : openIn (later ++ earlier) = openIn earlier := by
  induction later with
  | nil => rfl
  | cons event later ih =>
      obtain ⟨first, plain⟩ := List.forall_mem_cons.1 plain
      exact (openIn_cons first _).trans (ih plain)

/-- A call that was open once and is not open any more has ended since. -/
theorem ended_of_open {id : ContextId} {late early : List Event} (was : id ∈ openIn early)
    (gone : id ∉ openIn (late ++ early)) : ∃ result, .ended id result ∈ late := by
  induction late with
  | nil => exact absurd was gone
  | cons event late ih =>
      by_cases already : id ∈ openIn (late ++ early)
      · cases event with
        | ended other result =>
            by_cases same : id = other
            · exact ⟨result, same ▸ List.mem_cons_self⟩
            · have still : id ∈ (openIn (late ++ early)).filter (· != other) :=
                List.mem_filter.2 ⟨already, bne_iff_ne.2 same⟩
              exact absurd still gone
        | began other _ => exact absurd (List.mem_cons_of_mem _ already) gone
        | _ => exact absurd already gone
      · obtain ⟨result, mem⟩ := ih already
        exact ⟨result, List.mem_cons_of_mem _ mem⟩

/-! ## Two stages of a request -/

/-- No call has failed, or the first failure was this one and calls have failed with it
since. -/
def Stands : Option HostError → List Event → Prop
  | none, events => ∀ event ∈ events, event.failure? = none
  | some e, events => ∃ late early, events = late ++ early ∧
      (∀ event ∈ early, event.failure? = none) ∧ ∀ event ∈ late, event.unwinds e

/-- True of what can happen as long as no call has failed, or once one has. -/
def Event.suits : Option HostError → Event → Prop
  | none, event => event.failure? = none
  | some e, event => event.unwinds e

section Stages

variable {failure? : Option HostError} {events : List Event} {e : HostError}

theorem Stands.append (stands : Stands failure? events) {later : List Event}
    (suits : ∀ event ∈ later, event.suits failure?) : Stands failure? (later ++ events) := by
  cases failure? with
  | none => exact List.forall_mem_append.2 ⟨suits, stands⟩
  | some e =>
      obtain ⟨late, early, rfl, unfailed, unwinding⟩ := stands
      exact ⟨later ++ late, early, (List.append_assoc ..).symm, unfailed,
        List.forall_mem_append.2 ⟨suits, unwinding⟩⟩

theorem Stands.cons (stands : Stands failure? events) {event : Event}
    (suits : event.suits failure?) : Stands failure? (event :: events) :=
  stands.append (List.forall_mem_singleton.2 suits)

/-- Calls fail from now on. -/
theorem Stands.fail (stands : Stands none events) (e : HostError) : Stands (some e) events :=
  ⟨[], events, rfl, stands, by simp⟩

/-- An event that tells how something has ended agrees with what happened before it. -/
theorem Stands.tell (stands : Stands failure? events) {event : Event}
    (agrees : ∀ e, failure? = some e → event.failure? = some e)
    (unwinds : ∀ e, event.failure? = some e → event.unwinds e) :
    Stands event.failure? (event :: events) := by
  cases failure? with
  | none =>
      cases told : event.failure? with
      | none => exact stands.cons told
      | some e => exact (stands.fail e).cons (unwinds e told)
  | some e =>
      rw [agrees e rfl]
      exact stands.cons (unwinds e (agrees e rfl))

/-- Wherever a failure stands in the journal, it is the one with which calls fail, and what
came after it are calls that fail with it. -/
theorem Stands.of_failure (stands : Stands failure? events) {late early : List Event}
    {event : Event} (split : events = late ++ event :: early) (failed : event.failure? = some e) :
    failure? = some e ∧ ∀ event ∈ late, event.unwinds e := by
  cases failure? with
  | none =>
      have unfailed : event.failure? = none := stands event (by simp [split])
      rw [unfailed] at failed
      cases failed
  | some d =>
      obtain ⟨late', early', split', unfailed, unwinding⟩ := stands
      rcases List.append_eq_append_iff.1 (split.symm.trans split') with
        ⟨between, rfl, same⟩ | ⟨between, rfl, same⟩
      · cases between with
        | nil =>
            have plain : event.failure? = none := by
              refine unfailed event ?_
              rw [← List.nil_append early', ← same]
              exact List.mem_cons_self
            rw [plain] at failed
            cases failed
        | cons first between =>
            obtain ⟨rfl, _⟩ := List.cons.inj same
            have own := Event.eq_of_unwinds (unwinding event (by simp)) failed
            rw [own]
            exact ⟨rfl, fun event mem => unwinding event (List.mem_append_left _ mem)⟩
      · have plain : event.failure? = none := by
          refine unfailed event ?_
          rw [same]
          simp
        rw [plain] at failed
        cases failed

end Stages

/-! ## Reports -/

/-- Every failure that a called contract reports has been an answer to the innermost open
call, and has been the answer at once. -/
def Replied (events : List Event) : Prop :=
  ∀ name response used gas early,
    (.finished name (.error (.contract response used gas)) :: early) <:+ events →
    ∃ caller others method args, openIn early = caller :: others ∧
      (.answered caller (.contractCall SyscallRequest.contractModule name method args)
          (.ok (.response response)) ::
        .finished name (.error (.contract response used gas)) :: early) <:+ events

namespace Replied

variable {events : List Event}

theorem nil : Replied [] := by
  intro name response used gas early suffix
  simp at suffix

theorem cons (replied : Replied events) {event : Event}
    (other : ∀ name response used gas,
      event ≠ .finished name (.error (.contract response used gas))) :
    Replied (event :: events) := by
  intro name response used gas early suffix
  rcases List.suffix_cons_iff.1 suffix with same | suffix
  · exact absurd (List.cons.inj same).1.symm (other name response used gas)
  · obtain ⟨caller, others, method, args, opened, answered⟩ := replied _ _ _ _ _ suffix
    exact ⟨caller, others, method, args, opened, answered.trans (List.suffix_cons ..)⟩

theorem append (replied : Replied events) {later : List Event}
    (plain : ∀ event ∈ later, event.isSeam = false) : Replied (later ++ events) := by
  induction later with
  | nil => exact replied
  | cons event later ih =>
      obtain ⟨first, plain⟩ := List.forall_mem_cons.1 plain
      refine (ih plain).cons ?_
      rintro name response used gas rfl
      cases first

/-- A report is an answer. -/
theorem reply (replied : Replied events) {caller : ContextId} {others : List ContextId}
    (opened : openIn events = caller :: others) (name method : String) (args : List ArgPair)
    (response : Response) (used : Resources) (gas : UInt64) :
    Replied (.answered caller (.contractCall SyscallRequest.contractModule name method args)
        (.ok (.response response)) ::
      .finished name (.error (.contract response used gas)) :: events) := by
  intro name' response' used' gas' early suffix
  rcases List.suffix_cons_iff.1 suffix with same | suffix
  · cases same
  · rcases List.suffix_cons_iff.1 suffix with same | suffix
    · cases same
      exact ⟨caller, others, method, args, opened, List.suffix_rfl⟩
    · obtain ⟨caller, others, method, args, opened, answered⟩ := replied _ _ _ _ _ suffix
      exact ⟨caller, others, method, args, opened,
        answered.trans ((List.suffix_cons ..).trans (List.suffix_cons ..))⟩

end Replied

end ContractHost
