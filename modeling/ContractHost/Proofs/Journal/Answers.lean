/-
# The answers in a journal

A program asks for the output of its call by syscalls, and the last one that it asks for
is what the call may answer with. It asks about its call by syscalls, too, and is told at
once. The calls that it makes are answered by the responses of these calls. All of this can
be read off the journal, latest first, and so it can be said of a journal that no two calls
were mixed up in it.
-/

import ContractHost.Proofs.Context
import ContractHost.Proofs.Journal.Aborts
import ContractHost.Proofs.Journal.Accounts

namespace ContractHost

/-- A response reports no failure below a status of 400. -/
theorem Response.not_isError_iff (response : Response) :
    (!response.isError) = true ↔ response.status < 400 := by
  rw [isError, Bool.not_eq_true', decide_eq_false_iff_not]
  exact Int32.not_le

/-- The response that a call ended with, if it ended with one. -/
def response? : Except HostError Outcome → Option Response
  | .ok outcome => some outcome.response
  | .error (.contract response _ _) => some response
  | .error _ => none

namespace Event

/-- The output that the program of a context asked for by an event. -/
def output? (id : ContextId) : Event → Option Response
  | .syscall context (.setOutput response) _ => if context = id then some response else none
  | _ => none

/-- True of the syscalls by which programs ask for outputs or about their calls. -/
def isOwnAffair : Event → Bool
  | .syscall _ (.setOutput _) _ | .syscall _ .getCallArgs _ => true
  | _ => false

theorem output?_of_not_isOwnAffair {event : Event} (other : event.isOwnAffair = false)
    (id : ContextId) : event.output? id = none := by
  cases event with
  | syscall _ request _ => cases request <;> first | rfl | cases other
  | _ => rfl

/-- True of the beginnings and ends of calls, and of the answers to calls of contracts. -/
def isCrossing : Event → Bool
  | .began .. | .ended .. | .answered _ (.contractCall ..) _ => true
  | _ => false

end Event

/-- The output that the program of a context asked for last. -/
def lastOutput? (id : ContextId) (events : List Event) : Option Response :=
  events.findSome? fun event => event.output? id

/-- What a call is told about itself. -/
def CallSetup.callArgs (setup : CallSetup) : CallArgs :=
  .ofArguments setup.method setup.args setup.caller

/-- Whenever a program asked about its call, it was told at once what the call was made
with. -/
def Informed (cs : Contexts) (events : List Event) : Prop :=
  ∀ late id live early, events = late ++ .syscall id .getCallArgs live :: early →
    ∃ setup, cs.setup? id = some setup ∧
      late.getLast? = some (.answered id .getCallArgs (.ok (.callArgs setup.callArgs)))

/-- The end of a call agrees with the outputs that its program asked for. An answer is the
last one, and a program that was done without any has left none. -/
structure OwnAnswer (cs : Contexts) (id : ContextId) (events : List Event)
    (result : Except HostError Outcome) : Prop where
  answer : ∀ response, response? result = some response →
    lastOutput? id events = some response ∧ result.isOk = !response.isError
  silent : ∀ own, .measured id (.ok ()) own ∈ events → lastOutput? id events = none →
    result = .error (.trap .gasExhausted) ∨
      ∃ setup, cs.setup? id = some setup ∧ result = .error (.missingOutput setup.contract)

/-- A call was made for a program that asked for a call of a contract with some arguments, and
in the name of its contract. -/
structure CallSetup.MadeFor (setup : CallSetup) (cs : Contexts) (caller : ContextId)
    (contract method : String) (args : List ArgPair) : Prop where
  contract : setup.contract = contract
  method : setup.method = method
  args : setup.args = Arguments.ofPairs args
  caller : ∃ maker, cs.setup? caller = some maker ∧ setup.caller = maker.contract

/-- A call was begun because a program had just asked for it. -/
def Summoned (cs : Contexts) (id : ContextId) (early : List Event) : Prop :=
  ∃ setup caller contract method args live behind before,
    cs.setup? id = some setup ∧ setup.MadeFor cs caller contract method args ∧
    early = .started contract :: (behind ++ .syscall caller
      (.contractCall SyscallRequest.contractModule contract method args) live :: before) ∧
    ∀ event ∈ behind, event.isBackstage

/-- A call of a contract was answered with the response of a call that was made for it and
that has just ended. -/
def Relay (cs : Contexts) (caller : ContextId) (contract method : String) (args : List ArgPair)
    (answer : SyscallResponse) (early : List Event) : Prop :=
  ∃ id setup result response released before,
    cs.setup? id = some setup ∧ setup.MadeFor cs caller contract method args ∧
    early = released ++ .finished contract result :: .ended id result :: before ∧
    response? result = some response ∧ answer = .response response ∧
    ∀ event ∈ released, event = .engine .releaseModule

/-- No two calls were mixed up. Every call but the first was made for a program that had just
asked for it, each has ended with an answer of its own, each answer went to who asked for the
call, and programs were told about their own calls. -/
structure Truthful (cs : Contexts) (events : List Event) : Prop where
  summoned : ∀ id description early, (.began id description :: early) <:+ events →
    begunIn early = [] ∨ Summoned cs id early
  ended : ∀ id result early, (.ended id result :: early) <:+ events →
    OwnAnswer cs id (sinceBegan id early) result
  relayed : ∀ caller module contract method args answer early,
    (.answered caller (.contractCall module contract method args) (.ok answer) :: early) <:+
      events → Relay cs caller contract method args answer early
  informed : Informed cs events

variable {cs : Contexts} {events later : List Event} {id : ContextId}

theorem lastOutput?_append (id : ContextId) (later events : List Event) :
    lastOutput? id (later ++ events) = (lastOutput? id later).or (lastOutput? id events) :=
  List.findSome?_append

theorem lastOutput?_eq_none (silent : ∀ event ∈ events, event.output? id = none) :
    lastOutput? id events = none :=
  List.findSome?_eq_none_iff.2 silent

/-- What was asked for earlier counts if nothing was asked for since. -/
theorem lastOutput?_silent (silent : ∀ event ∈ later, event.isOwnAffair = false)
    (events : List Event) : lastOutput? id (later ++ events) = lastOutput? id events := by
  rw [lastOutput?_append, lastOutput?_eq_none, Option.none_or]
  exact fun event mem => Event.output?_of_not_isOwnAffair (silent event mem) id

namespace Informed

theorem silent (silent : ∀ event ∈ events, event.isOwnAffair = false) : Informed cs events := by
  rintro late id live early rfl
  have asked := silent (.syscall id .getCallArgs live)
    (List.mem_append_right _ List.mem_cons_self)
  cases asked

theorem mono (informed : Informed cs events) {cs' : Contexts}
    (kept : ∀ {id setup}, cs.setup? id = some setup → cs'.setup? id = some setup) :
    Informed cs' events := by
  intro late id live early split
  obtain ⟨setup, known, told⟩ := informed late id live early split
  exact ⟨setup, kept known, told⟩

/-- Every stretch of a journal in which programs were told at once may follow another. -/
theorem append (informed' : Informed cs later) (informed : Informed cs events) :
    Informed cs (later ++ events) := by
  intro late id live early split
  rcases List.append_eq_append_iff.1 split with ⟨rest, rfl, inside⟩ | ⟨rest, inside, outside⟩
  · -- the question stands in the earlier stretch
    obtain ⟨setup, known, told⟩ := informed rest id live early inside
    exact ⟨setup, known, by rw [List.getLast?_append, told, Option.some_or]⟩
  · cases rest with
    | nil =>
        obtain ⟨setup, known, told⟩ := informed [] id live early outside.symm
        cases told
    | cons event rest =>
        obtain ⟨rfl, -⟩ := List.cons.inj outside
        exact informed' late id live rest inside

theorem cons (informed : Informed cs events) {event : Event}
    (silent : event.isOwnAffair = false) : Informed cs (event :: events) :=
  Informed.append (.silent (List.forall_mem_singleton.2 silent)) informed

end Informed

/-- What is not found in a later stretch of a journal stands in the earlier one. -/
theorem suffix_of_not_mem {event : Event} {early : List Event}
    (suffix : (event :: early) <:+ later ++ events) (other : event ∉ later) :
    (event :: early) <:+ events := by
  induction later with
  | nil => exact suffix
  | cons first later ih =>
      rcases List.suffix_cons_iff.1 suffix with same | suffix
      · exact absurd (List.cons.inj same).1 (List.ne_of_not_mem_cons other)
      · exact ih suffix (List.not_mem_of_not_mem_cons other)

theorem OwnAnswer.mono {result : Except HostError Outcome} (own : OwnAnswer cs id events result)
    {cs' : Contexts}
    (kept : ∀ {id setup}, cs.setup? id = some setup → cs'.setup? id = some setup) :
    OwnAnswer cs' id events result where
  answer := own.answer
  silent := by
    intro used measured unasked
    refine (own.silent used measured unasked).imp_right ?_
    rintro ⟨setup, known, missing⟩
    exact ⟨setup, kept known, missing⟩

section Mono

variable {cs' : Contexts}
  (kept : ∀ {id setup}, cs.setup? id = some setup → cs'.setup? id = some setup)

include kept

theorem CallSetup.MadeFor.mono {setup : CallSetup} {caller : ContextId}
    {contract method : String} {args : List ArgPair}
    (made : setup.MadeFor cs caller contract method args) :
    setup.MadeFor cs' caller contract method args where
  contract := made.contract
  method := made.method
  args := made.args
  caller := by
    obtain ⟨maker, known, named⟩ := made.caller
    exact ⟨maker, kept known, named⟩

theorem Summoned.mono {early : List Event} (summoned : Summoned cs id early) :
    Summoned cs' id early := by
  obtain ⟨setup, caller, contract, method, args, live, behind, before, known, made, rest⟩ := summoned
  exact ⟨setup, caller, contract, method, args, live, behind, before, kept known, made.mono kept,
    rest⟩

theorem Relay.mono {caller : ContextId} {contract method : String} {args : List ArgPair}
    {answer : SyscallResponse} {early : List Event}
    (relay : Relay cs caller contract method args answer early) :
    Relay cs' caller contract method args answer early := by
  obtain ⟨id, setup, result, response, released, before, known, made, rest⟩ := relay
  exact ⟨id, setup, result, response, released, before, kept known, made.mono kept, rest⟩

end Mono

namespace Truthful

theorem nil (cs : Contexts) : Truthful cs [] where
  summoned id description early suffix := by simp at suffix
  ended id result early suffix := by simp at suffix
  relayed caller module contract method args answer early suffix := by simp at suffix
  informed := .silent (by simp)

theorem mono (truthful : Truthful cs events) {cs' : Contexts}
    (kept : ∀ {id setup}, cs.setup? id = some setup → cs'.setup? id = some setup) :
    Truthful cs' events where
  summoned id description early suffix :=
    (truthful.summoned id description early suffix).imp_right (Summoned.mono kept)
  ended id result early suffix := (truthful.ended id result early suffix).mono kept
  relayed caller module contract method args answer early suffix :=
    Relay.mono kept (truthful.relayed caller module contract method args answer early suffix)
  informed := truthful.informed.mono kept

/-- What a program does by itself mixes nothing up. -/
theorem append (truthful : Truthful cs events)
    (plain : ∀ event ∈ later, event.isCrossing = false) (informed : Informed cs later) :
    Truthful cs (later ++ events) where
  summoned id description early suffix := by
    apply truthful.summoned id description early (suffix_of_not_mem suffix _)
    exact fun mem => Bool.noConfusion (plain _ mem)
  ended id result early suffix := by
    apply truthful.ended id result early (suffix_of_not_mem suffix _)
    exact fun mem => Bool.noConfusion (plain _ mem)
  relayed caller module contract method args answer early suffix := by
    apply truthful.relayed caller module contract method args answer early
      (suffix_of_not_mem suffix _)
    exact fun mem => Bool.noConfusion (plain _ mem)
  informed := informed.append truthful.informed

/-- A call begins. -/
theorem beginCall (truthful : Truthful cs events) (description : Option Bytes)
    (asked : begunIn events = [] ∨ Summoned cs id events) :
    Truthful cs (.began id description :: events) where
  summoned id' description' early suffix := by
    rcases List.suffix_cons_iff.1 suffix with same | suffix
    · cases same
      exact asked
    · exact truthful.summoned id' description' early suffix
  ended id' result' early suffix := by
    rcases List.suffix_cons_iff.1 suffix with same | suffix
    · cases same
    · exact truthful.ended id' result' early suffix
  relayed caller module contract method args answer early suffix := by
    rcases List.suffix_cons_iff.1 suffix with same | suffix
    · cases same
    · exact truthful.relayed caller module contract method args answer early suffix
  informed := truthful.informed.cons rfl

/-- A call ends. -/
theorem endCall (truthful : Truthful cs events) {result : Except HostError Outcome}
    (own : OwnAnswer cs id (sinceBegan id events) result) :
    Truthful cs (.ended id result :: events) where
  summoned id' description early suffix := by
    rcases List.suffix_cons_iff.1 suffix with same | suffix
    · cases same
    · exact truthful.summoned id' description early suffix
  ended id' result' early suffix := by
    rcases List.suffix_cons_iff.1 suffix with same | suffix
    · cases same
      exact own
    · exact truthful.ended id' result' early suffix
  relayed caller module contract method args answer early suffix := by
    rcases List.suffix_cons_iff.1 suffix with same | suffix
    · cases same
    · exact truthful.relayed caller module contract method args answer early suffix
  informed := truthful.informed.cons rfl

/-- A call of a contract is answered. -/
theorem reply (truthful : Truthful cs events) {caller : ContextId}
    (module contract method : String) (args : List ArgPair)
    {result : Except HostError SyscallResponse}
    (relay : ∀ answer, result = .ok answer → Relay cs caller contract method args answer events) :
    Truthful cs (.answered caller (.contractCall module contract method args) result :: events)
    where
  summoned id' description early suffix := by
    rcases List.suffix_cons_iff.1 suffix with same | suffix
    · cases same
    · exact truthful.summoned id' description early suffix
  ended id' result' early suffix := by
    rcases List.suffix_cons_iff.1 suffix with same | suffix
    · cases same
    · exact truthful.ended id' result' early suffix
  relayed caller' module' contract' method' args' answer early suffix := by
    rcases List.suffix_cons_iff.1 suffix with same | suffix
    · cases same
      exact relay answer rfl
    · exact truthful.relayed _ _ _ _ _ _ _ suffix
  informed := truthful.informed.cons rfl

end Truthful

end ContractHost
