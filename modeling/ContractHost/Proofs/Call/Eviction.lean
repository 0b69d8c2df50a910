/-
# Which code a request costs

A request runs a tree of calls, and each of them may obtain code and may fail. What is
cached afterwards is told by the journal of the request: the code that was cached or
obtained, but for the contracts of the calls that failed in a way that costs code.

Such a failure is never caught. The calls that are open when it first happens, and no
others, all fail in that way. So code that was dropped is not loaded again, and a call that
had already returned keeps its code, unless its contract is in the chain of open calls once
more.
-/

import ContractHost.Proofs.Call.Invariant
import ContractHost.Proofs.Call.Session
import ContractHost.Proofs.Journal.Calls

namespace ContractHost

open Script (Machine Module)

/-! ## The cache and the journal -/

namespace Host

/-- Since an earlier moment, with the given events, what was cached and what was obtained
has stayed in the cache, but for what was condemned. -/
structure Traced (start : Host Module) (events : List Event) (h : Host Module) : Prop where
  journal : h.journal = events ++ start.journal
  cached : ∀ contract, h.cache.contains contract = true ↔
    (start.cache.contains contract = true ∨ contract ∈ loadedIn events) ∧
      contract ∉ condemnedIn events

/-- A change that neither marks the journal nor touches what is cached. -/
structure Unmarked (h g : Host Module) : Prop where
  found : ∀ contract, g.cache.find? contract = h.cache.find? contract
  journal : ∃ events, g.journal = events ++ h.journal ∧ ∀ event ∈ events, event.isMark = false

/-- No failure has cost code since an earlier moment. -/
def Sparing (start : Host Module) (calls : List String) (h : Host Module) : Prop :=
  ∃ events, Traced start events h ∧ Intact calls events

/-- A failure has cost code since an earlier moment. -/
def Failing (start : Host Module) (calls : List String) (h : Host Module) : Prop :=
  ∃ events, Traced start events h ∧ Unwinding calls events

/-- A part of the run has ended. A failure has cost code only if the end of this part says
so. -/
def Left (start : Host Module) (calls : List String) (evicting : Bool) (h : Host Module) : Prop :=
  Sparing start calls h ∨ evicting = true ∧ Failing start calls h

/-- A call has returned, and the end of it says whether a failure has cost code. -/
def Settled (start : Host Module) (calls : List String) (evicting : Bool) (h : Host Module) :
    Prop :=
  evicting = false ∧ Sparing start calls h ∨ evicting = true ∧ Failing start calls h

variable {start h g : Host Module} {events : List Event} {calls : List String}

theorem contains_congr (found : ∀ contract, g.cache.find? contract = h.cache.find? contract)
    (contract : String) : g.cache.contains contract = h.cache.contains contract :=
  congrArg Option.isSome (found contract)

theorem Unmarked.of_quiet (quiet : h.Quiet g) : h.Unmarked g where
  found contract := congrArg (CodeCache.find? · contract) quiet.cache
  journal := by
    obtain ⟨events, same, inner⟩ := quiet.journal
    exact ⟨events, same, fun event mem => Event.unmarked_of_isInner (inner event mem)⟩

theorem Unmarked.of_stored {key value : Bytes} (stored : h.Stored key value g) : h.Unmarked g := by
  obtain ⟨f, quiet, rfl⟩ := stored
  exact { Unmarked.of_quiet quiet with }

theorem Traced.unmarked (traced : Traced start events h) (unmarked : h.Unmarked g) :
    ∃ events', (∀ event ∈ events', event.isMark = false) ∧ Traced start (events' ++ events) g := by
  obtain ⟨events', same, plain⟩ := unmarked.journal
  refine ⟨events', plain, ?_, fun contract => ?_⟩
  · rw [same, traced.journal, List.append_assoc]
  · rw [contains_congr unmarked.found, loadedIn_unmarked plain, condemnedIn_unmarked plain]
    exact traced.cached contract

theorem Sparing.unmarked (sparing : Sparing start calls h) (unmarked : h.Unmarked g) :
    Sparing start calls g := by
  obtain ⟨events, traced, intact⟩ := sparing
  obtain ⟨events', plain, traced⟩ := traced.unmarked unmarked
  exact ⟨events' ++ events, traced, intact.unmarked plain⟩

theorem Failing.unmarked (failing : Failing start calls h) (unmarked : h.Unmarked g) :
    Failing start calls g := by
  obtain ⟨events, traced, unwinding⟩ := failing
  obtain ⟨events', plain, traced⟩ := traced.unmarked unmarked
  exact ⟨events' ++ events, traced, unwinding.unmarked plain⟩

theorem Left.unmarked {evicting : Bool} (left : Left start calls evicting h)
    (unmarked : h.Unmarked g) : Left start calls evicting g := by
  rcases left with sparing | ⟨evicting, failing⟩
  · exact .inl (sparing.unmarked unmarked)
  · exact .inr ⟨evicting, failing.unmarked unmarked⟩

/-- A call is started. -/
theorem Sparing.started (sparing : Sparing start calls h) {contract : String}
    (found : g.cache = h.cache) (journal : g.journal = .started contract :: h.journal) :
    Sparing start (contract :: calls) g := by
  obtain ⟨events, traced, intact⟩ := sparing
  refine ⟨.started contract :: events, ⟨?_, fun name => ?_⟩, intact.started contract⟩
  · rw [journal, traced.journal]
    rfl
  · rw [found]
    exact traced.cached name

/-- A call obtains the code of a contract. Nothing was condemned before, so nothing
forbids that this code is cached. -/
theorem Sparing.obtained (sparing : Sparing start calls h) {id : ContextId}
    {contract digest : String} (journal : g.journal = .obtained id contract digest :: h.journal)
    (cached : ∀ name, g.cache.contains name = true ↔
      h.cache.contains name = true ∨ name = contract) : Sparing start calls g := by
  obtain ⟨events, traced, intact⟩ := sparing
  have lost : condemnedIn (.obtained id contract digest :: events) = [] := intact.spared
  refine ⟨_, ⟨?_, fun name => ?_⟩, intact.obtained id contract digest⟩
  · rw [journal, traced.journal]
    rfl
  · have loaded : name ∈ loadedIn (.obtained id contract digest :: events) ↔
        name = contract ∨ name ∈ loadedIn events := List.mem_cons
    rw [cached, traced.cached, lost, intact.spared, loaded]
    simp only [List.not_mem_nil, not_false_eq_true, and_true]
    rw [or_assoc]
    exact or_congr_right or_comm

theorem unmarked_releases {M : Type} (released? : Option (CompiledCode M)) :
    ∀ event ∈ releases released?, event.isMark = false := by
  intro event mem
  obtain ⟨_, _, rfl⟩ := List.mem_map.1 mem
  rfl

theorem contains_finish (contract : String) (result : Except HostError Outcome)
    (h : Host Module) (name : String) :
    (Manager.finish contract result h).cache.contains name = true ↔
      h.cache.contains name = true ∧ ¬ (Manager.evicts result = true ∧ name = contract) := by
  unfold CodeCache.contains
  rw [Manager.finish_find?]
  split
  · next lost => simp [lost]
  · next kept => simp [kept]

/-- The result of a call is counted, and code dropped where the result calls for it. -/
theorem Traced.finish (traced : Traced start events h) (contract : String)
    (result : Except HostError Outcome) :
    ∃ released, (∀ event ∈ released, event.isMark = false) ∧
      Traced start (released ++ .finished contract result :: events)
        (Manager.finish contract result h) := by
  obtain ⟨released, plain, journal⟩ : ∃ released : List Event,
      (∀ event ∈ released, event.isMark = false) ∧
        (Manager.finish contract result h).journal =
          (released ++ [.finished contract result]) ++ h.journal := by
    refine ⟨_, ?_, Manager.finish_journal contract result h⟩
    split
    · exact unmarked_releases _
    · simp
  refine ⟨released, plain, ?_, fun name => ?_⟩
  · rw [journal, traced.journal]
    simp
  · rw [contains_finish, traced.cached, loadedIn_unmarked plain, condemnedIn_unmarked plain,
      condemnedIn_finished, and_assoc]
    refine and_congr_right fun _ => ?_
    by_cases evicting : Manager.evicts result = true
    · simp only [evicting, ↓reduceIte, true_and, List.mem_cons, not_or]
      exact and_comm
    · simp [evicting]

/-- A call returns with a result that costs no code: nothing did. -/
theorem Left.finish_sparing {contract : String} {result : Except HostError Outcome}
    (left : Left start (contract :: calls) (Manager.evicts result) h)
    (sparing : Manager.evicts result = false) :
    Sparing start calls (Manager.finish contract result h) := by
  rcases left with ⟨events, traced, intact⟩ | ⟨evicting, _⟩
  · obtain ⟨released, plain, traced⟩ := traced.finish contract result
    exact ⟨_, traced, (intact.finished sparing).unmarked plain⟩
  · exact absurd (sparing.symm.trans evicting) Bool.false_ne_true

/-- A call fails in a way that costs code, be it the first one or a call of the chain. -/
theorem Left.finish_evicting {contract : String} {e : HostError}
    (left : Left start (contract :: calls) e.evictsCode h) (evicting : e.evictsCode = true) :
    Failing start calls (Manager.finish contract (.error e) h) := by
  rcases left with ⟨events, traced, intact⟩ | ⟨_, events, traced, unwinding⟩
  · obtain ⟨released, plain, traced⟩ := traced.finish contract (.error e)
    exact ⟨_, traced, (intact.condemned evicting).unmarked plain⟩
  · obtain ⟨released, plain, traced⟩ := traced.finish contract (.error e)
    exact ⟨_, traced, (unwinding.condemned evicting).unmarked plain⟩

theorem Settled.sparing (settled : Settled start calls false h) : Sparing start calls h := by
  rcases settled with ⟨_, sparing⟩ | ⟨evicting, _⟩
  · exact sparing
  · cases evicting

theorem Settled.left {evicting : Bool} (settled : Settled start calls evicting h) :
    Left start calls evicting h := by
  rcases settled with ⟨_, sparing⟩ | failing
  · exact .inl sparing
  · exact .inr failing

/-- What a call leaves behind is what its result says. -/
theorem Left.finish {contract : String} {result : Except HostError Outcome}
    (left : Left start (contract :: calls) (Manager.evicts result) h) :
    Settled start calls (Manager.evicts result) (Manager.finish contract result h) := by
  cases result with
  | ok _ => exact .inl ⟨rfl, left.finish_sparing rfl⟩
  | error e =>
      by_cases evicting : e.evictsCode = true
      · exact .inr ⟨evicting, left.finish_evicting evicting⟩
      · have sparing : Manager.evicts (.error e) = false := Bool.not_eq_true _ ▸ evicting
        exact .inl ⟨sparing, left.finish_sparing sparing⟩

end Host

/-! ## The stages of a call -/

namespace Call

open Host (Sparing Failing Left Settled Unmarked)

variable {start h : Host Module}

theorem unmarked_beginCall (setup : CallSetup) (h : Host Module) :
    h.Unmarked (Manager.beginCall setup h) where
  found _ := rfl
  journal := ⟨[_], rfl, by simp [Event.isMark]⟩

theorem unmarked_ready (ctx : Context) (h : Host Module) : h.Unmarked (ready ctx h) where
  found _ := rfl
  journal := by
    refine ⟨preparations ctx, rfl, ?_⟩
    unfold preparations
    cases Language.ofTag? ctx.setup.language <;> simp [Event.isMark]

theorem unmarked_endCall (id : ContextId) (result : Except HostError Outcome) (h : Host Module) :
    h.Unmarked (Manager.endCall id result h) where
  found _ := rfl
  journal := ⟨[_], rfl, by simp [Event.isMark]⟩

theorem unmarked_conclude (config : Config) (ctx : Context) (code : CompiledCode Module)
    (result : Except HostError Unit) (m : Machine) (h : Host Module) :
    h.Unmarked (conclude config ctx code result m h).2 := by
  obtain ⟨contexts, concluded, _⟩ := conclude_eq config ctx code result m h
  have parted : h.Unmarked (part ctx.id result m code h) := by
    refine ⟨fun name => ?_, _, part_journal ctx.id result m code h, ?_⟩
    · rw [part_cache, CodeCache.find?_giveBack]
    · exact List.forall_mem_append.2 ⟨Host.unmarked_releases _, by simp [Event.isMark]⟩
  rw [concluded]
  exact { parted with }

theorem sparing_lent {calls : List String} (sparing : Sparing start calls h) {ctx : Context}
    {code : CompiledCode Module} (found : h.cache.find? ctx.setup.contract = some code) :
    Sparing start calls (lent ctx code h) := by
  refine sparing.obtained rfl fun name => ?_
  constructor
  · exact .inl
  · rintro (held | rfl)
    · exact held
    · exact congrArg Option.isSome found

theorem sparing_kept {calls : List String} (sparing : Sparing start calls h) (ctx : Context)
    (bytecode : Bytes) (module : Module) : Sparing start calls (kept ctx bytecode module h) := by
  have read := sparing.unmarked (.of_quiet (fetched_quiet ctx.setup.contract h))
  refine read.obtained rfl fun name => ?_
  have kept : (kept ctx bytecode module h).cache.find? name =
      if name = ctx.setup.contract then some (newCode ctx.setup.contract bytecode module h)
      else h.cache.find? name := CodeCache.find?_insert ..
  unfold CodeCache.contains
  rw [kept, fetched_cache]
  by_cases same : name = ctx.setup.contract
  · simp [same]
  · simp [same]

/-! ## Trees of calls -/

/-- A running call, by its context and the calls that are open while it runs. -/
structure Chain where
  context : ContextId
  calls : List String

/-- Inside a call no failure has cost code yet; once the call has failed, one has only if
its own failure does. -/
def traced (start : Host Module) : Condition Chain where
  context := Chain.context
  Holds chain h := Sparing start chain.calls h
  Broken chain e h := Left start chain.calls e.evictsCode h

/-- A call that begins before any failure has cost code leaves behind what its result
says. -/
theorem traced_opens (config : Config) (load : CodeLoad) (ctx : Context) {calls : List String}
    (sparing : Sparing start calls h) :
    (traced start).Opens config (fun result => Left start calls (Manager.evicts result)) load
      ctx h := by
  have opened {code : CompiledCode Module} {g : Host Module} (obtained : Sparing start calls g) :
      ∃ chain, (traced start).context chain = ctx.id ∧ (traced start).Holds chain (ready ctx g) ∧
        ∀ result m f, (traced start).Ended chain result f →
          let p := conclude config ctx code result m f
          Left start calls (Manager.evicts p.1) (Manager.endCall ctx.id p.1 p.2) := by
    refine ⟨⟨ctx.id, calls⟩, rfl, obtained.unmarked (unmarked_ready ctx g),
      fun result m f ended => ?_⟩
    have concluded := unmarked_conclude config ctx code result m f
    have closed := unmarked_endCall ctx.id (conclude config ctx code result m f).1
      (conclude config ctx code result m f).2
    cases result with
    | ok _ => exact .inl ((Sparing.unmarked ended concluded).unmarked closed)
    | error e => exact (Left.unmarked ended concluded).unmarked closed
  refine obtain_ends ?_ ?_ ?_ ?_
  · intro code _ _
    exact .inl (sparing.unmarked (unmarked_endCall ..))
  · intro code _ found
    exact opened (sparing_lent sparing found)
  · intro e g _ quiet
    exact .inl ((sparing.unmarked (.of_quiet quiet)).unmarked (unmarked_endCall ..))
  · intro bytecode module _ _
    exact opened (sparing_kept sparing ctx bytecode module)

theorem sparing_invoked {calls : List String} (sparing : Sparing start calls h) (setup : CallSetup) :
    Sparing start (setup.contract :: calls)
      (Manager.beginCall setup (invoked setup.contract h)) := by
  have counted : Sparing start (setup.contract :: calls) (invoked setup.contract h) :=
    sparing.started rfl rfl
  exact counted.unmarked (unmarked_beginCall setup _)

theorem returned_of_settled {chain : Chain} {result : Except HostError Outcome}
    (settled : Settled start chain.calls (Manager.evicts result) h) :
    (traced start).Returned chain result h := by
  cases result with
  | ok _ => exact settled.sparing
  | error e =>
      cases e with
      | contract => exact settled.sparing
      | _ => exact settled.left

/-- So do all calls inside it. An abort that replaces the failure of a call costs code like
the failure that it replaces. -/
theorem traced_invariant (config : Config) (start : Host Module) :
    Invariant config (traced start) where
  broken _ sparing := .inl sparing
  aborted _ left := by
    rcases left with sparing | ⟨_, failing⟩
    · exact .inl sparing
    · exact .inr ⟨rfl, failing⟩
  marked inner left := left.unmarked (.of_quiet (.note _ inner))
  quiet quiet sparing := sparing.unmarked (.of_quiet quiet)
  called := by
    intro chain h setup _ sparing
    refine (traced_opens config .reuse _ (sparing_invoked sparing setup)).mono fun result g left => ?_
    exact returned_of_settled left.finish

/-! ## Requests -/

theorem sparing_refl (h : Host Module) : Sparing h [] h :=
  ⟨[], ⟨rfl, by simp [loadedIn, condemnedIn]⟩, rfl, rfl⟩

/-- A request that is refused costs no code. -/
theorem settled_refused (h : Host Module) {fields : RequestFields} {withCode : Bool} {e : HostError}
    (refused : CallRequest.parse fields withCode = .error e) :
    Settled h [] (Manager.evicts (.error e)) h := by
  refine .inl ⟨?_, sparing_refl h⟩
  have validation := CallRequest.validates_parse fields withCode e refused
  show e.evictsCode = false
  unfold HostError.evictsCode
  rw [validation]

theorem settled_invoke (config : Config) (h : Host Module) (method : String)
    (fields : RequestFields) :
    let p := runFrom ((Manager.scripted config).invokeContract method fields) h
    Settled h [] (Manager.evicts p.1) p.2 := by
  rw [runFrom_invokeContract]
  cases parsed : CallRequest.parse fields false with
  | error e => exact settled_refused h parsed
  | ok request =>
      have begun := sparing_invoked (sparing_refl h) (request.callSetup method)
      have opens := traced_opens config .reuse
        (created (request.callSetup method) (invoked request.contract h)) begun
      exact ((traced_invariant config h).run config.maxCallDepth.toNat opens).finish

theorem settled_deploy (config : Config) (h : Host Module) (fields : RequestFields) :
    let p := runFrom ((Manager.scripted config).deploy fields) h
    Settled h [] (Manager.evicts p.1) p.2 := by
  rw [runFrom_deploy]
  cases parsed : CallRequest.parse fields true with
  | error e => exact settled_refused h parsed
  | ok request =>
      have counted : Sparing h [request.contract] (deploying request.contract h) :=
        (sparing_refl h).started rfl rfl
      refine deployAccepted_cases config
        (fun result g => Settled h [] (Manager.evicts result)
          (Manager.finish request.contract result g)) ?_ ?_ ?_
      · intro fault g quiet
        have left : Left h [request.contract] (Manager.evicts (.error (.storage fault))) g :=
          .inl (counted.unmarked (.of_quiet quiet))
        exact left.finish
      · intro fault f g stored quiet
        have left : Left h [request.contract] (Manager.evicts (.error (.storage fault))) g :=
          .inl ((counted.unmarked (.of_stored stored)).unmarked (.of_quiet quiet))
        exact left.finish
      · intro f g stored described
        have written := (counted.unmarked (.of_stored stored)).unmarked (.of_stored described)
        have begun := written.unmarked (unmarked_beginCall request.initSetup g)
        have opens := traced_opens config .compile (created request.initSetup g) begun
        exact ((traced_invariant config h).run config.maxCallDepth.toNat opens).finish

theorem settled_serve (config : Config) (h : Host Module) (request : HostRequest) :
    let p := (Manager.scripted config).serve h request
    Settled h [] (p.1.any Manager.evicts) p.2 := by
  cases request with
  | deploy fields => exact settled_deploy config h fields
  | invoke method fields => exact settled_invoke config h method fields
  | abort contract message =>
      have unmarked : h.Unmarked (h.abortRunning contract message) :=
        ⟨fun _ => rfl, [], rfl, by simp⟩
      exact .inl ⟨rfl, (sparing_refl h).unmarked unmarked⟩

end Call

/-- What a request leaves in the cache is told by its journal: exactly what was cached
before or obtained by one of its calls, but for the contracts of calls that failed in a way
that costs code. Calls whose results cost no code, among them calls that succeed, that
report a failure, that miss an output or an object, or that name no contract, ended before
any code was dropped. If a call fails in a way that costs code, then the first call to do
so and all calls that are open then, from the inside out, are those that lose their
contract's code, and from then on no call is started and no code is obtained. -/
theorem serve_evicts_failing_chain (config : Config) (h : Host Module) (request : HostRequest) :
    let p := (Manager.scripted config).serve h request
    ∃ events, p.2.journal = events ++ h.journal ∧ openCalls events = [] ∧
      (∀ contract, p.2.cache.contains contract = true ↔
        (h.cache.contains contract = true ∨
          ∃ id digest, .obtained id contract digest ∈ events) ∧
        ¬ ∃ e, .finished contract (.error e) ∈ events ∧ e.evictsCode = true) ∧
      (∀ result, p.1 = some result →
        (condemnedIn events = [] ↔ Manager.evicts result = false)) ∧
      (∀ late contract result early, events = late ++ .finished contract result :: early →
        Manager.evicts result = false → condemnedIn early = []) ∧
      (∀ result, Manager.spares result = true → Manager.evicts result = false) ∧
      (condemnedIn events ≠ [] → ∃ late contract e early,
        events = late ++ .finished contract (.error e) :: early ∧ e.evictsCode = true ∧
          condemnedIn early = [] ∧ (openCalls early).head? = some contract ∧
          condemnedIn events = (openCalls early).reverse ∧
          ∀ event ∈ late, event.isUnwinding = true) := by
  intro p
  have settled : Host.Settled h [] (p.1.any Manager.evicts) p.2 := Call.settled_serve config h request
  have told {events : List Event} (traced : h.Traced events p.2) (contract : String) :
      p.2.cache.contains contract = true ↔
        (h.cache.contains contract = true ∨
          ∃ id digest, .obtained id contract digest ∈ events) ∧
        ¬ ∃ e, .finished contract (.error e) ∈ events ∧ e.evictsCode = true := by
    rw [traced.cached, mem_loadedIn, mem_condemnedIn]
  rcases settled with ⟨sparing, events, traced, intact⟩ | ⟨evicting, events, traced, unwinding⟩
  · refine ⟨events, traced.journal, intact.calls, told traced, ?_, ?_,
      fun _ => Manager.evicts_of_spares, fun lost => absurd intact.spared lost⟩
    · intro result same
      rw [same] at sparing
      exact iff_of_true intact.spared sparing
    · intro late contract result early split _
      exact condemnedIn_early (split ▸ intact.spared)
  · have lost := unwinding.condemnedIn_ne_nil
    have spared {late early : List Event} {contract : String} {result : Except HostError Outcome}
        (split : events = late ++ .finished contract result :: early) :=
      unwinding.spared_of_finished split
    obtain ⟨late, failed, e, early, failure⟩ := unwinding
    have chain := failure.chain
    rw [List.append_nil] at chain
    refine ⟨events, traced.journal, failure.pending, told traced, ?_, fun _ _ _ _ => spared,
      fun _ => Manager.evicts_of_spares, fun _ => ?_⟩
    · intro result same
      rw [same] at evicting
      have costs : Manager.evicts result = true := evicting
      exact iff_of_false lost (by simp [costs])
    · exact ⟨late, failed, e, early, failure.split, failure.evicting, failure.first,
        failure.innermost, by rw [← chain, List.reverse_reverse], failure.orderly⟩

end ContractHost
