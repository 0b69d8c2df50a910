/-
# What calls are charged

A call is charged what its program used by itself and what the calls that it made were
charged, also those in which the called contract reported a failure. The usage of a call
takes three ways to who made it: from its machine, through the context that gathers the
usage of calls inside, to the response that comes with it. This module follows all three
and compares what is reported with the journal.
-/

import ContractHost.Proofs.Call.Runs

namespace ContractHost

open Script (Machine Module)

/-! ## Changes that use nothing -/

namespace Event

theorem isEntry_of_isBackstage {event : Event} (backstage : event.isBackstage) :
    event.isEntry = false := by
  cases event <;> first | rfl | cases backstage

theorem isEntry_of_isOf {event : Event} {id : ContextId} {live : List ContextId}
    (own : event.IsOf id live) : event.isEntry = false := by
  cases event <;> first | rfl | cases own

end Event

/-- A change that forgets no call, charges none, and makes no entry into the accounts. -/
abbrev Host.Unbilled (h g : Host Module) : Prop := h.Passes (fun event => event.isEntry = false) g

namespace Call

open Host (OnRecord Unbilled)

/-! ## Accounts of a running call -/

/-- A call on record: the description that it began with, and what was known and what had
happened when it began. -/
structure Account where
  description : Option Bytes
  before : Contexts
  early : List Event

namespace Account

/-- The context of the call, the first that was not known. -/
def context (account : Account) : ContextId := account.before.next

/-- What had happened when the call was begun. -/
def begun (account : Account) : List Event :=
  .began account.context account.description :: account.early

end Account

/-- Since the call was begun, with the given events, every call has ended as it had to, and
calls that were known before are known and have been charged nothing. -/
structure Kept (config : Config) (start : Host Module) (account : Account) (events : List Event)
    (h : Host Module) : Prop where
  journal : h.journal = events ++ (account.begun ++ start.journal)
  reckoned : Reckoned config (events ++ account.begun)
  before : h.contexts.Keeps account.before

/-- Inside a call, all calls that it made are on its account, and all of them ran to their
ends. -/
structure Charged (config : Config) (account : Account) (events : List Event)
    (h : Host Module) : Prop where
  later : ∀ id ∈ begunIn events, account.context.number < id.number
  balanced : (measuredIn events).Perm (begunIn events)
  within : WithinGas config events
  gathered : ∃ ctx, h.contexts.held? account.context = some ctx ∧
    ctx.nestedUsage = Resources.total (usagesIn events)

variable {config : Config} {start h g : Host Module} {account : Account} {events : List Event}

theorem Kept.unbilled (kept : Kept config start account events h) (unbilled : h.Unbilled g) :
    ∃ later, (∀ event ∈ later, event.isEntry = false) ∧
      Kept config start account (later ++ events) g := by
  obtain ⟨later, journal, silent, _⟩ := unbilled.told
  refine ⟨later, silent, ?_, ?_, unbilled.kept.trans kept.before⟩
  · rw [journal, kept.journal, List.append_assoc]
  · rw [List.append_assoc]
    exact kept.reckoned.silent silent

theorem Charged.unbilled (charged : Charged config account events h) (unbilled : h.Unbilled g)
    {later : List Event} (silent : ∀ event ∈ later, event.isEntry = false) :
    Charged config account (later ++ events) g where
  later := by
    rw [begunIn_append, begunIn_silent silent]
    exact charged.later
  balanced := by
    rw [begunIn_append, measuredIn_append, begunIn_silent silent, measuredIn_silent silent]
    exact charged.balanced
  within := charged.within.silent silent
  gathered := by
    obtain ⟨ctx, held, gathered⟩ := charged.gathered
    obtain ⟨output, held⟩ := unbilled.kept _ ctx held
    rw [usagesIn_append, usagesIn_silent silent]
    exact ⟨_, held, gathered⟩

/-- Calls inside a call began later. -/
theorem Charged.above (charged : Charged config account events h) :
    ∀ id ∈ begunIn events ++ measuredIn events, account.context.number < id.number := by
  intro id mem
  rcases List.mem_append.1 mem with mem | mem
  · exact charged.later id mem
  · exact charged.later id (charged.balanced.mem_iff.1 mem)

/-- All is on record, and every call inside has ended well. -/
def Open (config : Config) (start : Host Module) (account : Account) (h : Host Module) : Prop :=
  ∃ events, Kept config start account events h ∧ Charged config account events h

/-- All is on record, and a call inside has failed. -/
def Failed (config : Config) (start : Host Module) (account : Account) (h : Host Module) : Prop :=
  ∃ events, Kept config start account events h ∧
    ∀ id ∈ begunIn events ++ measuredIn events, account.context.number < id.number

/-- The call has ended, with all on record. A result that reports usage reports that of the
call and all calls inside it. -/
def Closed (config : Config) (start : Host Module) (account : Account)
    (result : Except HostError Outcome) (h : Host Module) : Prop :=
  ∃ events, Kept config start account events h ∧ .ended account.context result ∈ events ∧
    (∀ id ∈ begunIn events ++ measuredIn events, account.context.number ≤ id.number) ∧
    ∀ used gas, billed? result = some (used, gas) →
      used = Resources.total (usagesIn events) ∧
        (measuredIn events).Perm (account.context :: begunIn events) ∧ WithinGas config events

theorem Open.unbilled (opened : Open config start account h) (unbilled : h.Unbilled g) :
    Open config start account g := by
  obtain ⟨events, kept, charged⟩ := opened
  obtain ⟨later, silent, kept⟩ := kept.unbilled unbilled
  exact ⟨later ++ events, kept, charged.unbilled unbilled silent⟩

theorem Open.failed (opened : Open config start account h) : Failed config start account h := by
  obtain ⟨events, kept, charged⟩ := opened
  exact ⟨events, kept, charged.above⟩

theorem Closed.unbilled {result : Except HostError Outcome}
    (closed : Closed config start account result h) (unbilled : h.Unbilled g) :
    Closed config start account result g := by
  obtain ⟨events, kept, ended, later, billed⟩ := closed
  obtain ⟨more, silent, kept⟩ := kept.unbilled unbilled
  refine ⟨more ++ events, kept, List.mem_append_right _ ended, ?_, fun used gas reports => ?_⟩
  · rw [begunIn_append, measuredIn_append, begunIn_silent silent, measuredIn_silent silent]
    exact later
  · obtain ⟨reported, balanced, within⟩ := billed used gas reports
    rw [usagesIn_append, measuredIn_append, begunIn_append, usagesIn_silent silent,
      measuredIn_silent silent, begunIn_silent silent]
    exact ⟨reported, balanced, within.silent silent⟩

/-! ## The beginning and the end of a call -/

/-- A call begins with nothing on its account. -/
theorem open_beginCall {early : List Event} (reckoned : Reckoned config early)
    (journal : h.journal = early ++ start.journal) (setup : CallSetup) :
    Open config start ⟨h.store.peek? (StoreKey.description setup.contract), h.contexts, early⟩
      (Manager.beginCall setup h) := by
  refine ⟨[], ⟨congrArg (List.cons _) journal, reckoned.cons rfl, .create h.contexts setup⟩, ?_⟩
  exact {
    later := by simp [begunIn]
    balanced := .nil
    within := by simp [WithinGas]
    gathered := ⟨_, Contexts.held?_create_next _ _, rfl⟩ }

/-- Only a contract that reports a failure reports usage with it. -/
theorem no_bill {e : HostError} (own : e.isReport = false) {bill : Resources × UInt64} :
    billed? (.error e) ≠ some bill := by
  cases e with
  | contract => cases own
  | _ => nofun

theorem not_mem_of_above {id : ContextId} {ids : List ContextId}
    (above : ∀ other ∈ ids, id.number < other.number) : id ∉ ids :=
  fun mem => Int.lt_irrefl _ (above id mem)

/-- The end of a call is put on record, if it agrees with what happened during the call. -/
theorem Kept.ended (kept : Kept config start account events h) {result : Except HostError Outcome}
    (later : List Event)
    (journal : g.journal = .ended account.context result :: (later ++ h.journal))
    (keeps : g.contexts.Keeps h.contexts)
    (reckoned : Reckoned config (later ++ (events ++ account.begun)))
    (other : account.context ∉ begunIn (later ++ events))
    (accounted : Accounted config account.context (later ++ events) result) :
    Kept config start account (.ended account.context result :: (later ++ events)) g where
  journal := by
    rw [journal, kept.journal, List.cons_append, List.append_assoc]
  reckoned := by
    rw [List.cons_append, List.append_assoc]
    refine reckoned.ended ?_
    rw [← List.append_assoc, Account.begun, sinceBegan_append other]
    exact accounted
  before := keeps.trans kept.before

section Verdict

variable {cs : Contexts} {created ctx : Context} {own : Resources}
  (held : cs.held? created.id = some ctx)

include held

/-- A call within the limits reports all that was gathered, at its price. -/
theorem billed?_verdict {used : Resources} {gas : UInt64}
    (reports : billed? (verdict config cs created own) = some (used, gas)) :
    used = own.add ctx.nestedUsage ∧ used.exceeds config.maxLimits = false ∧
      gas = used.gas config.rates := by
  unfold verdict at reports
  rw [held] at reports
  dsimp only [Option.getD_some] at reports
  cases within : (own.add ctx.nestedUsage).exceeds config.maxLimits with
  | true => simp [within, billed?] at reports
  | false =>
      cases answered : ctx.output with
      | none => simp [within, answered, billed?] at reports
      | some response =>
          cases failure : response.isError
          all_goals
            simp only [within, answered, failure, billed?, Outcome.priced, Bool.false_eq_true,
              ↓reduceIte, Option.some.injEq, Prod.mk.injEq] at reports
            obtain ⟨rfl, rfl⟩ := reports
            exact ⟨rfl, within, rfl⟩

/-- A call that passed the limits has exhausted its gas, whatever its output. -/
theorem verdict_of_exceeds
    (passed : (own.add ctx.nestedUsage).exceeds config.maxLimits = true) :
    verdict config cs created own = .error (.trap .gasExhausted) := by
  unfold verdict
  rw [held]
  exact if_pos passed

/-- Within the limits a call has not exhausted its gas. -/
theorem exceeds_of_verdict
    (exhausted : verdict config cs created own = .error (.trap .gasExhausted)) :
    (own.add ctx.nestedUsage).exceeds config.maxLimits = true := by
  by_contra within
  unfold verdict at exhausted
  rw [held] at exhausted
  dsimp only [Option.getD_some] at exhausted
  rw [if_neg within] at exhausted
  cases answered : ctx.output with
  | none => simp [answered] at exhausted
  | some response => cases failure : response.isError <;> simp [answered, failure] at exhausted

end Verdict

section Tallies

variable {cleared : List Event} (silent : ∀ event ∈ cleared, event.isEntry = false)
  (id : ContextId) (result : Except HostError Unit) (used : Resources) (events : List Event)

include silent

theorem usagesIn_concluded :
    usagesIn (cleared ++ .measured id result used :: events) = used :: usagesIn events := by
  rw [usagesIn_append, usagesIn_silent silent]
  rfl

theorem measuredIn_concluded :
    measuredIn (cleared ++ .measured id result used :: events) = id :: measuredIn events := by
  rw [measuredIn_append, measuredIn_silent silent]
  rfl

theorem begunIn_concluded :
    begunIn (cleared ++ .measured id result used :: events) = begunIn events := by
  rw [begunIn_append, begunIn_silent silent]
  rfl

/-- Among the events since a call was begun only one measures its own program. -/
theorem eq_of_measured {events : List Event} (other : id ∉ measuredIn events)
    {result' : Except HostError Unit} {used' : Resources}
    (mem : .measured id result' used' ∈ cleared ++ .measured id result used :: events) :
    result' = result ∧ used' = used := by
  rcases List.mem_append.1 mem with mem | mem
  · exact Bool.noConfusion (silent _ mem)
  · rcases List.mem_cons.1 mem with same | mem
    · cases same
      exact ⟨rfl, rfl⟩
    · exact absurd (mem_measuredIn mem) other

end Tallies

variable {ctx : Context} {m : Machine} (code : CompiledCode Module)

/-- When the program of a call is done its usage is put on record, and then the end of the
call. What the call reports has to be its own usage and that of all calls inside it. -/
theorem Kept.closed (kept : Kept config start account events h)
    (framed : account.context = ctx.id) {result : Except HostError Unit}
    (later : ∀ id ∈ begunIn events ++ measuredIn events, account.context.number < id.number)
    (reported : ∀ used gas,
      billed? (conclude config ctx code result m h).1 = some (used, gas) →
      used = Resources.total (usage m :: usagesIn events) ∧
        used.exceeds config.maxLimits = false ∧ gas = used.gas config.rates ∧
        (measuredIn events).Perm (begunIn events) ∧
        WithinGas config (.measured account.context result (usage m) :: events))
    (exhausted : result = .ok () →
      ((Resources.total (usage m :: usagesIn events)).exceeds config.maxLimits = true ↔
        (conclude config ctx code result m h).1 = .error (.trap .gasExhausted))) :
    let p := conclude config ctx code result m h
    Closed config start account p.1 (Manager.endCall ctx.id p.1 p.2) := by
  obtain ⟨cleared, journal, clear⟩ := conclude_journal config ctx code result m h
  have silent : ∀ event ∈ cleared, event.isEntry = false := fun event mem =>
    Event.isEntry_of_isBackstage (Event.isBackstage_of_isClearance (clear event mem))
  have unbegun := not_mem_of_above fun id mem => later id (List.mem_append_left _ mem)
  have unmeasured := not_mem_of_above fun id mem => later id (List.mem_append_right _ mem)
  have accounted : Accounted config account.context
      (cleared ++ .measured account.context result (usage m) :: events)
      (conclude config ctx code result m h).1 := by
    constructor
    · intro used gas reports
      obtain ⟨sum, within, price, balanced, gas⟩ := reported used gas reports
      rw [usagesIn_concluded silent, measuredIn_concluded silent, begunIn_concluded silent]
      exact ⟨sum, within, price, balanced.cons _, gas.silent silent⟩
    · intro own mem passed
      rw [usagesIn_concluded silent] at passed
      exact (exhausted (eq_of_measured silent _ _ _ unmeasured mem).1.symm).1 passed
    · intro own mem came
      rw [usagesIn_concluded silent]
      exact (exhausted (eq_of_measured silent _ _ _ unmeasured mem).1.symm).2 came
  have ended : Kept config start account _ (Manager.endCall ctx.id _ _) :=
    kept.ended (cleared ++ [.measured account.context result (usage m)])
      (by rw [framed, List.append_assoc, List.singleton_append, ← journal]; rfl)
      (conclude_keeps config ctx code result m h)
      (by
        rw [List.append_assoc]
        exact (kept.reckoned.cons rfl).silent silent)
      (by rwa [List.append_assoc, List.singleton_append, begunIn_concluded silent])
      (by rwa [List.append_assoc, List.singleton_append])
  rw [List.append_assoc, List.singleton_append] at ended
  refine ⟨_, ended, List.mem_cons_self, ?_, fun used gas reports => ?_⟩
  · show ∀ id ∈ begunIn (cleared ++ _) ++ measuredIn (cleared ++ _), _
    rw [begunIn_concluded silent, measuredIn_concluded silent]
    intro id mem
    rcases List.mem_append.1 mem with mem | mem
    · exact Int.le_of_lt (later id (List.mem_append_left _ mem))
    · rcases List.mem_cons.1 mem with rfl | mem
      · exact Int.le_refl _
      · exact Int.le_of_lt (later id (List.mem_append_right _ mem))
  · obtain ⟨sum, _, _, balanced, gas⟩ := accounted.reported used gas reports
    refine ⟨sum, balanced, fun context result used mem => ?_⟩
    rcases List.mem_cons.1 mem with same | mem
    · cases same
    · exact gas context result used mem

/-- A call whose program failed, or was asked to end, reports no usage. -/
theorem Failed.closed (failed : Failed config start account h) (framed : account.context = ctx.id)
    {e : HostError} (own : e.isReport = false) :
    let p := conclude config ctx code (.error e) m h
    Closed config start account p.1 (Manager.endCall ctx.id p.1 p.2) := by
  obtain ⟨events, kept, later⟩ := failed
  exact kept.closed code framed later (fun _ _ reports => absurd reports (no_bill own)) nofun

/-- A call whose program ran to its end reports what it and the calls inside it used. -/
theorem Open.closed (opened : Open config start account h) (framed : account.context = ctx.id)
    (metered : m.gasUsed ≤ config.gasLimit) :
    let p := conclude config ctx code (.ok ()) m h
    Closed config start account p.1 (Manager.endCall ctx.id p.1 p.2) := by
  obtain ⟨events, kept, charged⟩ := opened
  obtain ⟨known, held, gathered⟩ := charged.gathered
  rw [framed] at held
  have sum : (usage m).add known.nestedUsage = Resources.total (usage m :: usagesIn events) := by
    rw [gathered, Resources.total_cons]
  have judged : (conclude config ctx code (.ok ()) m h).1 =
      verdict config h.contexts ctx (usage m) := by
    show verdict config (part ctx.id (.ok ()) m code h).contexts ctx (usage m) = _
    rw [part_contexts]
  refine kept.closed code framed charged.above (fun used gas reports => ?_) fun _ => ?_
  · rw [judged] at reports
    obtain ⟨added, within, price⟩ := billed?_verdict held reports
    refine ⟨added.trans sum, within, price, charged.balanced, ?_⟩
    intro context result used mem
    rcases List.mem_cons.1 mem with same | mem
    · cases same
      exact ⟨rfl, metered, rfl, rfl⟩
    · exact charged.within context result used mem
  · rw [judged, ← sum]
    exact ⟨verdict_of_exceeds held, exceeds_of_verdict held⟩

/-- A call that does not come by its code reports no usage. -/
theorem Open.unable (opened : Open config start account h) (framed : account.context = ctx.id)
    {e : HostError} (own : e.isReport = false) :
    Closed config start account (.error e) (Manager.endCall ctx.id (.error e) h) := by
  obtain ⟨events, kept, charged⟩ := opened
  have later := charged.above
  have unbegun := not_mem_of_above fun id mem => later id (List.mem_append_left _ mem)
  have unmeasured := not_mem_of_above fun id mem => later id (List.mem_append_right _ mem)
  have ended : Kept config start account _ (Manager.endCall ctx.id (.error e) h) :=
    kept.ended [] (by rw [framed]; rfl) (.refl h.contexts) kept.reckoned unbegun {
      reported := fun _ _ reports => absurd reports (no_bill own)
      exhausted := fun _ mem _ => absurd (mem_measuredIn mem) unmeasured
      passed := fun _ mem _ => absurd (mem_measuredIn mem) unmeasured }
  exact ⟨_, ended, List.mem_cons_self, fun id mem => Int.le_of_lt (later id mem),
    fun _ _ reports => absurd reports (no_bill own)⟩

/-! ## Calls inside a call -/

/-- The account of a call that a program asks for. -/
def Account.inside (account : Account) (events : List Event) (setup : CallSetup)
    (h : Host Module) : Account where
  description := h.store.peek? (StoreKey.description setup.contract)
  before := h.contexts
  early := .started setup.contract :: (events ++ account.begun)

/-- What has happened since a call was begun, with a call inside it. -/
def insideOf (h : Host Module) (setup : CallSetup) (inner events : List Event) : List Event :=
  inner ++ .began h.contexts.next (h.store.peek? (StoreKey.description setup.contract)) ::
    .started setup.contract :: events

section Inside

variable {setup : CallSetup} {inner : List Event}

theorem usagesIn_insideOf :
    usagesIn (insideOf h setup inner events) = usagesIn inner ++ usagesIn events :=
  usagesIn_append ..

theorem measuredIn_insideOf :
    measuredIn (insideOf h setup inner events) = measuredIn inner ++ measuredIn events :=
  measuredIn_append ..

theorem begunIn_insideOf :
    begunIn (insideOf h setup inner events) =
      begunIn inner ++ h.contexts.next :: begunIn events :=
  begunIn_append ..

theorem Kept.open_inside (kept : Kept config start account events h) (setup : CallSetup) :
    Open config start (account.inside events setup h)
      (Manager.beginCall setup (invoked setup.contract h)) := by
  refine open_beginCall (h := invoked setup.contract h) (kept.reckoned.cons rfl) ?_ setup
  show .started setup.contract :: h.journal = _
  rw [kept.journal, List.cons_append, List.append_assoc]

/-- What is on record in the account of a call inside is on record. -/
theorem Kept.of_inside (kept : Kept config start account events h)
    (inside : Kept config start (account.inside events setup h) inner g) :
    Kept config start account (insideOf h setup inner events) g where
  journal := by
    rw [inside.journal]
    simp [insideOf, Account.inside, Account.begun, Account.context]
  reckoned := by
    have reckoned := inside.reckoned
    simpa [insideOf, Account.inside, Account.begun, Account.context] using reckoned
  before := inside.before.trans kept.before

/-- The calls inside a call inside began later, too. -/
theorem above_insideOf {id : ContextId} (next : id.number < h.contexts.next.number)
    (own : ∀ other ∈ begunIn events ++ measuredIn events, id.number < other.number)
    (later : ∀ other ∈ begunIn inner ++ measuredIn inner,
      h.contexts.next.number ≤ other.number) :
    ∀ other ∈ begunIn (insideOf h setup inner events) ++ measuredIn (insideOf h setup inner events),
      id.number < other.number := by
  intro other mem
  rw [begunIn_insideOf, measuredIn_insideOf] at mem
  have inside (mem : other ∈ begunIn inner ++ measuredIn inner) : id.number < other.number :=
    Int.lt_of_lt_of_le next (later other mem)
  have own := own other
  simp only [List.mem_append, List.mem_cons] at mem inside own
  rcases mem with (mem | rfl | mem) | mem | mem
  · exact inside (.inl mem)
  · exact next
  · exact own (.inl mem)
  · exact inside (.inr mem)
  · exact own (.inr mem)

theorem Charged.above_inside (charged : Charged config account events h)
    (later : ∀ id ∈ begunIn inner ++ measuredIn inner, h.contexts.next.number ≤ id.number) :
    ∀ id ∈ begunIn (insideOf h setup inner events) ++ measuredIn (insideOf h setup inner events),
      account.context.number < id.number := by
  obtain ⟨known, held, _⟩ := charged.gathered
  exact above_insideOf (Contexts.number_lt_next held) charged.above later

end Inside

/-- A call that made another one is charged what that one reports. -/
theorem Charged.reply (charged : Charged config account events h)
    (kept : Kept config start account events h) {setup : CallSetup} {inner : List Event}
    (inside : Kept config start (account.inside events setup h) inner g) {used : Resources}
    (later : ∀ id ∈ begunIn inner ++ measuredIn inner, h.contexts.next.number ≤ id.number)
    (sum : used = Resources.total (usagesIn inner))
    (balanced : (measuredIn inner).Perm (h.contexts.next :: begunIn inner))
    (within : WithinGas config inner) (request : SyscallRequest) (response : Response) :
    Open config start account (replied account.context request response used g) := by
  obtain ⟨known, held, gathered⟩ := charged.gathered
  obtain ⟨output, held⟩ := inside.before _ known held
  have charging : Open config start account
      { g with contexts := g.contexts.update account.context (Context.addNestedUsage used) } := by
    have record := kept.of_inside inside
    refine ⟨insideOf h setup inner events, { record with before := ?_ }, ?_⟩
    · -- what was known before the call has another number than the call itself
      intro id ctx held
      obtain ⟨output, held'⟩ := record.before id ctx held
      refine ⟨output, (Contexts.held?_update_of_ne _ ?_ ?_).trans held'⟩
      · exact Contexts.ne_next_of_held? held
      · exact fun _ => rfl
    · constructor
      · intro id mem
        exact charged.above_inside later id (List.mem_append_left _ mem)
      · rw [measuredIn_insideOf, begunIn_insideOf]
        exact (balanced.append charged.balanced).trans (List.perm_middle).symm
      · intro context result used mem
        simp only [insideOf, List.mem_append, List.mem_cons, reduceCtorEq, false_or] at mem
        rcases mem with mem | mem
        · exact within context result used mem
        · exact charged.within context result used mem
      · refine ⟨_, Contexts.held?_update_self held fun _ => rfl, ?_⟩
        show known.nestedUsage.add used = _
        rw [gathered, sum, ← Resources.total_append, usagesIn_insideOf]
        exact Resources.total_perm List.perm_append_comm
  exact charging.unbilled (.note _ (by rfl))

/-- Inside a call all is on record. -/
def accounts (config : Config) (start : Host Module) : Condition Account where
  context account := account.context
  Holds := Open config start
  Broken account e h := e.isReport = false ∧ Failed config start account h

/-- When a call inside a call was answered, it is on record in the account of the call that
made it. -/
theorem answered_of_closed (kept : Kept config start account events h)
    (charged : Charged config account events h) {setup : CallSetup}
    {result : Except HostError Outcome}
    (closed : Closed config start (account.inside events setup h) result g)
    (request : SyscallRequest) :
    (accounts config start).Answered account request result g := by
  obtain ⟨inner, inside, _, later, billed⟩ := closed
  have reply {used : Resources} {gas : UInt64} (reports : billed? result = some (used, gas))
      (response : Response) :
      Open config start account (replied account.context request response used g) := by
    obtain ⟨sum, balanced, within⟩ := billed used gas reports
    exact charged.reply kept inside later sum balanced within request response
  have failed (e : HostError) (own : e.isReport = false) :
      (accounts config start).Broken account e
        (g.note (.answered account.context request (.error e))) := by
    refine ⟨own, .answered account.context request (.error e) :: insideOf h setup inner events,
      ?_, charged.above_inside later⟩
    have record := kept.of_inside inside
    exact ⟨congrArg (List.cons _) record.journal, record.reckoned.cons rfl, record.before⟩
  match result with
  | .ok outcome => exact reply rfl outcome.response
  | .error e =>
      cases e with
      | contract response used gas => exact reply rfl response
      | _ => exact failed _ rfl

theorem unbilled_of_backstage (backstage : h.Backstage g) : h.Unbilled g :=
  .of_backstage backstage fun _ => Event.isEntry_of_isBackstage

/-- However a call ends, it is on record. -/
theorem begins_of_open {Closed' : Except HostError Outcome → Host Module → Prop} {load : CodeLoad}
    (framed : account.context = ctx.id) (opened : Open config start account h)
    (closed : ∀ result g, Closed config start account result g → Closed' result g) :
    (accounts config start).Begins config Closed' load ctx h := by
  refine Condition.Begins.of_stages account framed ?_ ?_ ?_
  · exact fun e g own backstage =>
      closed _ _ ((opened.unbilled (unbilled_of_backstage backstage)).unable framed
        (HostError.isReport_of_isOwn own))
  · exact fun g backstage => (opened.unbilled (unbilled_of_backstage backstage)).unbilled
      (passes_ready (fun _ => Event.isEntry_of_isBackstage) ctx g)
  · intro code g result m f _ ended ran
    have failed {e : HostError} (own : e.isReport = false)
        (failed : Failed config start account f) :
        let p := conclude config ctx code (.error e) m f
        Closed' p.1 (Manager.endCall ctx.id p.1 p.2) :=
      closed _ _ (failed.closed code framed own)
    rcases overruled_cases f.signals g.signals.next result with stands | ⟨reason, aborted⟩
    · rw [stands]
      match result, ended with
      | .ok (), opened => exact closed _ _ (Open.closed code opened framed (ran.metered rfl))
      | .error e, ⟨own, broken⟩ => exact failed own broken
    · rw [aborted]
      match result, ended with
      | .ok (), opened => exact failed rfl (Open.failed opened)
      | .error e, ⟨_, broken⟩ => exact failed rfl broken

theorem unbilled_finish (contract : String) (result : Except HostError Outcome) (h : Host Module) :
    h.Unbilled (Manager.finish contract result h) :=
  passes_finish (by rfl) (fun _ clear =>
    Event.isEntry_of_isBackstage (Event.isBackstage_of_isClearance clear)) h

theorem accounts_upheld (config : Config) (start : Host Module) :
    Upheld config (accounts config start) where
  broken _ own opened := ⟨HostError.isReport_of_isOwn own, opened.failed⟩
  acted behaves opened := opened.unbilled (.of_acts behaves.toActs fun _ => Event.isEntry_of_isOf)
  refused _ _ _ _ _ refuses opened :=
    ⟨refuses.isReport, (opened.unbilled (.note _ (by rfl))).failed⟩
  called := by
    rintro account h setup args _ ⟨events, kept, charged⟩
    refine begins_of_open rfl (kept.open_inside setup) fun result g closed => ?_
    exact answered_of_closed kept charged (closed.unbilled (unbilled_finish ..)) _

/-- A request was served, with all calls and the runs of their programs on record. The result is
that of the outermost call, and reports what all programs together used. -/
def Audited (config : Config) (h : Host Module) (result? : Option (Except HostError Outcome))
    (g : Host Module) : Prop :=
  ∃ events, g.journal = events ++ h.journal ∧ Reckoned config events ∧
    Recorded (fun _ : CallRun config => True) h.journal events ∧
    (∀ id, (begunIn events).getLast? = some id →
      ∃ result, result? = some result ∧ .ended id result ∈ events) ∧
    ∀ result used gas, result? = some result → billed? result = some (used, gas) →
      used = Resources.total (usagesIn events)

/-- A request for which no call was made is on record. -/
theorem audited_of_silent {result? : Option (Except HostError Outcome)} (events : List Event)
    (journal : g.journal = events ++ h.journal) (silent : ∀ event ∈ events, event.isEntry = false)
    (unreported : ∀ result, result? = some result → billed? result = none) :
    Audited config h result? g := by
  refine ⟨events, journal, ?_, ?_, fun id first => ?_, fun result used gas ended reports => ?_⟩
  · simpa using (Reckoned.nil config).silent silent
  · simpa using Recorded.nil.append fun event mem =>
      Event.measured?_of_not_isEntry (silent event mem)
  · rw [begunIn_silent silent] at first
    cases first
  · rw [unreported result ended] at reports
    cases reports

theorem audited_serve (config : Config) (h : Host Module) (request : HostRequest) :
    let p := (Manager.scripted config).serve h request
    Audited config h p.1 p.2 := by
  have counted {contract : String} {g : Host Module}
      (backstage : (h.note (.started contract)).Backstage g) : h.Unbilled g :=
    (Host.Passes.note h (by rfl)).trans (unbilled_of_backstage backstage)
  refine serve_cases config h request (P := Audited config h) ?_ ?_ ?_ ?_
  · intro contract message _
    exact audited_of_silent [] rfl (by simp) nofun
  · intro e refused
    refine audited_of_silent [] rfl (by simp) ?_
    rintro _ ⟨⟩
    exact Option.eq_none_iff_forall_ne_some.2 fun _ =>
      no_bill (HostRequest.isReport_of_parsed refused)
  · intro accepted fault g _ offstage
    obtain ⟨events, journal, silent, _⟩ :=
      ((counted offstage.backstage).trans (unbilled_finish ..)).told
    refine audited_of_silent events journal silent ?_
    rintro _ ⟨⟩
    rfl
  · intro accepted load setup g _ _ _ offstage
    obtain ⟨early, journal, silent, _⟩ := (counted offstage.backstage).told
    have reckoned : Reckoned config early := by simpa using (Reckoned.nil config).silent silent
    have record : OnRecord (fun _ : CallRun config => True) h g :=
      (OnRecord.refl h).passes ((Host.Passes.note h (by rfl)).trans
        (.of_backstage offstage.backstage fun _ => Event.measured?_of_isBackstage))
    have opens : (accounts config h).Begins config (Closed config h _) load (created setup g)
        (Manager.beginCall setup g) :=
      begins_of_open rfl (open_beginCall reckoned journal setup) fun _ _ closed => closed
    have knows (account : Account) (run : CallRun config)
        (_ : (accounts config h).Holds account run.ready) : True := trivial
    have begins : ((accounts config h).recording (fun _ : CallRun config => True) h).Begins config
        (fun result f => Audited config h (some result)
          (Manager.finish accepted.contract result f))
        load (created setup g) (Manager.beginCall setup g) := by
      refine opens.recording knows record fun result f closed record => ?_
      obtain ⟨events, kept, ended, _, billed⟩ :=
        closed.unbilled (unbilled_finish accepted.contract result f)
      obtain ⟨events', journal', recorded⟩ :=
        record.passes (unmeasured_finish accepted.contract result f)
      rw [kept.journal, ← List.append_assoc] at journal'
      obtain rfl := List.append_cancel_right journal'
      refine ⟨_, by rw [kept.journal, ← List.append_assoc], kept.reckoned, recorded,
        fun id first => ?_, ?_⟩
      · rw [begunIn_append] at first
        change (begunIn events ++ g.contexts.next :: begunIn early).getLast? = some id at first
        rw [begunIn_silent silent, List.getLast?_concat] at first
        cases first
        exact ⟨result, rfl, List.mem_append_left _ ended⟩
      · rintro _ used gas ⟨⟩ reports
        rw [usagesIn_append, (billed used gas reports).1]
        change _ = Resources.total (usagesIn events ++ usagesIn early)
        rw [usagesIn_silent silent, List.append_nil]
    exact ((accounts_upheld config h).recording knows h).run config.maxCallDepth.toNat begins

end Call

/-- What is reported for calls is what they used, for every state of a host and every request.

Look at the end of any call, and at what happened since the call was begun. If the call ended
well, or with a failure that its contract reports, the usage that it reports is that of its
own program and of the programs of all calls inside it, each of which is counted once,
whatever those calls reported: in each resource the sum, or the largest word. Each of these
programs stayed within the limit of gas and used neither disk nor fee. The sum is within the
limits of the settings, and the gas is its price. If the program of the call ran to its end
but the sum is above a limit, the call has exhausted its gas, whatever output was set.

What a program used by itself is what its machine told. For every entry that says so there is a
run: a call was made ready, with a context of that number, and its program left the machine and
the host just before the entry was made. The usage is the gas that the machine had counted by
then and the size of its memory, and neither disk nor fee. A program that ran to its end was run
there by the machine, from the function on that the call enters.

The result of the request is that of the call that was begun first, and so reports what all
programs used that were run for it. -/
theorem serve_bills_call_tree (config : Config) (h : Host Module) (request : HostRequest) :
    let p := (Manager.scripted config).serve h request
    ∃ events, p.2.journal = events ++ h.journal ∧
      (∀ id result early, (.ended id result :: early) <:+ events →
        let inside := sinceBegan id early
        (∀ used gas, billed? result = some (used, gas) →
          used = Resources.total (usagesIn inside) ∧
            (measuredIn inside).Perm (id :: begunIn inside) ∧
            (∀ context own ended, .measured context ended own ∈ inside →
              ended = .ok () ∧ own.cpu ≤ config.gasLimit ∧ own.disk = 0 ∧ own.fee = 0) ∧
            used.exceeds config.maxLimits = false ∧ gas = used.gas config.rates) ∧
        ∀ own, .measured id (.ok ()) own ∈ inside →
          (Resources.total (usagesIn inside)).exceeds config.maxLimits = true →
          result = .error (.trap .gasExhausted)) ∧
      (∀ id result own early, (.measured id result own :: early) <:+ events →
        ∃ run : CallRun config, run.Tells h.journal id result own early ∧
          (result = .ok () → ∃ entry value, run.inst.entryPoint = .ok entry ∧
            let invoker := (Manager.scripted config).nestedCall run.room
            let params := run.inst.entryParams
            run.inst.machine.exec (Syscall.serve (some invoker)) entry params
              (run.ready.note (.engine (.exec entry params))) =
                ((.ok value, run.left.1.2), run.left.2))) ∧
      (∀ id, (begunIn events).getLast? = some id →
        ∃ result, p.1 = some result ∧ .ended id result ∈ events) ∧
      ∀ result used gas, p.1 = some result → billed? result = some (used, gas) →
        used = Resources.total (usagesIn events) := by
  intro p
  obtain ⟨events, journal, reckoned, recorded, outermost, reported⟩ :=
    Call.audited_serve config h request
  refine ⟨events, journal, fun id result early suffix => ?_,
    fun id result own early suffix => ?_, outermost, reported⟩
  · have accounted := reckoned id result early suffix
    refine ⟨fun used gas reports => ?_, accounted.exhausted⟩
    obtain ⟨sum, within, price, balanced, gas⟩ := accounted.reported used gas reports
    exact ⟨sum, balanced, fun context own ended => gas context ended own, within, price⟩
  · obtain ⟨run, -, tells⟩ := recorded id result own early suffix
    refine ⟨run, tells, fun ended => run.exec_of_left ?_⟩
    exact Prod.ext (Prod.ext (tells.result.trans ended) rfl) rfl

end ContractHost
