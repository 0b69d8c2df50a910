/-
# Whose answer a call gives

What a call was made with and what its program wants it to answer stand in a context, which
the host reaches by a number. Calls inside a call have contexts of their own, also where they
are calls of the same contract, and while they run all contexts around them stay as they
are. So the output that decides how a call ends is the one that its own program asked for
last, however many calls ran in between.

This is followed through a call tree on the journal: the context of a running call is
compared with what its program has asked for since the call was begun.
-/

import ContractHost.Proofs.Call.Usage
import ContractHost.Proofs.Journal.Answers

namespace ContractHost

open Script (Machine Module)

namespace Event

/-- True of the events that are of no account here: they neither begin nor end a call, and no
program asked by them for an output or about its call. -/
def isMute (event : Event) : Bool :=
  !event.isEntry && !event.isOwnAffair && !event.isCrossing

variable {event : Event}

theorem isEntry_of_isMute (mute : event.isMute) : event.isEntry = false := by
  simp only [isMute, Bool.and_eq_true, Bool.not_eq_true'] at mute
  exact mute.1.1

theorem isOwnAffair_of_isMute (mute : event.isMute) : event.isOwnAffair = false := by
  simp only [isMute, Bool.and_eq_true, Bool.not_eq_true'] at mute
  exact mute.1.2

theorem isCrossing_of_isMute (mute : event.isMute) : event.isCrossing = false := by
  simp only [isMute, Bool.and_eq_true, Bool.not_eq_true'] at mute
  exact mute.2

theorem isMute_of_isBackstage (backstage : event.isBackstage) : event.isMute := by
  cases event <;> first | rfl | cases backstage

/-- By itself a program ends no call, and answers none. -/
theorem isCrossing_of_isOf {id : ContextId} {live : List ContextId} (own : event.IsOf id live) :
    event.isCrossing = false := by
  cases event with
  | answered context request result =>
      cases request <;> first | rfl | exact absurd rfl own.2
  | _ => first | rfl | cases own

end Event

/-- Where there was nothing of account, nothing was mixed up. -/
theorem Truthful.of_mute {cs : Contexts} {events : List Event}
    (mute : ∀ event ∈ events, event.isMute) : Truthful cs events := by
  rw [← List.append_nil events]
  apply (Truthful.nil cs).append
  · exact fun event mem => Event.isCrossing_of_isMute (mute event mem)
  · exact .silent fun event mem => Event.isOwnAffair_of_isMute (mute event mem)

namespace Call

/-- A call on record, with what it was made with. -/
structure Party extends Account where
  setup : CallSetup

/-- Since a call was begun, with the given events, nothing was mixed up, and the contexts that
were live before are what they were. -/
structure Heeded (start : Host Module) (party : Party) (events : List Event) (h : Host Module) :
    Prop where
  journal : h.journal = events ++ (party.begun ++ start.journal)
  truthful : Truthful h.contexts (events ++ party.begun)
  before : ∀ id ctx, party.before.find? id = some ctx → h.contexts.find? id = some ctx
  others : ∀ id, id.number < party.context.number → lastOutput? id events = none
  made : h.contexts.setup? party.context = some party.setup

/-- The program of a call is running, and the output of the call is what it asked for last. -/
structure Speaking (start : Host Module) (party : Party) (events : List Event)
    (h : Host Module) : Prop extends Heeded start party events h where
  later : ∀ id ∈ begunIn events ++ measuredIn events, party.context.number < id.number
  own : ∃ ctx, h.contexts.find? party.context = some ctx ∧
    ctx.output = lastOutput? party.context events

/-- A call has failed, with all on record. -/
def Halted (start : Host Module) (party : Party) (h : Host Module) : Prop :=
  ∃ events, Heeded start party events h ∧
    ∀ id ∈ begunIn events ++ measuredIn events, party.context.number < id.number

/-- A call has ended just now, with all on record. -/
def Spoken (start : Host Module) (party : Party) (result : Except HostError Outcome)
    (h : Host Module) : Prop :=
  ∃ events, Heeded start party (.ended party.context result :: events) h ∧
    ∀ id ∈ begunIn events ++ measuredIn events, party.context.number ≤ id.number

variable {config : Config} {start h g : Host Module} {party : Party} {events later : List Event}

/-- A context that was live before a call was begun is not that of the call. -/
theorem Party.ne_context {id : ContextId} {ctx : Context}
    (found : party.before.find? id = some ctx) : id ≠ party.context :=
  Contexts.ne_next_of_held? (Contexts.held?_of_find? found)

namespace Heeded

variable (heeded : Heeded start party events h)

include heeded

/-- A step that leaves all contexts but that of the call alone, and in which nobody but the
program of the call asks for outputs. -/
theorem step (journal : g.journal = later ++ h.journal) (kept : g.contexts.Keeps h.contexts)
    (apart : ∀ id, id ≠ party.context → g.contexts.find? id = h.contexts.find? id)
    (plain : ∀ event ∈ later, event.isCrossing = false) (informed : Informed g.contexts later)
    (others : ∀ id, id ≠ party.context → lastOutput? id later = none) :
    Heeded start party (later ++ events) g where
  journal := by rw [journal, heeded.journal, List.append_assoc]
  truthful := by
    rw [List.append_assoc]
    exact (heeded.truthful.mono kept.setup?).append plain informed
  before id ctx found := by
    rw [apart id (Party.ne_context found)]
    exact heeded.before id ctx found
  others id below := by
    have other : id ≠ party.context := fun same => Int.lt_irrefl _ (same ▸ below)
    rw [lastOutput?_append, others id other, Option.none_or]
    exact heeded.others id below
  made := kept.setup? heeded.made

/-- A step that is of no account. -/
theorem mute (contexts : g.contexts = h.contexts) (journal : g.journal = later ++ h.journal)
    (mute : ∀ event ∈ later, event.isMute) : Heeded start party (later ++ events) g := by
  have silent : ∀ event ∈ later, event.isOwnAffair = false := fun event mem =>
    Event.isOwnAffair_of_isMute (mute event mem)
  apply heeded.step journal
  · rw [contexts]
    exact .refl h.contexts
  · intro id _
    rw [contexts]
  · exact fun event mem => Event.isCrossing_of_isMute (mute event mem)
  · exact .silent silent
  · exact fun id _ => lastOutput?_eq_none fun event mem =>
      Event.output?_of_not_isOwnAffair (silent event mem) id

end Heeded

namespace Speaking

theorem halted (speaking : Speaking start party events h) : Halted start party h :=
  ⟨events, speaking.toHeeded, speaking.later⟩

/-- What the program of the call does by itself. -/
theorem behaves (speaking : Speaking start party events h)
    (behaves : h.Behaves party.context g) : ∃ later, Speaking start party (later ++ events) g := by
  obtain ⟨ctx, found, output⟩ := speaking.own
  obtain ⟨later, journal, own, _⟩ := behaves.told
  obtain ⟨later', journal', held, informed⟩ := behaves.answers ctx found
  obtain rfl : later = later' := List.append_cancel_right (journal.symm.trans journal')
  have silent : ∀ event ∈ later, event.isEntry = false := fun event mem =>
    Event.isEntry_of_isOf (own event mem)
  refine ⟨later, ?_, ?_, ?_⟩
  · apply speaking.toHeeded.step journal behaves.kept _ _ informed
    · exact fun id apart => lastOutput?_eq_none fun event mem =>
        Event.output?_of_isOf (own event mem) (Ne.symm apart)
    · exact fun id apart => Contexts.find?_congr behaves.live (behaves.apart id apart)
    · exact fun event mem => Event.isCrossing_of_isOf (own event mem)
  · rw [begunIn_append, measuredIn_append, begunIn_silent silent, measuredIn_silent silent]
    exact speaking.later
  · refine ⟨_, Contexts.find?_of_held? held ?_, ?_⟩
    · rw [behaves.live]
      exact Contexts.mem_live_of_find? found
    · rw [lastOutput?_append, output]

/-- What is of no account. -/
theorem mute (speaking : Speaking start party events h) (contexts : g.contexts = h.contexts)
    (journal : g.journal = later ++ h.journal) (mute : ∀ event ∈ later, event.isMute) :
    Speaking start party (later ++ events) g where
  toHeeded := speaking.toHeeded.mute contexts journal mute
  later := by
    have silent : ∀ event ∈ later, event.isEntry = false := fun event mem =>
      Event.isEntry_of_isMute (mute event mem)
    rw [begunIn_append, measuredIn_append, begunIn_silent silent, measuredIn_silent silent]
    exact speaking.later
  own := by
    obtain ⟨ctx, found, output⟩ := speaking.own
    refine ⟨ctx, contexts ▸ found, ?_⟩
    rw [lastOutput?_silent fun event mem => Event.isOwnAffair_of_isMute (mute event mem)]
    exact output

theorem backstage (speaking : Speaking start party events h) (backstage : h.Backstage g) :
    ∃ later, Speaking start party (later ++ events) g := by
  obtain ⟨later, journal, plain, _⟩ := backstage.told
  exact ⟨later, speaking.mute backstage.contexts journal fun event mem =>
    Event.isMute_of_isBackstage (plain event mem)⟩

theorem ready (speaking : Speaking start party events h) (ctx : Context) :
    Speaking start party (preparations ctx ++ events) (ready ctx h) :=
  speaking.mute rfl rfl fun _ mem => Event.isMute_of_isBackstage (isBackstage_of_mem_preparations mem)

end Speaking

/-- A call begins, and its program has asked for nothing. -/
theorem speaking_beginCall {early : List Event} (truthful : Truthful h.contexts early)
    (journal : h.journal = early ++ start.journal) (setup : CallSetup)
    (asked : begunIn early = [] ∨
      Summoned (Manager.beginCall setup h).contexts h.contexts.next early) :
    Speaking start
      ⟨⟨h.store.peek? (StoreKey.description setup.contract), h.contexts, early⟩, setup⟩ []
      (Manager.beginCall setup h) where
  journal := congrArg (List.cons _) journal
  truthful := (truthful.mono (Contexts.Keeps.create h.contexts setup).setup?).beginCall _ asked
  before id ctx found := Contexts.find?_create found setup
  others id _ := rfl
  made := Contexts.setup?_create_next h.contexts setup
  later := by simp [begunIn, measuredIn]
  own := ⟨_, Contexts.find?_create_next h.contexts setup, rfl⟩

theorem isMute_counted {contract : String} {result : Except HostError Outcome}
    {released : List Event} (plain : ∀ event ∈ released, event = .engine .releaseModule) :
    ∀ event ∈ released ++ [.finished contract result], event.isMute :=
  List.forall_mem_append.2 ⟨fun event mem => plain event mem ▸ rfl,
    List.forall_mem_singleton.2 rfl⟩

/-! ## The end of a call -/

section Verdict

variable {cs : Contexts} {created ctx : Context} {own : Resources}
  (held : cs.held? created.id = some ctx)

include held

/-- The answer of a call whose program ran to its end is the output of its context. -/
theorem output_of_verdict {response : Response}
    (answers : response? (verdict config cs created own) = some response) :
    ctx.output = some response ∧
      (verdict config cs created own).isOk = !response.isError := by
  unfold verdict at answers ⊢
  rw [held] at answers ⊢
  dsimp only [Option.getD_some] at answers ⊢
  cases within : (own.add ctx.nestedUsage).exceeds config.maxLimits with
  | true => simp [within, response?] at answers
  | false =>
      cases output : ctx.output with
      | none => simp [within, output, response?] at answers
      | some set =>
          cases failure : set.isError
          all_goals
            simp only [within, output, failure, response?, Outcome.priced, Bool.false_eq_true,
              ↓reduceIte, Option.some.injEq] at answers ⊢
            subst answers
            simp [failure, Except.isOk, Except.toBool]

/-- Without an output there is no answer. -/
theorem verdict_of_unset (unset : ctx.output = none) :
    verdict config cs created own = .error (.trap .gasExhausted) ∨
      verdict config cs created own = .error (.missingOutput ctx.setup.contract) := by
  unfold verdict
  rw [held]
  dsimp only [Option.getD_some]
  rw [unset]
  split
  · exact .inl rfl
  · exact .inr rfl

end Verdict

/-- The end of a call changes nothing about the contexts of other calls. -/
theorem conclude_apart (config : Config) {ctx : Context} (code : CompiledCode Module)
    (result : Except HostError Unit) (m : Machine) (h : Host Module) {id : ContextId}
    (apart : id ≠ ctx.id) :
    (conclude config ctx code result m h).2.contexts.find? id = h.contexts.find? id := by
  have parted : (part ctx.id result m code h).contexts = h.contexts := part_contexts ..
  cases result with
  | error e => exact congrArg (·.find? id) parted
  | ok _ =>
      apply Contexts.find?_congr (conclude_live config ctx code (.ok ()) m h)
      show (judged config (part ctx.id (.ok ()) m code h).contexts ctx (usage m)).held? id = _
      rw [parted]
      unfold judged
      dsimp only
      split
      · rfl
      · have own : ((h.contexts.held? ctx.id).getD ctx).id = ctx.id := by
          cases held : h.contexts.held? ctx.id with
          | none => rfl
          | some known => exact (Contexts.held?_eq_some.1 held).2
        rw [own]
        exact Contexts.held?_update_of_ne h.contexts apart fun _ => rfl

variable {ctx : Context} {m : Machine} (code : CompiledCode Module)

/-- The end of a call is put on record, if it agrees with what happened during the call. -/
theorem Heeded.endCall (heeded : Heeded start party events h) (framed : party.context = ctx.id)
    (unbegun : party.context ∉ begunIn events) {result : Except HostError Outcome}
    (own : OwnAnswer h.contexts party.context events result) :
    Heeded start party (.ended party.context result :: events)
      (Manager.endCall ctx.id result h) where
  journal := by
    rw [framed]
    exact congrArg (List.cons _) heeded.journal
  truthful := by
    have known : ∀ {id : ContextId} {setup : CallSetup}, h.contexts.setup? id = some setup →
        (Manager.endCall ctx.id result h).contexts.setup? id = some setup := id
    apply (heeded.truthful.mono known).endCall
    rw [Account.begun, sinceBegan_append unbegun]
    exact own.mono known
  before id ctx' found := by
    have apart : id ≠ ctx.id := framed ▸ Party.ne_context found
    exact (h.contexts.find?_destroy_of_ne apart).trans (heeded.before id ctx' found)
  others id below := heeded.others id below
  made := heeded.made

/-- When the program of a call is done its end is put on record. What the call answers has to
be the last output that was asked for. -/
theorem Heeded.closed (heeded : Heeded start party events h) (framed : party.context = ctx.id)
    (later : ∀ id ∈ begunIn events ++ measuredIn events, party.context.number < id.number)
    {result : Except HostError Unit}
    (answer : ∀ response, response? (conclude config ctx code result m h).1 = some response →
      lastOutput? party.context events = some response ∧
        (conclude config ctx code result m h).1.isOk = !response.isError)
    (unasked : result = .ok () → lastOutput? party.context events = none →
      (conclude config ctx code result m h).1 = .error (.trap .gasExhausted) ∨
        (conclude config ctx code result m h).1 = .error (.missingOutput party.setup.contract)) :
    let p := conclude config ctx code result m h
    Spoken start party p.1 (Manager.endCall ctx.id p.1 p.2) := by
  obtain ⟨cleared, journal, clear⟩ := conclude_journal config ctx code result m h
  have mute : ∀ event ∈ cleared, event.isMute := fun event mem =>
    Event.isMute_of_isBackstage (Event.isBackstage_of_isClearance (clear event mem))
  have silent : ∀ event ∈ cleared, event.isEntry = false := fun event mem =>
    Event.isEntry_of_isMute (mute event mem)
  have unheard : ∀ event ∈ cleared ++ [.measured ctx.id result (usage m)],
      event.isOwnAffair = false := by
    refine List.forall_mem_append.2 ⟨fun event mem => ?_, List.forall_mem_singleton.2 rfl⟩
    exact Event.isOwnAffair_of_isMute (mute event mem)
  have unbegun := not_mem_of_above fun id mem => later id (List.mem_append_left _ mem)
  have unmeasured := not_mem_of_above fun id mem => later id (List.mem_append_right _ mem)
  have concluded : Heeded start party (cleared ++ [.measured ctx.id result (usage m)] ++ events)
      (conclude config ctx code result m h).2 := by
    apply heeded.step _ (conclude_keeps config ctx code result m h)
    · exact fun id apart => conclude_apart config code result m h (framed ▸ apart)
    · exact List.forall_mem_append.2 ⟨fun event mem => Event.isCrossing_of_isMute (mute event mem),
        List.forall_mem_singleton.2 rfl⟩
    · exact .silent unheard
    · exact fun id _ => lastOutput?_eq_none fun event mem =>
        Event.output?_of_not_isOwnAffair (unheard event mem) id
    · rw [journal, List.append_assoc]
      rfl
  have asked : lastOutput? party.context (cleared ++ [.measured ctx.id result (usage m)] ++ events) =
      lastOutput? party.context events := lastOutput?_silent unheard events
  rw [List.append_assoc, List.singleton_append] at concluded asked
  have own : OwnAnswer (conclude config ctx code result m h).2.contexts party.context
      (cleared ++ .measured ctx.id result (usage m) :: events)
      (conclude config ctx code result m h).1 := by
    constructor
    · rw [asked]
      exact answer
    · intro used mem silence
      rw [← framed] at mem
      have done := (eq_of_measured silent _ _ _ unmeasured mem).1.symm
      rw [asked] at silence
      refine (unasked done silence).imp_right fun missing => ?_
      exact ⟨party.setup, concluded.made, missing⟩
  refine ⟨_, concluded.endCall framed ?_ own, ?_⟩
  · rwa [begunIn_concluded silent]
  · rw [begunIn_concluded silent, measuredIn_concluded silent, ← framed]
    intro id mem
    rcases List.mem_append.1 mem with mem | mem
    · exact Int.le_of_lt (later id (List.mem_append_left _ mem))
    · rcases List.mem_cons.1 mem with rfl | mem
      · exact Int.le_refl _
      · exact Int.le_of_lt (later id (List.mem_append_right _ mem))

/-- A failure of the host is no answer. -/
theorem response?_error {e : HostError} (own : e.isReport = false) :
    response? (.error e) = none := by
  cases e with
  | contract => cases own
  | _ => rfl

/-- A call whose program failed, or was asked to end, answers nothing. -/
theorem Halted.closed (halted : Halted start party h) (framed : party.context = ctx.id)
    {e : HostError} (own : e.isReport = false) :
    let p := conclude config ctx code (.error e) m h
    Spoken start party p.1 (Manager.endCall ctx.id p.1 p.2) := by
  obtain ⟨events, heeded, later⟩ := halted
  refine heeded.closed code framed later (fun response answers => ?_) nofun
  rw [show (conclude config ctx code (.error e) m h).1 = .error e from rfl,
    response?_error own] at answers
  cases answers

/-- A call whose program ran to its end answers what the program asked for last. -/
theorem Speaking.closed (speaking : Speaking start party events h)
    (framed : party.context = ctx.id) :
    let p := conclude config ctx code (.ok ()) m h
    Spoken start party p.1 (Manager.endCall ctx.id p.1 p.2) := by
  obtain ⟨known, found, output⟩ := speaking.own
  have held := Contexts.held?_of_find? found
  have setup : known.setup = party.setup := by
    have made := speaking.made
    rw [Contexts.setup?, held] at made
    exact Option.some.inj made
  rw [framed] at held
  have judged : (conclude config ctx code (.ok ()) m h).1 =
      verdict config h.contexts ctx (usage m) := by
    show verdict config (part ctx.id (.ok ()) m code h).contexts ctx (usage m) = _
    rw [part_contexts]
  apply speaking.toHeeded.closed code framed speaking.later
  · rw [judged, ← output]
    exact fun response answers => output_of_verdict held answers
  · rw [judged, ← output, ← setup]
    exact fun _ unset => verdict_of_unset held unset

/-- A call that does not come by its code answers nothing. -/
theorem Speaking.unable (speaking : Speaking start party events h)
    (framed : party.context = ctx.id) {e : HostError} (own : e.isReport = false) :
    Spoken start party (.error e) (Manager.endCall ctx.id (.error e) h) := by
  have unbegun := not_mem_of_above fun id mem => speaking.later id (List.mem_append_left _ mem)
  have unmeasured := not_mem_of_above fun id mem => speaking.later id (List.mem_append_right _ mem)
  have silent : OwnAnswer h.contexts party.context events (.error e) := by
    constructor
    · intro response answers
      rw [response?_error own] at answers
      cases answers
    · exact fun _ mem => absurd (mem_measuredIn mem) unmeasured
  exact ⟨events, speaking.toHeeded.endCall framed unbegun silent,
    fun id mem => Int.le_of_lt (speaking.later id mem)⟩

/-! ## Calls inside a call -/

/-- A call that a program asks for. -/
def Party.inside (party : Party) (events : List Event) (setup : CallSetup) (h : Host Module) :
    Party where
  toAccount := party.toAccount.inside events setup h
  setup := setup

/-- What a program asked for last, it asked for since its call was begun. -/
theorem Heeded.asked_since (heeded : Heeded start party events h) {id : ContextId}
    {request : SyscallRequest} (dispatched : Dispatched id request h) :
    ∃ behind live before, events ++ party.begun = behind ++ .syscall id request live :: before ∧
      ∀ event ∈ behind, event.isBackstage := by
  obtain ⟨behind, live, before, journal, plain⟩ := dispatched
  have absent : Event.began party.context party.description ∉ behind := fun mem => by
    cases plain _ mem
  have begun : Event.began party.context party.description ∈ events ++ party.begun :=
    List.mem_append_right _ List.mem_cons_self
  rw [heeded.journal, ← List.append_assoc] at journal
  rcases List.append_eq_append_iff.1 journal with ⟨rest, inside, _⟩ | ⟨rest, since, split⟩
  · exact absurd (inside ▸ List.mem_append_left rest begun) absent
  · cases rest with
    | nil =>
        rw [List.append_nil] at since
        exact absurd (since ▸ begun) absent
    | cons event rest =>
        obtain ⟨rfl, -⟩ := List.cons.inj split
        exact ⟨behind, live, rest, since, plain⟩

section Inside

variable {setup : CallSetup} {args : List ArgPair} {inner : List Event}

/-- A call that a program asks for is made for it. -/
theorem Requested.madeFor (requested : Requested config party.context args setup h) :
    setup.MadeFor h.contexts party.context setup.contract setup.method args where
  contract := rfl
  method := rfl
  args := requested.args
  caller := by
    obtain ⟨ctx, found, named, _⟩ := requested.caller
    exact ⟨ctx.setup, congrArg (Option.map _) (Contexts.held?_of_find? found), named⟩

theorem Heeded.speaking_inside (heeded : Heeded start party events h)
    (requested : Requested config party.context args setup h) :
    Speaking start (party.inside events setup h) []
      (Manager.beginCall setup (invoked setup.contract h)) := by
  apply speaking_beginCall (h := invoked setup.contract h)
  · exact Truthful.append heeded.truthful (List.forall_mem_singleton.2 rfl)
      (.silent (List.forall_mem_singleton.2 rfl))
  · show .started setup.contract :: h.journal = _
    rw [heeded.journal, List.cons_append, List.append_assoc]
  · right
    obtain ⟨behind, live, before, since, plain⟩ := heeded.asked_since requested.dispatched
    refine ⟨setup, party.context, setup.contract, setup.method, args, live, behind, before, ?_, ?_,
      ?_, plain⟩
    · exact Contexts.setup?_create_next h.contexts setup
    · exact requested.madeFor.mono (Contexts.Keeps.create h.contexts setup).setup?
    · exact congrArg (List.cons _) since

/-- When a call inside a call has ended, the context of the call that made it is what it was
before. -/
theorem Speaking.returned (speaking : Speaking start party events h)
    (inside : Heeded start (party.inside events setup h) inner g)
    (later : ∀ id ∈ begunIn inner ++ measuredIn inner, h.contexts.next.number ≤ id.number) :
    Speaking start party (insideOf h setup inner events) g := by
  obtain ⟨ctx, found, output⟩ := speaking.own
  have next := Contexts.number_lt_next (Contexts.held?_of_find? found)
  have found' : g.contexts.find? party.context = some ctx := inside.before _ _ found
  have asked {id : ContextId} (below : id.number < h.contexts.next.number) :
      lastOutput? id (insideOf h setup inner events) = lastOutput? id events := by
    unfold insideOf
    rw [lastOutput?_append, inside.others id below, Option.none_or]
    rfl
  refine ⟨⟨?_, ?_, ?_, ?_, ?_⟩, above_insideOf next speaking.later later, ctx, found', ?_⟩
  · rw [inside.journal]
    simp [insideOf, Party.inside, Account.inside, Account.begun, Account.context]
  · have truthful := inside.truthful
    simpa [insideOf, Party.inside, Account.inside, Account.begun, Account.context] using truthful
  · exact fun id ctx found => inside.before id ctx (speaking.before id ctx found)
  · intro id below
    rw [asked (Int.lt_trans below next)]
    exact speaking.others id below
  · have made := speaking.made
    rw [Contexts.setup?, Contexts.held?_of_find? found] at made
    rw [Contexts.setup?, Contexts.held?_of_find? found']
    exact made
  · rw [asked next]
    exact output

/-- A call of a contract fails, and with it the call that asked for it. -/
theorem Speaking.refused (speaking : Speaking start party events h)
    (module contract method : String) (args : List ArgPair) (e : HostError) :
    Halted start party
      (h.note (.answered party.context (.contractCall module contract method args) (.error e))) :=
  ⟨.answered party.context (.contractCall module contract method args) (.error e) :: events, {
    journal := congrArg (List.cons _) speaking.journal
    truthful := speaking.truthful.reply module contract method args fun _ same => by cases same
    before := speaking.before
    others := fun id below => speaking.others id below
    made := speaking.made }, speaking.later⟩

/-- A call is answered to the program that asked for it, and charged. -/
theorem Speaking.reply (speaking : Speaking start party events h)
    (contract method : String) (args : List ArgPair) (response : Response) (used : Resources)
    (relay : Relay h.contexts party.context contract method args (.response response)
      (events ++ party.begun)) :
    let request := .contractCall SyscallRequest.contractModule contract method args
    Speaking start party (.answered party.context request (.ok (.response response)) :: events)
      (replied party.context request response used h) := by
  intro request
  obtain ⟨ctx, found, output⟩ := speaking.own
  let charged := h.contexts.update party.context (Context.addNestedUsage used)
  have setup (id : ContextId) : charged.setup? id = h.contexts.setup? id :=
    h.contexts.setup?_update party.context id (fun _ => rfl) fun _ => rfl
  have known {id : ContextId} {made : CallSetup} (known : h.contexts.setup? id = some made) :
      charged.setup? id = some made := (setup id).trans known
  have answered : ∀ answer, Except.ok (SyscallResponse.response response) =
      (.ok answer : Except HostError SyscallResponse) →
      Relay charged party.context contract method args answer (events ++ party.begun) := by
    rintro _ ⟨⟩
    exact relay.mono known
  have spared {id : ContextId} (apart : id ≠ party.context) :
      charged.find? id = h.contexts.find? id :=
    Contexts.find?_congr rfl (h.contexts.held?_update_of_ne apart fun _ => rfl)
  have charging : charged.held? party.context = some (ctx.addNestedUsage used) :=
    Contexts.held?_update_self (Contexts.held?_of_find? found) fun _ => rfl
  have live : party.context ∈ h.contexts.live := Contexts.mem_live_of_find? found
  refine ⟨⟨congrArg (List.cons _) speaking.journal, ?_, ?_, ?_, known speaking.made⟩, ?_, ?_⟩
  · exact (speaking.truthful.mono known).reply _ contract method args answered
  · exact fun id ctx found =>
      (spared (Party.ne_context found)).trans (speaking.before id ctx found)
  · exact fun id below => speaking.others id below
  · exact speaking.later
  · exact ⟨_, Contexts.find?_of_held? charging live, output⟩

end Inside

/-! ## Whole call trees -/

/-- Inside a call its own program is heard, and no other. -/
def voices (start : Host Module) : Condition Party where
  context party := party.context
  Holds party h := ∃ events, Speaking start party events h
  Broken party e h := e.isReport = false ∧ Halted start party h

/-- When a call inside a call was answered, the answer has gone to who asked for it. -/
theorem answered_of_spoken (speaking : Speaking start party events h) {setup : CallSetup}
    {args : List ArgPair} (requested : Requested config party.context args setup h)
    {result : Except HostError Outcome}
    (spoken : Spoken start (party.inside events setup h) result g) :
    (voices start).Answered party (setup.request args) result
      (Manager.finish setup.contract result g) := by
  obtain ⟨inner, inside, later⟩ := spoken
  obtain ⟨released, plain, journal⟩ := Manager.finish_told setup.contract result g
  have contexts := Manager.finish_contexts setup.contract result g
  have counted := (speaking.returned inside later).mute contexts journal (isMute_counted plain)
  rw [List.append_assoc, List.singleton_append] at counted
  have known : (Manager.finish setup.contract result g).contexts.setup? h.contexts.next =
      some setup := contexts ▸ inside.made
  have made : setup.MadeFor (Manager.finish setup.contract result g).contexts party.context
      setup.contract setup.method args := by
    obtain ⟨maker, own, named⟩ := requested.madeFor.caller
    refine ⟨rfl, rfl, requested.args, maker, ?_, named⟩
    cases speaking.made.symm.trans own
    exact counted.made
  have reply (response : Response) (used : Resources) (answers : response? result = some response) :
      ∃ events, Speaking start party events (replied party.context (setup.request args) response
        used (Manager.finish setup.contract result g)) := by
    refine ⟨_, counted.reply setup.contract setup.method args response used ?_⟩
    refine ⟨h.contexts.next, setup, result, response, released, inner ++ .began h.contexts.next
      (h.store.peek? (StoreKey.description setup.contract)) :: .started setup.contract ::
        (events ++ party.begun), known, made, ?_, answers, rfl, plain⟩
    simp [insideOf, Party.inside, Account.inside, Account.context]
  have failed (e : HostError) (own : e.isReport = false) :
      (voices start).Broken party e ((Manager.finish setup.contract result g).note
        (.answered party.context (setup.request args) (.error e))) :=
    ⟨own, counted.refused _ _ _ _ e⟩
  cases result with
  | ok outcome => exact reply outcome.response outcome.resources rfl
  | error e =>
      cases e with
      | contract response used gas => exact reply response used rfl
      | _ => exact failed _ rfl

/-- However a call ends, nothing was mixed up. -/
theorem begins_of_speaking {Closed : Except HostError Outcome → Host Module → Prop}
    {load : CodeLoad} (framed : party.context = ctx.id)
    (speaking : ∃ events, Speaking start party events h)
    (closed : ∀ result g, Spoken start party result g → Closed result g) :
    (voices start).Begins config Closed load ctx h := by
  obtain ⟨events, speaking⟩ := speaking
  refine Condition.Begins.of_stages party framed ?_ ?_ ?_
  · intro e g own backstage
    obtain ⟨later, speaking⟩ := speaking.backstage backstage
    exact closed _ _ (speaking.unable framed (HostError.isReport_of_isOwn own))
  · intro g backstage
    obtain ⟨later, speaking⟩ := speaking.backstage backstage
    exact ⟨_, speaking.ready ctx⟩
  · intro code g result m f _ ended _
    have failed {e : HostError} (own : e.isReport = false) (halted : Halted start party f) :
        let p := conclude config ctx code (.error e) m f
        Closed p.1 (Manager.endCall ctx.id p.1 p.2) :=
      closed _ _ (halted.closed code framed own)
    rcases overruled_cases f.signals g.signals.next result with stands | ⟨reason, aborted⟩
    · rw [stands]
      match result, ended with
      | .ok (), ⟨_, speaking⟩ => exact closed _ _ (speaking.closed code framed)
      | .error e, ⟨own, halted⟩ => exact failed own halted
    · rw [aborted]
      match result, ended with
      | .ok (), ⟨_, speaking⟩ => exact failed rfl speaking.halted
      | .error e, ⟨_, halted⟩ => exact failed rfl halted

theorem voices_upheld (config : Config) (start : Host Module) :
    Upheld config (voices start) where
  broken _ own speaking := by
    obtain ⟨_, speaking⟩ := speaking
    exact ⟨HostError.isReport_of_isOwn own, speaking.halted⟩
  acted behaves speaking := by
    obtain ⟨_, speaking⟩ := speaking
    obtain ⟨_, speaking⟩ := speaking.behaves behaves
    exact ⟨_, speaking⟩
  refused module contract method args e refuses speaking := by
    obtain ⟨_, speaking⟩ := speaking
    exact ⟨refuses.isReport, speaking.refused module contract method args e⟩
  called := by
    rintro party h setup args requested ⟨events, speaking⟩
    have inside := speaking.toHeeded.speaking_inside requested
    exact begins_of_speaking rfl ⟨_, inside⟩ fun result g spoken =>
      answered_of_spoken speaking requested spoken

/-- A request was served, and nothing was mixed up. The result is that of the outermost call,
which was made with what the request says. -/
def Answered (request : HostRequest) (h : Host Module)
    (result? : Option (Except HostError Outcome)) (g : Host Module) : Prop :=
  ∃ events, g.journal = events ++ h.journal ∧ Truthful g.contexts events ∧
    ∀ id, (begunIn events).getLast? = some id → ∃ result setup, result? = some result ∧
      .ended id result ∈ events ∧ request.setup? = some setup ∧
      g.contexts.setup? id = some setup

theorem answered_of_mute {request : HostRequest} {result? : Option (Except HostError Outcome)}
    (events : List Event) (journal : g.journal = events ++ h.journal)
    (mute : ∀ event ∈ events, event.isMute) : Answered request h result? g := by
  refine ⟨events, journal, ?_, fun id first => ?_⟩
  · exact .of_mute mute
  · rw [begunIn_silent fun event mem => Event.isEntry_of_isMute (mute event mem)] at first
    cases first

/-- Up to the beginning of its call, a request is of no account. -/
theorem mute_offstage {contract : String} (offstage : (h.note (.started contract)).Offstage g) :
    ∃ early, g.journal = early ++ h.journal ∧ ∀ event ∈ early, event.isMute := by
  obtain ⟨events, journal, plain, _⟩ := offstage.backstage.told
  refine ⟨events ++ [.started contract], ?_, List.forall_mem_append.2 ⟨fun event mem => ?_, ?_⟩⟩
  · rw [journal, List.append_assoc]
    rfl
  · exact Event.isMute_of_isBackstage (plain event mem)
  · exact List.forall_mem_singleton.2 rfl

theorem answered_serve (config : Config) (h : Host Module) (request : HostRequest) :
    let p := (Manager.scripted config).serve h request
    Answered request h p.1 p.2 := by
  refine serve_cases config h request (P := Answered request h) ?_ ?_ ?_ ?_
  · intro contract message _
    exact answered_of_mute [] rfl (by simp)
  · intro e _
    exact answered_of_mute [] rfl (by simp)
  · intro accepted fault g _ offstage
    obtain ⟨early, journal, mute⟩ := mute_offstage offstage
    obtain ⟨released, plain, journal'⟩ :=
      Manager.finish_told accepted.contract (.error (.storage fault)) g
    apply answered_of_mute (released ++ [.finished accepted.contract _] ++ early)
    · rw [journal', journal, ← List.append_assoc]
    · exact List.forall_mem_append.2 ⟨isMute_counted plain, mute⟩
  · intro accepted load setup g _ made _ offstage
    obtain ⟨early, journal, mute⟩ := mute_offstage offstage
    have unbegun : begunIn early = [] :=
      begunIn_silent fun event mem => Event.isEntry_of_isMute (mute event mem)
    have speaking := speaking_beginCall (.of_mute mute) journal setup (.inl unbegun)
    have begins : (voices h).Begins config
        (fun result f => Answered request h (some result)
          (Manager.finish accepted.contract result f))
        load (created setup g) (Manager.beginCall setup g) := by
      refine begins_of_speaking rfl ⟨_, speaking⟩ fun result f spoken => ?_
      obtain ⟨inner, heeded, _⟩ := spoken
      obtain ⟨released, plain, journal'⟩ := Manager.finish_told accepted.contract result f
      have contexts := Manager.finish_contexts accepted.contract result f
      have counted := heeded.mute contexts journal' (isMute_counted plain)
      refine ⟨_, by rw [counted.journal, ← List.append_assoc], counted.truthful, ?_⟩
      intro id first
      have called : id = g.contexts.next := by
        rw [begunIn_append] at first
        change (_ ++ g.contexts.next :: begunIn early).getLast? = some id at first
        rw [unbegun, List.getLast?_concat] at first
        exact (Option.some.inj first).symm
      subst called
      exact ⟨result, setup, rfl, by simp [Account.context], made, counted.made⟩
    exact (voices_upheld config h).run config.maxCallDepth.toNat begins

end Call

/-- The answer of every call is its own, for every state of a host and every request.

Look at the end of any call, and at what happened since it was begun, with all calls inside it.
If the call ended well, or with a failure that its contract reports, the response is the one
that its own program asked for last, and it ended well if and only if the status is below 400.
If the program ran to its end within the limits and asked for no response, the output of its
contract is missing. Whenever a program asked about its call it was told at once what that call
was made with.

The call that was begun first was made with what the request says, and every other call for a
program that had just asked for it, in the name of its contract. What a call of a contract was
answered with is the response of such a call, which has just ended, and the result of the request
is that of the call that was begun first. -/
theorem serve_answers_are_own (config : Config) (h : Host Module) (request : HostRequest) :
    let p := (Manager.scripted config).serve h request
    ∃ events, p.2.journal = events ++ h.journal ∧
      (∀ id result early, (.ended id result :: early) <:+ events →
        let inside := sinceBegan id early
        (∀ response, response? result = some response →
          lastOutput? id inside = some response ∧
            ((∃ outcome, result = .ok outcome) ↔ response.status < 400)) ∧
        ∀ own, .measured id (.ok ()) own ∈ inside → lastOutput? id inside = none →
          (Resources.total (usagesIn inside)).exceeds config.maxLimits = false →
          ∃ setup, p.2.contexts.setup? id = some setup ∧
            result = .error (.missingOutput setup.contract)) ∧
      (∀ late id live early, events = late ++ .syscall id .getCallArgs live :: early →
        ∃ setup, p.2.contexts.setup? id = some setup ∧
          late.getLast? = some (.answered id .getCallArgs (.ok (.callArgs setup.callArgs)))) ∧
      (∀ id description early, (.began id description :: early) <:+ events →
        begunIn early = [] ∨ Summoned p.2.contexts id early) ∧
      (∀ caller module contract method args answer early,
        (.answered caller (.contractCall module contract method args) (.ok answer) :: early) <:+
          events → Relay p.2.contexts caller contract method args answer early) ∧
      ∀ id, (begunIn events).getLast? = some id → ∃ result setup, p.1 = some result ∧
        .ended id result ∈ events ∧ request.setup? = some setup ∧
        p.2.contexts.setup? id = some setup := by
  intro p
  obtain ⟨events, journal, truthful, outermost⟩ := Call.answered_serve config h request
  obtain ⟨events', journal', reckoned, _⟩ := Call.audited_serve config h request
  obtain rfl : events = events' := List.append_cancel_right (journal.symm.trans journal')
  refine ⟨events, journal, fun id result early suffix => ⟨fun response answers => ?_, ?_⟩,
    truthful.informed, truthful.summoned, truthful.relayed, outermost⟩
  · obtain ⟨asked, ended⟩ := (truthful.ended id result early suffix).answer response answers
    refine ⟨asked, ?_⟩
    rw [← response.not_isError_iff, ← ended]
    cases result with
    | ok outcome => simp [Except.isOk, Except.toBool]
    | error e => simp [Except.isOk, Except.toBool]
  · intro own measured unasked within
    rcases (truthful.ended id result early suffix).silent own measured unasked with
      exhausted | missing
    · have passed := (reckoned id result early suffix).passed own measured exhausted
      rw [within] at passed
      cases passed
    · exact missing

end ContractHost
