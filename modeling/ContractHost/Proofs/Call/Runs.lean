/-
# The runs behind a journal

A journal tells of every program that was done which call it belonged to, what it came to and
what it used. Behind each of these entries is a run: a call was made ready on a machine, its
program was entered there, and what was entered into the journal is what the machine said when
the program had left it.

Beside any condition that is upheld in calls a record of these runs can be kept, each with
what the condition says of the host in which its program was entered.
-/

import ContractHost.Proofs.Call.Course
import ContractHost.Proofs.Journal.Accounts

namespace ContractHost

open Script (Machine Module)

namespace Event

theorem measured?_of_isBackstage {event : Event} (backstage : event.isBackstage) :
    event.measured? = none := by
  cases event <;> first | rfl | cases backstage

theorem measured?_of_isOf {event : Event} {id : ContextId} {live : List ContextId}
    (own : event.IsOf id live) : event.measured? = none := by
  cases event <;> first | rfl | cases own

end Event

/-- A call that was made ready: what it was to do, how many levels deeper calls inside it may
nest, the host before it was begun, and the instance that was created for it. -/
structure CallRun (config : Config) where
  load : CodeLoad
  setup : CallSetup
  room : Nat
  before : Host Module
  inst : Instance Module Machine
  made : Host Module
  makes : runFrom ((Manager.scripted config).backend.createInstance load
    (Call.created setup before)) (Manager.beginCall setup before) = (.ok inst, made)

namespace CallRun

variable {config : Config} (run : CallRun config)

/-- The context of the call. -/
def context : ContextId := run.before.contexts.next

/-- The host in which the program is entered. -/
def ready : Host Module :=
  run.made.addRunning
    { context := run.context, contract := run.setup.contract, signal := run.inst.signal }

/-- What the program came to, with the machine and the host that it left. -/
def left : (Except HostError Unit × Machine) × Host Module :=
  Call.enter ((Manager.scripted config).nestedCall run.room) run.inst run.ready

/-- An entry in a journal, later than some earlier events, says what a run came to and what its
machine used: the gas that the machine counted and the memory that it had when the program left
it, and nothing else. -/
structure Tells (base : List Event) (id : ContextId) (result : Except HostError Unit)
    (used : Resources) (early : List Event) : Prop where
  context : run.context = id
  result : run.left.1.1 = result
  journal : run.left.2.journal = early ++ base
  used : used =
    { cpu := run.left.1.2.gasUsed, memory := run.left.1.2.memory.getD 0, disk := 0, fee := 0 }

/-- How the call ends, and the host when it has ended. -/
def ended : Except HostError Outcome × Host Module :=
  let p := Call.conclude config (Call.created run.setup run.before) run.inst.code run.left.1.1
    run.left.1.2 run.left.2
  (p.1, Manager.endCall run.context p.1 p.2)

/-- The machine was booted from the module that compiling some bytecode yields, has used no gas
before its program is entered, and runs the program of that module. -/
structure Boots (bytecode : Bytes) : Prop where
  compiled : Module.compile .standard bytecode = .ok run.inst.machine.module
  memory : run.inst.machine.memory = run.inst.machine.module.program.memory
  unused : run.inst.machine.gasUsed = 0
  exec : ∀ handler entry params, run.inst.machine.exec handler entry params =
    run.inst.machine.module.program.exec handler run.inst.machine entry params

/-- The run of a call for which code was obtained. -/
def ofObtained {load : CodeLoad} {setup : CallSetup} {before g : Host Module}
    {code : CompiledCode Module} (room : Nat)
    (obtained : Call.obtain load (Call.created setup before) (Manager.beginCall setup before) =
      (.ok code, g)) : CallRun config where
  load; setup; room; before
  inst := Call.instanceOn config (Call.created setup before) code g.signals.next
  made := Call.prepare (Call.created setup before) g
  makes := by rw [Call.runFrom_createInstance, obtained]

/-- A call is made ready on code that was obtained for it. -/
theorem exists_obtained : ∃ code g,
    Call.obtain run.load (Call.created run.setup run.before)
      (Manager.beginCall run.setup run.before) = (.ok code, g) ∧
    run.inst = Call.instanceOn config (Call.created run.setup run.before) code g.signals.next ∧
    run.made = Call.prepare (Call.created run.setup run.before) g := by
  have makes := run.makes
  rw [Call.runFrom_createInstance] at makes
  revert makes
  rcases Call.obtain run.load _ _ with ⟨e | code, g⟩
  · exact nofun
  · intro makes
    obtain ⟨inst, made⟩ := Prod.mk.inj makes
    exact ⟨code, g, rfl, (Except.ok.inj inst).symm, made.symm⟩

/-- The code of the instance is the code cached for the contract. -/
theorem cached : run.ready.cache.find? run.setup.contract = some run.inst.code := by
  obtain ⟨code, g, obtained, inst, made⟩ := run.exists_obtained
  have found := Call.obtain_cached run.load (Call.created run.setup run.before)
    (Manager.beginCall run.setup run.before)
  rw [obtained] at found
  unfold ready
  rw [inst, made]
  exact found

/-- The machine was booted from the module of that code. -/
theorem boots {bytecode : Bytes}
    (compiled : Module.compile .standard bytecode = .ok run.inst.code.module) :
    run.Boots bytecode := by
  obtain ⟨code, g, _, inst, _⟩ := run.exists_obtained
  rw [inst] at compiled
  constructor
  all_goals rw [inst]
  · exact compiled
  · rfl
  · rfl
  · exact fun _ _ _ => rfl

/-- What becomes of a call that is made ready is what becomes of its run. -/
theorem run_eq : Call.run config ((Manager.scripted config).nestedCall run.room) run.load
    (Call.created run.setup run.before) (Manager.beginCall run.setup run.before) = run.ended := by
  obtain ⟨code, g, obtained, inst, made⟩ := run.exists_obtained
  unfold ended left ready Call.run
  rw [obtained, inst, made]
  rfl

/-- A program that ran to its end was run by the machine, from some function on, and no abort
overruled it. -/
theorem exec_of_left {m : Machine} {g : Host Module} (ended : run.left = ((.ok (), m), g)) :
    ∃ entry value, run.inst.entryPoint = .ok entry ∧
      run.inst.machine.exec
        (Syscall.serve (some ((Manager.scripted config).nestedCall run.room))) entry
        run.inst.entryParams (run.ready.note (.engine (.exec entry run.inst.entryParams))) =
          ((.ok value, m), g) := by
  unfold left Call.enter at ended
  cases named : run.inst.entryPoint with
  | error e =>
      rw [named] at ended
      cases ended
  | ok entry =>
      rw [named] at ended
      dsimp only at ended
      split at ended
      · cases ended
      · split at ended
        · cases ended
        · refine ⟨entry, ?_⟩
          revert ended
          unfold Call.overruled
          rcases Machine.exec _ run.inst.machine entry _ _ with ⟨⟨result, m'⟩, g'⟩
          dsimp only
          cases g'.signals.trap? run.inst.signal with
          | some trap => exact nofun
          | none =>
              intro ended
              cases result with
              | error e => cases ended
              | ok value =>
                  cases ended
                  exact ⟨value, rfl, rfl⟩

end CallRun

/-- Every entry that tells of a program that was done has a run behind it, of which something is
known. -/
def Recorded {config : Config} (Known : CallRun config → Prop) (base events : List Event) : Prop :=
  ∀ id result used early, (.measured id result used :: early) <:+ events →
    ∃ run, Known run ∧ run.Tells base id result used early

namespace Recorded

variable {config : Config} {Known : CallRun config → Prop} {base events : List Event}

theorem nil : Recorded Known base [] := by
  intro id result used early suffix
  simp at suffix

/-- Other entries tell of no run. -/
theorem append (recorded : Recorded Known base events) {later : List Event}
    (other : ∀ event ∈ later, event.measured? = none) : Recorded Known base (later ++ events) := by
  induction later with
  | nil => exact recorded
  | cons event later ih =>
      obtain ⟨plain, other⟩ := List.forall_mem_cons.1 other
      intro id result used early suffix
      rcases List.suffix_cons_iff.1 suffix with same | suffix
      · cases same
        cases plain
      · exact ih other id result used early suffix

/-- A program is done, and its run is put on record. -/
theorem measured (recorded : Recorded Known base events) {run : CallRun config} (known : Known run)
    {id : ContextId} {result : Except HostError Unit} {used : Resources}
    (tells : run.Tells base id result used events) :
    Recorded Known base (.measured id result used :: events) := by
  intro id' result' used' early suffix
  rcases List.suffix_cons_iff.1 suffix with same | suffix
  · cases same
    exact ⟨run, known, tells⟩
  · exact recorded id' result' used' early suffix

end Recorded

namespace Host

variable {config : Config} {Known : CallRun config → Prop} {base h g : Host Module}

/-- Since an earlier moment all programs that were done are on record. -/
def OnRecord (Known : CallRun config → Prop) (base h : Host Module) : Prop :=
  ∃ events, h.journal = events ++ base.journal ∧ Recorded Known base.journal events

/-- A change after which no program was done that was not done before. -/
abbrev Unmeasured (h g : Host Module) : Prop := h.Passes (fun event => event.measured? = none) g

namespace OnRecord

theorem refl (h : Host Module) : OnRecord Known h h := ⟨[], rfl, .nil⟩

theorem passes (record : OnRecord Known base h) (unmeasured : h.Unmeasured g) :
    OnRecord Known base g := by
  obtain ⟨events, journal, recorded⟩ := record
  obtain ⟨later, journal', other, _⟩ := unmeasured.told
  exact ⟨later ++ events, by rw [journal', journal, List.append_assoc], recorded.append other⟩

/-- The end of a call puts the run of its program on record. -/
theorem conclude (record : OnRecord Known base h) {run : CallRun config} (known : Known run)
    {ctx : Context} (framed : run.context = ctx.id) {result : Except HostError Unit} {m : Machine}
    (left : run.left = ((result, m), h)) (code : CompiledCode Module) :
    OnRecord Known base (Call.conclude config ctx code result m h).2 := by
  obtain ⟨events, journal, recorded⟩ := record
  obtain ⟨cleared, journal', clear⟩ := Call.conclude_journal config ctx code result m h
  have tells : run.Tells base.journal ctx.id result (Call.usage m) events := {
    context := framed
    result := by rw [left]
    journal := by rw [left, journal]
    used := by rw [left]; rfl }
  refine ⟨cleared ++ .measured ctx.id result (Call.usage m) :: events, ?_,
    (recorded.measured known tells).append fun event mem => ?_⟩
  · rw [journal', journal, List.append_assoc, List.cons_append]
  · exact Event.measured?_of_isBackstage (Event.isBackstage_of_isClearance (clear event mem))

end OnRecord

end Host

namespace Call

open Host (OnRecord)

variable {ι : Type} {config : Config} {C : Condition ι} {Known : CallRun config → Prop}
  {base h : Host Module}

theorem unmeasured_finish (contract : String) (result : Except HostError Outcome)
    (h : Host Module) : h.Unmeasured (Manager.finish contract result h) :=
  passes_finish (by rfl) (fun _ clear =>
    Event.measured?_of_isBackstage (Event.isBackstage_of_isClearance clear)) h

/-- A condition, with a record of the runs since an earlier moment kept beside it. -/
def Condition.recording (C : Condition ι) (Known : CallRun config → Prop) (base : Host Module) :
    Condition ι where
  context := C.context
  Holds frame h := C.Holds frame h ∧ OnRecord Known base h
  Broken frame e h := C.Broken frame e h ∧ OnRecord Known base h

variable (knows : ∀ frame run, C.Holds frame run.ready → Known run)

include knows

/-- A call that begins well does so on record. -/
theorem Condition.Begins.recording {Closed Closed' : Except HostError Outcome → Host Module → Prop}
    {load : CodeLoad} {setup : CallSetup}
    (begins : C.Begins config Closed load (created setup h) (Manager.beginCall setup h))
    (record : OnRecord Known base h)
    (closed : ∀ result g, Closed result g → OnRecord Known base g → Closed' result g) :
    (C.recording Known base).Begins config Closed' load (created setup h)
      (Manager.beginCall setup h) := by
  have ended {g : Host Module} (record : OnRecord Known base g) (id : ContextId)
      (result : Except HostError Outcome) : OnRecord Known base (Manager.endCall id result g) :=
    record.passes (passes_endCall (by rfl) g)
  have backstage := backstage_obtain load (created setup h) (Manager.beginCall setup h)
  have begun : OnRecord Known base (Manager.beginCall setup h) :=
    record.passes (passes_beginCall (by rfl))
  have behind {g : Host Module} (backstage : (Manager.beginCall setup h).Backstage g) :
      OnRecord Known base g :=
    begun.passes (.of_backstage backstage fun _ => Event.measured?_of_isBackstage)
  unfold Condition.Begins at begins ⊢
  cases obtained : obtain load (created setup h) (Manager.beginCall setup h) with
  | mk result g =>
      rw [obtained] at begins backstage
      cases result with
      | error e => exact closed _ _ begins (ended (behind backstage.2) _ _)
      | ok code =>
          obtain ⟨frame, framed, holds, closing⟩ := begins
          refine ⟨frame, framed, ⟨holds, ?_⟩, fun result m f left ran => ?_⟩
          · exact (behind backstage).passes
              (passes_ready (fun _ => Event.measured?_of_isBackstage) _ g)
          · have parts : C.Ended frame result f ∧ OnRecord Known base f := by
              cases result with
              | ok _ => exact left
              | error e => exact left
            obtain ⟨room, entered⟩ := ran.entered
            have known : Known (.ofObtained room obtained) := knows frame _ holds
            exact closed _ _ (closing result m f parts.1 ran)
              (ended (parts.2.conclude known rfl entered code) _ _)

/-- What is upheld in calls is upheld with the record. -/
theorem Upheld.recording (up : Upheld config C) (base : Host Module) :
    Upheld config (C.recording Known base) where
  broken e own := fun ⟨holds, record⟩ => ⟨up.broken e own holds, record⟩
  acted behaves := fun ⟨holds, record⟩ => ⟨up.acted behaves holds,
    record.passes (.of_acts behaves.toActs fun _ => Event.measured?_of_isOf)⟩
  refused module contract method args e refuses := fun ⟨holds, record⟩ =>
    ⟨up.refused module contract method args e refuses holds, record.passes (.note _ (by rfl))⟩
  called := by
    intro frame h setup args requested ⟨holds, record⟩
    have counted : OnRecord Known base (invoked setup.contract h) :=
      record.passes (passes_invoked (by rfl) h)
    refine (up.called requested holds).recording knows counted fun result g answered record => ?_
    have record : OnRecord Known base (Manager.finish setup.contract result g) :=
      record.passes (unmeasured_finish ..)
    have answers (answer : Except HostError SyscallResponse) : OnRecord Known base
        ((Manager.finish setup.contract result g).note
          (.answered (C.context frame) (setup.request args) answer)) :=
      record.passes (.note _ (by rfl))
    -- what a call used is charged in its context, which is no matter of the record
    match result with
    | .ok outcome => exact ⟨answered, answers (.ok (.response outcome.response))⟩
    | .error e =>
        cases e with
        | contract response used gas => exact ⟨answered, answers (.ok (.response response))⟩
        | _ => exact ⟨answered, answers (.error _)⟩

end Call

end ContractHost
