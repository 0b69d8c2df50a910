/-
# Aborts stay

An instance is asked to end through itself or through any clone of its signal: before it runs,
between its runs, or while it runs, from inside an access of the store, and by several who give
different reasons. The first reason stays. From then on no operation of the instance's program
starts, and every run of the instance, the one that is going on and all later ones, ends for that
reason, whatever the program did meanwhile.
-/

import ContractHost.Proofs.Call.Heed
import ContractHost.Proofs.Script.Interruption

namespace ContractHost

open Script (Machine Module)

/-! ## Programs that are asked to end -/

namespace Script

/-- A machine of a context, with a signal, runs on a host. -/
structure Task.Runs (own : ContextId) (signal : SignalId) (t : Task) : Prop where
  owns : t.host.Owns own signal
  context : t.machine.context = some own
  signal : t.machine.signal = some signal

/-- A program that looks at its signal obeys it. -/
theorem Run.obeys_marches (handler : HeedfulHandler) (own : ContextId) (signal : SignalId) :
    Marches (fun _ => True) handler.serve fun t u =>
      t.Runs own signal → u.Runs own signal ∧ t.host.Obeys own signal u.host where
  refl t runs := ⟨runs, .refl t.host⟩
  trans first second runs := by
    obtain ⟨runs, obeys⟩ := first runs
    obtain ⟨runs, obeys'⟩ := second runs
    exact ⟨runs, obeys.trans obeys'⟩
  assigned t _ _ runs := ⟨⟨runs.owns, runs.context, runs.signal⟩, .refl t.host⟩
  burnt t _ _ runs := ⟨⟨runs.owns, runs.context, runs.signal⟩, .refl t.host⟩
  grown t _ runs := ⟨⟨runs.owns, runs.context, runs.signal⟩, .refl t.host⟩
  written t line runs := by
    unfold Task.written
    cases t.machine.writer with
    | none => exact ⟨runs, .refl t.host⟩
    | some writer =>
        exact ⟨⟨⟨runs.owns.handed, runs.owns.running⟩, runs.context, runs.signal⟩,
          .of_passes (.addLines t.host _) fun _ _ => Iff.rfl⟩
  served t id request asked runs := by
    obtain rfl : id = own := Option.some.inj (asked.symm.trans runs.context)
    have obeys := handler.heeds request runs.owns
    exact ⟨⟨obeys.owns runs.owns, runs.context, runs.signal⟩, obeys⟩
  priced t runs := ⟨⟨runs.owns, runs.context, runs.signal⟩, .refl t.host⟩
  started t op unasked runs := by
    have free : t.host.signals.reason? signal = none := by
      rw [Task.asked?, runs.signal] at unasked
      exact Option.map_eq_none_iff.1 unasked
    have obeys : t.host.Obeys own signal (t.started op).host :=
      .start t.host free t.machine.context op
    exact ⟨⟨obeys.owns runs.owns, runs.context, runs.signal⟩, obeys⟩

/-- So does a machine. -/
theorem Machine.exec_obeys (handler : HeedfulHandler) {machine : Machine} {own : ContextId}
    {signal : SignalId} {h : Host Module} (runs : Task.Runs own signal { machine, host := h })
    (entry : String) (params : List Int) :
    let p := machine.exec handler.serve entry params h
    p.1.2.context = some own ∧ p.1.2.signal = some signal ∧ h.Obeys own signal p.2 := by
  obtain ⟨_, leads⟩ :=
    Machine.exec_leads (Run.obeys_marches handler own signal) machine entry params h
  obtain ⟨runs, obeys⟩ := leads runs
  exact ⟨runs.context, runs.signal, obeys⟩

end Script

/-- What was entered into the journal since an earlier host. -/
def Host.since {M : Type} (h g : Host M) : List Event :=
  g.journal.take (g.journal.length - h.journal.length)

theorem Host.since_eq {M : Type} {h g : Host M} {events : List Event}
    (journal : g.journal = events ++ h.journal) : h.since g = events := by
  rw [since, journal, List.length_append, Nat.add_sub_cancel, List.take_left]

/-! ## Schedules -/

instance (own : ContextId) (signal : SignalId) (h : Host Module) : Decidable (h.Owns own signal) :=
  decidable_of_iff
    (signal < h.signals.next ∧ ∀ call ∈ h.running, call.signal = signal → call.context = own)
    ⟨fun ⟨handed, running⟩ => ⟨handed, running⟩, fun owns => ⟨owns.handed, owns.running⟩⟩

/-- What happens to an instance. It is asked to end, through itself or a clone of its signal, it
runs, or it gives up its machine. Or something happens elsewhere: the host may be any other
afterwards, with any other aborts and with any clones of the signal registered to hear them, if
only the signal is what it was. -/
inductive InstanceStep
  | raise (reason : String)
  | exec (handler : HeedfulHandler) (entry : String)
  | release
  | elsewhere (host : Host Module)

/-- An instance in use, and the reasons for which it was asked to end so far, the first one
first. -/
structure InstanceUse where
  inst : Instance Module Machine
  host : Host Module
  raised : List String := []

namespace InstanceUse

/-- The reasons that the signal of the instance was given by some events. -/
def raisedBy (u : InstanceUse) (events : List Event) : List String :=
  raisedIn u.host.running u.inst.signal events

/-- Runs a function of the instance. -/
def exec (u : InstanceUse) (handler : HeedfulHandler) (entry : String) :
    (Except HostError Unit × Instance Module Machine) × Host Module :=
  u.inst.exec Script.engine handler.serve entry u.host

/-- The instance on a machine that nobody can ask to end. -/
def deaf (u : InstanceUse) : InstanceUse :=
  { u with inst := { u.inst with machine := u.inst.machine.deaf } }

/-- Takes a step. -/
def step (u : InstanceUse) : InstanceStep → InstanceUse
  | .raise reason =>
    { u with host := u.inst.abort reason u.host, raised := u.raised ++ [reason] }
  | .exec handler entry =>
    let p := u.exec handler entry
    { inst := p.1.2, host := p.2, raised := u.raised ++ u.raisedBy (u.host.since p.2) }
  | .release =>
    let p := u.inst.close Script.engine u.host
    { u with inst := p.1, host := p.2 }
  | .elsewhere host =>
    if host.signals.reason? u.inst.signal = u.host.signals.reason? u.inst.signal ∧
        host.Owns u.inst.context u.inst.signal then
      { u with host }
    else u

/-- Takes steps in turn. -/
def run (u : InstanceUse) (steps : List InstanceStep) : InstanceUse := steps.foldl step u

/-- The machine of the instance has the context and the signal of the instance, and the signal has
the first reason that it was given. -/
structure Sound (u : InstanceUse) : Prop where
  runs : Script.Task.Runs u.inst.context u.inst.signal { machine := u.inst.machine, host := u.host }
  reason : u.host.signals.reason? u.inst.signal = u.raised.head?

variable {u : InstanceUse}

namespace Sound

variable (sound : u.Sound)

include sound

/-- An instance that was asked to end does nothing any more. -/
theorem exec_raised {reason : String} (first : u.raised.head? = some reason)
    (handler : HeedfulHandler) (entry : String) :
    u.exec handler entry = ((.error (.trap (.aborted reason)), u.inst), u.host) := by
  have trap : u.host.signals.trap? u.inst.signal = some (.aborted reason) :=
    congrArg (Option.map Trap.aborted) (sound.reason.trans first)
  unfold exec
  rw [Call.exec_scripted, trap]

/-- The machine is entered on the host of the instance. -/
theorem entered (entry : String) :
    Script.Task.Runs u.inst.context u.inst.signal
      { machine := u.inst.machine
        host := u.host.note (.engine (.exec entry u.inst.entryParams)) } :=
  ⟨⟨sound.runs.owns.handed, sound.runs.owns.running⟩, sound.runs.context, sound.runs.signal⟩

/-- A run leaves the instance what it is, obeys its signal, and ends for the reason that the
signal has by then, if it has one. -/
theorem exec (handler : HeedfulHandler) (entry : String) :
    let p := u.exec handler entry
    (∃ machine, p.1.2 = { u.inst with machine } ∧
      Script.Task.Runs u.inst.context u.inst.signal { machine, host := p.2 }) ∧
    u.host.Obeys u.inst.context u.inst.signal p.2 ∧
    ∀ reason, p.2.signals.reason? u.inst.signal = some reason →
      p.1.1 = .error (.trap (.aborted reason)) := by
  have idle : ∃ machine, u.inst = { u.inst with machine } ∧
      Script.Task.Runs u.inst.context u.inst.signal { machine, host := u.host } :=
    ⟨u.inst.machine, rfl, sound.runs⟩
  unfold InstanceUse.exec
  rw [Call.exec_scripted]
  cases trapped : u.host.signals.trap? u.inst.signal with
  | some trap =>
      refine ⟨idle, .refl u.host, fun reason raised => ?_⟩
      rw [Signals.trap?, raised] at trapped
      cases trapped
      rfl
  | none =>
      have unraised : u.host.signals.reason? u.inst.signal = none := Option.map_eq_none_iff.1 trapped
      dsimp only
      split
      · refine ⟨idle, .refl u.host, fun reason raised => ?_⟩
        rw [unraised] at raised
        cases raised
      · obtain ⟨context, signal, obeys⟩ :=
          Script.Machine.exec_obeys handler (sound.entered entry) entry u.inst.entryParams
        have called : u.host.Obeys u.inst.context u.inst.signal
            (u.host.note (.engine (.exec entry u.inst.entryParams))) := .note _ ⟨rfl, rfl⟩
        refine ⟨⟨_, rfl, obeys.owns (sound.entered entry).owns, context, signal⟩,
          called.trans obeys, fun reason raised => ?_⟩
        simp only [Call.overruled, Signals.trap?, raised, Option.map_some]

/-- In a run that was cut short, the operation that was going on came to its end: without the
signal, the next thing to happen would have been that another operation starts. -/
theorem exec_deaf (handler : HeedfulHandler) (entry : String) :
    let p := u.exec handler entry
    let q := u.deaf.exec handler entry
    q.2.journal = p.2.journal ∨
      ∃ later op, q.2.journal = later ++ .operation (some u.inst.context) op :: p.2.journal := by
  have signal : u.deaf.inst.signal = u.inst.signal := rfl
  have params : u.deaf.inst.entryParams = u.inst.entryParams := rfl
  have host : u.deaf.host = u.host := rfl
  have memory : u.deaf.inst.machine.memory = u.inst.machine.memory := rfl
  unfold InstanceUse.exec
  rw [Call.exec_scripted, Call.exec_scripted, signal, params, host, memory]
  cases u.host.signals.trap? u.inst.signal with
  | some trap => exact .inl rfl
  | none =>
      dsimp only
      split
      · exact .inl rfl
      · obtain ⟨context, -, -⟩ :=
          Script.Machine.exec_obeys handler (sound.entered entry) entry u.inst.entryParams
        rcases Script.Machine.exec_interrupted handler.grows u.inst.machine entry
          u.inst.entryParams (u.host.note (.engine (.exec entry u.inst.entryParams))) with
          same | ⟨_, _, _, ended⟩
        · exact .inl (congrArg (·.2.journal) same)
        · rw [context] at ended
          exact ended

/-- The events of a run tell whether the signal was raised, and operations started only while it
was not. -/
theorem exec_told (handler : HeedfulHandler) (entry : String) :
    let p := u.exec handler entry
    let events := u.host.since p.2
    p.2.journal = events ++ u.host.journal ∧
      p.2.signals.reason? u.inst.signal = (u.raised ++ u.raisedBy events).head? ∧
      ∀ later op early, events = later ++ .operation (some u.inst.context) op :: early →
        u.raised ++ u.raisedBy early = [] := by
  intro p events
  obtain ⟨-, obeys, -⟩ := sound.exec handler entry
  obtain ⟨told, journal, reason, free⟩ := obeys.told
  obtain rfl : events = told := Host.since_eq journal
  refine ⟨journal, ?_, fun later op early split => ?_⟩
  · rw [List.head?_append, ← sound.reason]
    exact reason
  · obtain ⟨unraised, none⟩ := free later op early split
    rw [sound.reason, List.head?_eq_none_iff] at unraised
    rw [unraised]
    exact none

theorem step (turn : InstanceStep) : (u.step turn).Sound := by
  cases turn with
  | raise reason =>
      constructor
      · exact ⟨⟨by simpa [InstanceUse.step, Instance.abort] using sound.runs.owns.handed,
          sound.runs.owns.running⟩, sound.runs.context, sound.runs.signal⟩
      · refine (u.host.signals.reason?_raise u.inst.signal reason sound.runs.owns.handed).trans ?_
        rw [if_pos rfl]
        show _ = (u.raised ++ [reason]).head?
        rw [List.head?_append, ← sound.reason]
        rfl
  | exec handler entry =>
      obtain ⟨⟨machine, same, runs⟩, -, -⟩ := sound.exec handler entry
      obtain ⟨-, reason, -⟩ := sound.exec_told handler entry
      constructor
      · show Script.Task.Runs (u.exec handler entry).1.2.context (u.exec handler entry).1.2.signal
          { machine := (u.exec handler entry).1.2.machine, host := _ }
        rw [same]
        exact runs
      · show (u.exec handler entry).2.signals.reason? (u.exec handler entry).1.2.signal = _
        rw [same]
        exact reason
  | release =>
      obtain ⟨⟨context, setup, machine, signal, closed, code⟩, host, raised⟩ := u
      cases closed with
      | true => exact sound
      | false =>
          obtain ⟨module, gasLimit, gasUsed, memory, language, bound, writer, held⟩ := machine
          have owns : host.Owns context signal := sound.runs.owns
          cases writer <;> exact
            ⟨⟨⟨owns.handed, owns.running⟩, sound.runs.context, sound.runs.signal⟩, sound.reason⟩
  | elsewhere host =>
      unfold InstanceUse.step
      dsimp only
      split
      · next kept => exact ⟨⟨kept.2, sound.runs.context, sound.runs.signal⟩,
          kept.1.trans sound.reason⟩
      · exact sound

theorem run (steps : List InstanceStep) : (u.run steps).Sound := by
  induction steps generalizing u with
  | nil => exact sound
  | cons turn steps ih => exact ih (sound.step turn)

end Sound

/-- An instance that was made on a host, where all running calls have signals that were handed
out. -/
theorem Sound.created {config : Config} {load : CodeLoad} {ctx : Context} {h g : Host Module}
    {inst : Instance Module Machine} (handed : ∀ call ∈ h.running, call.signal < h.signals.next)
    (made : runFrom ((Manager.scripted config).backend.createInstance load ctx) h = (.ok inst, g)) :
    Sound { inst, host := g } := by
  have offstage := Call.offstage_obtain load ctx h
  rw [Call.runFrom_createInstance] at made
  revert offstage made
  rcases Call.obtain load ctx h with ⟨e | code, f⟩
  · intro failed
    cases failed
  · rintro made ⟨before, _, offstage, _, signals, running, _⟩
    cases made
    have next : f.signals.next = h.signals.next := by
      rw [signals, offstage.backstage.handed]
    constructor
    · constructor
      · constructor
        · show f.signals.next < f.signals.issue.next
          simp
        · intro call mem held
          have old : call ∈ h.running := by
            rw [← offstage.heard.running, ← running]
            exact mem
          exact absurd (held.trans next) (Nat.ne_of_lt (handed call old))
      · rfl
      · rfl
    · show f.signals.issue.reason? f.signals.next = none
      simp [Signals.reason?_of_next_le]

end InstanceUse

/-- Aborts stay, and win over everything else.

An instance is created, and then anything happens to it: it is asked to end any number of times,
by itself or by clones of its signal, it runs any number of functions, with a handler that makes
nested calls or without, it gives up its machine, and the host becomes another one, in which
anyone may hold clones of the signal and in which any aborts arrive with accesses of the store.
Then a function of it runs.

If it was asked to end before that run is over, be it from inside an access of the store, the run
ends with a trap that tells the first of all reasons. No operation of its program started after
the instance had been asked to end, and the one that was going on came to its end: on a machine
that nobody can ask to end, either nothing else would have happened, or the next thing would have
been that another operation starts. An instance that was asked to end before the run does
nothing at all: it uses no gas, and its host stays as it is. -/
theorem InstanceUse.first_reason_stays (config : Config) (load : CodeLoad) (ctx : Context)
    {h g : Host Module} {inst : Instance Module Machine}
    (handed : ∀ call ∈ h.running, call.signal < h.signals.next)
    (made : runFrom ((Manager.scripted config).backend.createInstance load ctx) h = (.ok inst, g))
    (steps : List InstanceStep) (handler : HeedfulHandler) (entry : String) :
    let u := InstanceUse.run { inst, host := g } steps
    let p := u.exec handler entry
    let q := u.deaf.exec handler entry
    let events := u.host.since p.2
    p.2.journal = events ++ u.host.journal ∧
    (∀ reason, (u.raised ++ u.raisedBy events).head? = some reason →
      p.1.1 = .error (.trap (.aborted reason))) ∧
    (∀ later op early, events = later ++ .operation (some u.inst.context) op :: early →
      u.raised ++ u.raisedBy early = []) ∧
    (q.2.journal = p.2.journal ∨
      ∃ later op, q.2.journal = later ++ .operation (some u.inst.context) op :: p.2.journal) ∧
    ∀ reason, u.raised.head? = some reason →
      p = ((.error (.trap (.aborted reason)), u.inst), u.host) := by
  intro u p q events
  have sound : u.Sound := (InstanceUse.Sound.created handed made).run steps
  obtain ⟨-, -, ends⟩ := sound.exec handler entry
  obtain ⟨journal, reason, free⟩ := sound.exec_told handler entry
  refine ⟨journal, fun first raised => ends first (reason.trans raised), free,
    sound.exec_deaf handler entry, ?_⟩
  exact fun first raised => sound.exec_raised raised handler entry

/-- Code that writes an object twice. -/
def boothCode : CompiledCode Module where
  serial := 0
  name := "booth"
  digest := ""
  module :=
    { program := {
        memory := some 1
        imports := []
        exports := .ofList [("run", [.single (.put "k" "v"), .single (.put "k" "w")])] }
      bindings := [(.putObject, .putObject)] }

/-- A call that runs it. -/
def boothCall : CallSetup where
  contract := "booth"
  method := "run"
  args := .empty
  language := ""
  caller := "alice"
  depth := 0

/-- A host that has it cached. With every write two aborts arrive. -/
def boothHost : Host Module where
  surroundings.aborts _ op _ := if op = .put then [("booth", "stop"), ("booth", "later")] else []
  contexts := Contexts.create {} boothCall
  cache := { compiled := 1, entries := [boothCode] }

/-- The first of two aborts that arrive with the first write decides how the run ends. -/
theorem booth_stops_for_first_reason :
    let ctx : Context := { id := ⟨1⟩, setup := boothCall }
    let inst := Call.instanceOn .standard ctx boothCode 0
    let g := Call.prepare ctx (Call.lent ctx boothCode boothHost)
    let u := InstanceUse.run { inst, host := g }
      [.elsewhere { g with running := [⟨⟨1⟩, "booth", 0⟩] }]
    (∀ call ∈ boothHost.running, call.signal < boothHost.signals.next) ∧
      runFrom ((Manager.scripted .standard).backend.createInstance .reuse ctx) boothHost =
        (.ok inst, g) ∧
      u.raised = [] ∧ (u.exec .alone "run").1.1 = .error (.trap (.aborted "stop")) := by
  intro ctx inst g u
  have handed : ∀ call ∈ boothHost.running, call.signal < boothHost.signals.next := by
    simp [boothHost]
  have made : runFrom ((Manager.scripted .standard).backend.createInstance .reuse ctx) boothHost =
      (.ok inst, g) := by
    rw [Call.runFrom_createInstance]
    rfl
  refine ⟨handed, made, rfl, ?_⟩
  obtain ⟨-, decides, -⟩ := InstanceUse.first_reason_stays .standard .reuse ctx handed made
    [.elsewhere { g with running := [⟨⟨1⟩, "booth", 0⟩] }] .alone "run"
  apply decides
  have told : u.raisedBy (u.host.since (u.exec .alone "run").2) = ["stop", "later"] := by
    decide +kernel
  rw [told]
  rfl

end ContractHost
