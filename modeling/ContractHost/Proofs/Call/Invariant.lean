/-
# Invariants of calls

What survives quiet changes and the beginning and end of calls holds throughout a call
and after it, with all the calls inside it. All that programs do by themselves is quiet,
and so is answering a call.
-/

import ContractHost.Proofs.Call.Course

namespace ContractHost.Call

open Script (Machine Module)

/-- A running call: its context, and the host when its program was entered. -/
structure Frame where
  context : ContextId
  base : Host Module

namespace Condition

variable {ι : Type} (C : Condition ι)

/-- The condition when a call has returned to the call that made it. -/
def Returned (frame : ι) : Except HostError Outcome → Host Module → Prop
  | .ok _ => C.Holds frame
  | .error (.contract ..) => C.Holds frame
  | .error e => C.Broken frame e

/-- A call that has its context opens well: it comes by its code, the condition then holds
in a frame of the call, and from however the program leaves it there, the end of the call
leads to what is asked for. Or it fails. -/
def Opens (config : Config) (Closed : Except HostError Outcome → Host Module → Prop)
    (load : CodeLoad) (ctx : Context) (h : Host Module) : Prop :=
  Ends
    (fun code g => ∃ frame, C.context frame = ctx.id ∧ C.Holds frame (ready ctx g) ∧
      ∀ result m f, C.Ended frame result f →
        let p := conclude config ctx code result m f
        Closed p.1 (Manager.endCall ctx.id p.1 p.2))
    (fun e g => Closed (.error e) (Manager.endCall ctx.id (.error e) g))
    (obtain load ctx h)

variable {C}

theorem Opens.mono {config : Config} {Closed Closed' : Except HostError Outcome → Host Module → Prop}
    {load : CodeLoad} {ctx : Context} {h : Host Module} (opens : C.Opens config Closed load ctx h)
    (closed : ∀ result g, Closed result g → Closed' result g) :
    C.Opens config Closed' load ctx h := by
  refine Ends.mono opens ?_ fun e g => closed _ _
  rintro code g ⟨frame, framed, holds, ending⟩
  exact ⟨frame, framed, holds, fun result m f ended => closed _ _ (ending result m f ended)⟩

/-- Where a failed call is as good as any other, so is every call that returned. -/
theorem returned_iff {frame : ι} (plain : ∀ e h, C.Broken frame e h ↔ C.Holds frame h)
    {result : Except HostError Outcome} {h : Host Module} :
    C.Returned frame result h ↔ C.Holds frame h := by
  match result with
  | .ok _ => exact Iff.rfl
  | .error e => cases e <;> first | exact Iff.rfl | exact plain _ _

end Condition

/-- A condition survives quiet changes and the calls that begin and end inside a call. -/
structure Invariant {ι : Type} (config : Config) (C : Condition ι) : Prop where
  broken : ∀ {frame h} e, C.Holds frame h → C.Broken frame e h
  aborted : ∀ {frame e h} reason, C.Broken frame e h → C.Broken frame (.trap (.aborted reason)) h
  marked : ∀ {frame e h event}, event.isInner → C.Broken frame e h → C.Broken frame e (h.note event)
  quiet : ∀ {frame h g}, h.Quiet g → C.Holds frame h → C.Holds frame g
  called : ∀ {frame h setup}, Asked config (C.context frame) setup h → C.Holds frame h →
    C.Opens config
      (fun result g => C.Returned frame result (Manager.finish setup.contract result g))
      .reuse (created setup (invoked setup.contract h))
      (Manager.beginCall setup (invoked setup.contract h))

namespace Invariant

variable {ι : Type} {config : Config} {C : Condition ι} (inv : Invariant config C)

include inv

/-- An abort may take the place of what a program came to. -/
theorem overruled {frame : ι} {result : Except HostError Unit} {h : Host Module}
    (ended : C.Ended frame result h) (signal : SignalId) :
    C.Ended frame (overruled h.signals signal result) h := by
  unfold Call.overruled Signals.trap?
  cases h.signals.reason? signal with
  | none => exact ended
  | some reason =>
      cases result with
      | ok _ => exact inv.broken _ ended
      | error e => exact inv.aborted reason ended

/-- A call that opens well begins well. -/
theorem begins {Closed : Except HostError Outcome → Host Module → Prop} {load : CodeLoad}
    {ctx : Context} {h : Host Module} (opens : C.Opens config Closed load ctx h) :
    C.Begins config Closed load ctx h := by
  refine Ends.mono opens ?_ fun _ _ closed => closed
  rintro code g ⟨frame, framed, holds, closed⟩
  exact ⟨frame, framed, holds, fun result m f ended _ =>
    closed _ m f (inv.overruled ended g.signals.next)⟩

/-- Answering a call keeps what holds when it has returned. -/
theorem answered {frame : ι} (request : SyscallRequest) {result : Except HostError Outcome}
    {h : Host Module} (returned : C.Returned frame result h) :
    C.Answered frame request result h := by
  have reply (response : Response) (used : Resources) (holds : C.Holds frame h) :
      C.Holds frame (replied (C.context frame) request response used h) :=
    inv.quiet (.note _ rfl) (inv.quiet (.update h (C.context frame) fun _ => rfl) holds)
  match result with
  | .ok outcome => exact reply _ _ returned
  | .error e =>
      cases e with
      | contract response used gas => exact reply _ _ returned
      | _ => exact inv.marked rfl returned

theorem upheld : Upheld config C where
  broken e _ holds := inv.broken e holds
  acted behaves holds := inv.quiet behaves.toQuiet holds
  refused _ _ _ _ e _ holds := inv.marked rfl (inv.broken e holds)
  called requested holds :=
    inv.begins ((inv.called requested.toAsked holds).mono fun _ _ => inv.answered _)

/-- A call that opens well, with all calls inside it, comes to the end asked for. -/
theorem run (room : Nat) {Closed : Except HostError Outcome → Host Module → Prop}
    {load : CodeLoad} {ctx : Context} {h : Host Module}
    (opens : C.Opens config Closed load ctx h) :
    let p := Call.run config ((Manager.scripted config).nestedCall room) load ctx h
    Closed p.1 p.2 :=
  inv.upheld.run room (inv.begins opens)

end Invariant

/-! ## Properties of hosts -/

/-- The condition that a property of hosts holds all the time. -/
def always (P : Host Module → Prop) : Condition ContextId where
  context id := id
  Holds _ := P
  Broken _ _ := P

/-- A property of hosts that survives all of a call but what begins it and obtains its code. -/
structure Abides (P : Host Module → Prop) : Prop where
  quiet : ∀ {h g}, h.Quiet g → P h → P g
  ready : ∀ {h} ctx, P h → P (ready ctx h)
  conclude : ∀ {h} config ctx code result m, P h → P (conclude config ctx code result m h).2
  endCall : ∀ {h} id result, P h → P (Manager.endCall id result h)
  finish : ∀ {h} contract result, P h → P (Manager.finish contract result h)

namespace Abides

variable {P : Host Module → Prop} (abides : Abides P) (config : Config) {h : Host Module}

include abides

/-- A call keeps the property if what obtains its code does. -/
theorem opens {load : CodeLoad} {ctx : Context} (begun : P h)
    (reused : ∀ code, h.cache.find? ctx.setup.contract = some code → P (lent ctx code h))
    (built : ∀ bytecode module, h.store.build ctx.setup.contract = .ok (bytecode, module) →
      P (kept ctx bytecode module h)) :
    (always P).Opens config (fun _ => P) load ctx h := by
  have opened {code : CompiledCode Module} {g : Host Module} (obtained : P g) :
      ∃ frame, (always P).context frame = ctx.id ∧ (always P).Holds frame (Call.ready ctx g) ∧
        ∀ result m f, (always P).Ended frame result f →
          let p := Call.conclude config ctx code result m f
          P (Manager.endCall ctx.id p.1 p.2) := by
    refine ⟨ctx.id, rfl, abides.ready ctx obtained, fun result m f ended => ?_⟩
    have held : P f := ((always P).ended_iff fun _ _ => Iff.rfl).1 ended
    exact abides.endCall _ _ (abides.conclude config ctx code result m held)
  refine obtain_ends ?_ ?_ ?_ ?_
  · intro code _ _
    exact abides.endCall _ _ begun
  · intro code _ found
    exact opened (reused code found)
  · intro e g _ quiet
    exact abides.endCall _ _ (abides.quiet quiet begun)
  · intro bytecode module _ compiled
    exact opened (built bytecode module compiled)

/-- Trees of calls keep the property if each call does. -/
theorem invariant
    (called : ∀ {g setup}, Naming.validate setup.contract = .ok () → P g →
      (always P).Opens config (fun _ => P) .reuse (created setup (invoked setup.contract g))
        (Manager.beginCall setup (invoked setup.contract g))) :
    Invariant config (always P) where
  broken _ holds := holds
  aborted _ broken := broken
  marked inner := abides.quiet (.note _ inner)
  quiet := abides.quiet
  called := by
    intro id g setup asked holds
    refine (called asked.named holds).mono fun result f held => ?_
    exact (Condition.returned_iff fun _ _ => Iff.rfl).2 (abides.finish setup.contract result held)

end Abides

end ContractHost.Call
