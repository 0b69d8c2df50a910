/-
# The aborts in a journal

A call can be asked to end from when it has come by its code until it ends. The journal
tells which calls these are, and why each of them was asked to end first: an abort reaches
all calls of its contract that can be asked to end at that moment.
-/

import ContractHost.Journal

namespace ContractHost

/-- A call that can be asked to end, and why it was asked to first, if it was. -/
structure Abortable where
  context : ContextId
  contract : String
  reason? : Option String := none
deriving DecidableEq, Repr

/-- The call when an abort of a contract has arrived. -/
def Abortable.hear (contract message : String) (call : Abortable) : Abortable :=
  if call.contract = contract then { call with reason? := call.reason?.or (some message) }
  else call

/-- The calls that can be asked to end after some events, latest first. -/
def abortableIn : List Event → List Abortable
  | [] => []
  | .obtained id contract _ :: early => { context := id, contract } :: abortableIn early
  | .abort contract message _ _ :: early => (abortableIn early).map (.hear contract message)
  | .ended id _ :: early => (abortableIn early).filter fun call => call.context != id
  | _ :: early => abortableIn early

namespace Event

/-- True of the events from which on a call can be asked to end, or cannot any more. -/
def isTurn : Event → Bool
  | .obtained .. | .ended .. => true
  | _ => false

/-- True of the events that change nothing about the calls that can be asked to end. -/
def isSteady : Event → Bool
  | .obtained .. | .ended .. | .abort .. => false
  | _ => true

/-- What an abort tells: its contract and message, how many calls it found, and how many contexts
were live. -/
def abort? : Event → Option (String × String × Nat × Nat)
  | .abort contract message signalled live => some (contract, message, signalled, live)
  | _ => none

/-- True of what happens behind the stage: accesses of the store, the aborts that come with
them, and all that has to do with code and machines. -/
def isBackstage : Event → Bool
  | .access .. | .abort .. | .obtained .. | .engine _ | .released _ => true
  | _ => false

theorem eq_abort_of_abort? {event : Event} {contract message : String} {signalled live : Nat}
    (told : event.abort? = some (contract, message, signalled, live)) :
    event = .abort contract message signalled live := by
  cases event <;> cases told
  rfl

end Event

namespace Abortable

variable {call : Abortable} {contract message : String}

@[simp]
theorem hear_context : (call.hear contract message).context = call.context := by
  unfold hear
  split <;> rfl

@[simp]
theorem hear_contract : (call.hear contract message).contract = call.contract := by
  unfold hear
  split <;> rfl

/-- The first reason stays. -/
theorem reason?_hear {reason : String} (asked : call.reason? = some reason) :
    (call.hear contract message).reason? = some reason := by
  unfold hear
  split
  · simp [asked]
  · exact asked

/-- A call of the contract has a reason afterwards. -/
theorem reason?_hear_self :
    (call.hear call.contract message).reason? = some (call.reason?.getD message) := by
  unfold hear
  cases call.reason? <;> simp

end Abortable

variable {early : List Event} {call : Abortable}

/-- A call that can be asked to end has obtained its code. -/
theorem obtained_of_abortable (mem : call ∈ abortableIn early) :
    ∃ digest, .obtained call.context call.contract digest ∈ early := by
  induction early generalizing call with
  | nil => cases mem
  | cons event early ih =>
      have older {call : Abortable} (mem : call ∈ abortableIn early) :
          ∃ digest, .obtained call.context call.contract digest ∈ event :: early := by
        obtain ⟨digest, found⟩ := ih mem
        exact ⟨digest, List.mem_cons_of_mem _ found⟩
      cases event with
      | obtained id contract digest =>
          rcases List.mem_cons.1 mem with rfl | mem
          · exact ⟨digest, List.mem_cons_self⟩
          · exact older mem
      | abort contract message signalled live =>
          obtain ⟨call, found, rfl⟩ := List.mem_map.1 mem
          rw [Abortable.hear_context, Abortable.hear_contract]
          exact older found
      | ended id result => exact older (List.mem_filter.1 mem).1
      | _ => exact older mem

/-- A call that was asked to end can be asked again, for the same reason, until it ends. -/
theorem abortable_or_ended (late : List Event) {reason : String} (mem : call ∈ abortableIn early)
    (asked : call.reason? = some reason) :
    (∃ call' ∈ abortableIn (late ++ early), call'.context = call.context ∧
      call'.reason? = some reason) ∨
    ∃ later result before, late = later ++ .ended call.context result :: before ∧
      ∃ call' ∈ abortableIn (before ++ early), call'.context = call.context ∧
        call'.reason? = some reason := by
  induction late with
  | nil => exact .inl ⟨call, mem, rfl, asked⟩
  | cons event late ih =>
      rcases ih with ⟨call', mem', same, asked'⟩ | ⟨later, result, before, rfl, still⟩
      · cases event with
        | obtained => exact .inl ⟨call', List.mem_cons_of_mem _ mem', same, asked'⟩
        | abort contract message signalled live =>
            refine .inl ⟨_, List.mem_map_of_mem mem', ?_, Abortable.reason?_hear asked'⟩
            rw [Abortable.hear_context, same]
        | ended id result =>
            by_cases own : id = call.context
            · exact .inr ⟨[], result, late, by rw [own]; rfl, call', mem', same, asked'⟩
            · refine .inl ⟨call', List.mem_filter.2 ⟨mem', ?_⟩, same, asked'⟩
              exact bne_iff_ne.2 fun other => own (other.symm.trans same)
        | _ => exact .inl ⟨call', mem', same, asked'⟩
      · exact .inr ⟨event :: later, result, before, rfl, still⟩

end ContractHost
