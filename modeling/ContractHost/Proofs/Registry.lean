/-
# A registry of contexts over time

Contexts are created, found by their numbers and destroyed in any order, by several parties, and
whoever got hold of one may keep it for as long as they like. This module writes such a use down
step by step, and tells from the steps alone what has become of each context: it is made once,
with the number that follows that of the one before; every act on it counts, by whatever way it
came, except that a number leads nowhere once its context is destroyed; and nothing that happens
to another context matters.
-/

import ContractHost.Proofs.Context
import Mathlib.Data.Set.Card

namespace ContractHost

/-- What is done with a context by one who has reached it. -/
inductive ContextAct
  | look
  | callArgs
  | setOutput (response : Response)
  | takeOutput
  | addNestedUsage (used : Resources)
deriving DecidableEq

/-- What is learnt by it. -/
inductive ContextAnswer
  | context (ctx : Context)
  | callArgs (args : CallArgs)
  | output (output : Option Response)
  | done

namespace ContextAct

/-- The context after the act. -/
def change : ContextAct → Context → Context
  | look | callArgs => id
  | setOutput response => Context.setOutput response
  | takeOutput => Context.dropOutput
  | addNestedUsage used => Context.addNestedUsage used

/-- What the act answers. -/
def answer : ContextAct → Context → ContextAnswer
  | look => .context
  | callArgs => fun ctx => .callArgs ctx.callArgs
  | takeOutput => fun ctx => .output ctx.output
  | setOutput _ | addNestedUsage _ => fun _ => .done

/-- A context keeps its number. -/
theorem change_id (act : ContextAct) (ctx : Context) : (act.change ctx).id = ctx.id := by
  cases act <;> rfl

end ContextAct

/-- How a context is reached: it is looked up by its number, or was kept from earlier. -/
inductive Route
  | number
  | handle
deriving DecidableEq

/-- What is asked of a registry, and of the contexts that came from it. -/
inductive RegistryStep
  | create (setup : CallSetup)
  | destroy (id : ContextId)
  | act (route : Route) (id : ContextId) (act : ContextAct)
deriving DecidableEq

namespace RegistryStep

/-- True of the creation of a context. -/
def isCreation : RegistryStep → Bool
  | create _ => true
  | destroy _ | act _ _ _ => false

/-- How many contexts are created. -/
def creations (steps : List RegistryStep) : Nat := steps.countP isCreation

/-- The number of the context that is created after some steps. -/
def numberAfter (steps : List RegistryStep) : ContextId := ⟨creations steps + 1⟩

/-- The acts that a context undergoes in some steps, given whether its number leads to it before
them: those of whoever keeps it, and those by its number until it is destroyed. -/
def actsOn (id : ContextId) : Bool → List RegistryStep → List ContextAct
  | _, [] => []
  | live, create _ :: rest => actsOn id live rest
  | live, destroy other :: rest => actsOn id (live && other != id) rest
  | live, act route other done :: rest =>
    if other = id ∧ (route = .handle ∨ live) then done :: actsOn id live rest
    else actsOn id live rest

/-- What has become of a context, given what it was made with and all steps since then. -/
def contextSince (id : ContextId) (setup : CallSetup) (later : List RegistryStep) : Context :=
  (actsOn id true later).foldl (fun ctx done => done.change ctx) { id, setup }

/-- A context was created in some steps, and was not destroyed since. -/
def LiveIn (steps : List RegistryStep) (id : ContextId) : Prop :=
  ∃ before setup later, steps = before ++ create setup :: later ∧ id = numberAfter before ∧
    destroy id ∉ later

variable {id : ContextId} {setup : CallSetup} {steps before later : List RegistryStep}

theorem actsOn_append (id : ContextId) (live : Bool) (steps later : List RegistryStep) :
    actsOn id live (steps ++ later) =
      actsOn id live steps ++ actsOn id (live && decide (destroy id ∉ steps)) later := by
  induction steps generalizing live with
  | nil => simp [actsOn]
  | cons step rest ih =>
      rw [List.cons_append]
      cases step with
      | create setup => simp [actsOn, ih]
      | destroy other =>
          rw [actsOn, actsOn, ih]
          by_cases same : other = id
          · simp [same]
          · have apart : (other != id) = true := bne_iff_ne.2 same
            simp [apart, Ne.symm same]
      | act route other done =>
          rw [actsOn, actsOn, ih]
          split <;> simp

/-- One more act counts if it comes by a handle, or the number still leads to the context. -/
theorem contextSince_act (id other : ContextId) (setup : CallSetup) (later : List RegistryStep)
    (route : Route) (done : ContextAct) :
    contextSince id setup (later ++ [.act route other done]) =
      if other = id ∧ (route = .handle ∨ destroy id ∉ later) then
        done.change (contextSince id setup later)
      else contextSince id setup later := by
  unfold contextSince
  rw [actsOn_append, actsOn, actsOn]
  by_cases reached : other = id ∧ (route = .handle ∨ destroy id ∉ later)
  · simp [reached]
  · simp [reached]

/-- Creating and destroying contexts change none. -/
theorem contextSince_create (id : ContextId) (setup other : CallSetup)
    (later : List RegistryStep) :
    contextSince id setup (later ++ [.create other]) = contextSince id setup later := by
  simp [contextSince, actsOn_append, actsOn]

theorem contextSince_destroy (id other : ContextId) (setup : CallSetup)
    (later : List RegistryStep) :
    contextSince id setup (later ++ [.destroy other]) = contextSince id setup later := by
  simp [contextSince, actsOn_append, actsOn]

/-- A creation among some steps and one more is that step, or stands before it. -/
theorem split_concat {step : RegistryStep} :
    steps ++ [step] = before ++ create setup :: later ↔
      (later = [] ∧ before = steps ∧ step = create setup) ∨
        ∃ sooner, later = sooner ++ [step] ∧ steps = before ++ create setup :: sooner := by
  constructor
  · intro split
    rcases List.eq_nil_or_concat' later with rfl | ⟨sooner, last, rfl⟩
    · obtain ⟨same, last⟩ := List.append_inj' split rfl
      exact .inl ⟨rfl, same.symm, List.head_eq_of_cons_eq last⟩
    · rw [← List.cons_append, ← List.append_assoc] at split
      obtain ⟨same, last⟩ := List.append_inj' split rfl
      exact .inr ⟨sooner, by rw [List.head_eq_of_cons_eq last], same⟩
  · rintro (⟨rfl, rfl, rfl⟩ | ⟨sooner, rfl, rfl⟩)
    · rfl
    · rw [List.append_assoc, List.cons_append]

end RegistryStep

namespace Contexts

open RegistryStep (creations numberAfter actsOn contextSince LiveIn)

/-- The context that a route leads to. -/
def reach? (cs : Contexts) : Route → ContextId → Option Context
  | .number => cs.find?
  | .handle => cs.held?

/-- Takes a step: what it answers, and the registry after it. -/
def step (cs : Contexts) : RegistryStep → Option ContextAnswer × Contexts
  | .create setup => (some (.context { id := cs.next, setup }), cs.create setup)
  | .destroy id => (none, cs.destroy id)
  | .act route id act =>
    match cs.reach? route id with
    | some ctx => (some (act.answer ctx), cs.update id act.change)
    | none => (none, cs)

theorem step_act_fst (cs : Contexts) (route : Route) (id : ContextId) (done : ContextAct) :
    (cs.step (.act route id done)).1 = (cs.reach? route id).map done.answer := by
  rw [step]
  cases cs.reach? route id <;> rfl

/-- The registry after some steps. -/
def after (steps : List RegistryStep) : Contexts :=
  steps.foldl (fun cs step => (cs.step step).2) {}

/-- A registry holds what has become of the contexts that were created in some steps, and leads to
those that were not destroyed. -/
structure Follows (cs : Contexts) (steps : List RegistryStep) : Prop where
  size : cs.created.size = creations steps
  nodup : cs.live.Nodup
  held : ∀ id ∈ cs.live, ∃ ctx, cs.held? id = some ctx
  known : ∀ id ctx, cs.held? id = some ctx →
    ∃ before setup later, steps = before ++ .create setup :: later ∧ id = numberAfter before
  made : ∀ before setup later, steps = before ++ .create setup :: later →
    cs.held? (numberAfter before) = some (contextSince (numberAfter before) setup later) ∧
      (numberAfter before ∈ cs.live ↔ .destroy (numberAfter before) ∉ later)

namespace Follows

variable {cs : Contexts} {steps : List RegistryStep} (follows : cs.Follows steps)

theorem empty : ({} : Contexts).Follows [] where
  size := rfl
  nodup := .nil
  held _ mem := by cases mem
  known id ctx held := by cases held
  made before setup later split := by simp at split

include follows

theorem next_eq : cs.next = numberAfter steps := by
  rw [next, numberAfter, follows.size]

/-- A context that is known was created, also after one more step. -/
theorem known_concat {id : ContextId} {ctx : Context} (held : cs.held? id = some ctx)
    (step : RegistryStep) : ∃ before setup later,
      steps ++ [step] = before ++ .create setup :: later ∧ id = numberAfter before := by
  obtain ⟨before, setup, later, rfl, same⟩ := follows.known id ctx held
  exact ⟨before, setup, later ++ [step], by rw [List.append_assoc, List.cons_append], same⟩

theorem create (setup : CallSetup) :
    (cs.create setup).Follows (steps ++ [.create setup]) where
  size := by
    show (cs.created.push _).size = _
    rw [Array.size_push, follows.size]
    simp [creations, RegistryStep.isCreation]
  nodup := by
    refine List.nodup_cons.2 ⟨fun mem => ?_, follows.nodup⟩
    obtain ⟨ctx, held⟩ := follows.held _ mem
    exact ne_next_of_held? held rfl
  held id mem := by
    rcases List.mem_cons.1 mem with rfl | mem
    · exact ⟨_, held?_create_next cs setup⟩
    · obtain ⟨ctx, held⟩ := follows.held id mem
      exact ⟨ctx, held?_create held setup⟩
  known id ctx held := by
    by_cases latest : id = cs.next
    · exact ⟨steps, setup, [], rfl, latest.trans follows.next_eq⟩
    · rw [held?_create_of_ne cs setup latest] at held
      exact follows.known_concat held _
  made before made later split := by
    rcases RegistryStep.split_concat.1 split with ⟨rfl, rfl, same⟩ | ⟨sooner, rfl, earlier⟩
    · cases same
      rw [← follows.next_eq, held?_create_next]
      exact ⟨rfl, by simp [Contexts.create]⟩
    · obtain ⟨held, live⟩ := follows.made before made sooner earlier
      have older := ne_next_of_held? held
      rw [RegistryStep.contextSince_create, held?_create held]
      exact ⟨rfl, by simp [Contexts.create, older, live]⟩

/-- What is to be seen of a step that creates no context: what it makes of those that there are,
and which one it destroys. -/
theorem concat {cs' : Contexts} {step : RegistryStep} (other : step.isCreation = false)
    (size : cs'.created.size = cs.created.size)
    (live : cs'.live = cs.live.filter fun id => step != .destroy id)
    (known : ∀ id ctx, cs'.held? id = some ctx → ∃ earlier, cs.held? id = some earlier)
    (made : ∀ before setup sooner, steps = before ++ .create setup :: sooner →
      cs'.held? (numberAfter before) =
        some (contextSince (numberAfter before) setup (sooner ++ [step]))) :
    cs'.Follows (steps ++ [step]) where
  size := by simp [size, follows.size, creations, other]
  nodup := live ▸ follows.nodup.filter _
  held id mem := by
    rw [live] at mem
    obtain ⟨ctx, held⟩ := follows.held id (List.mem_filter.1 mem).1
    obtain ⟨before, setup, sooner, split, rfl⟩ := follows.known id ctx held
    exact ⟨_, made before setup sooner split⟩
  known id ctx held := by
    obtain ⟨earlier, held⟩ := known id ctx held
    exact follows.known_concat held step
  made before setup later split := by
    rcases RegistryStep.split_concat.1 split with ⟨_, _, rfl⟩ | ⟨sooner, rfl, earlier⟩
    · cases other
    · refine ⟨made before setup sooner earlier, ?_⟩
      rw [live, List.mem_filter, (follows.made before setup sooner earlier).2, bne_iff_ne,
        ne_comm, List.mem_append, List.mem_singleton, not_or]

theorem destroy (id : ContextId) : (cs.destroy id).Follows (steps ++ [.destroy id]) := by
  refine follows.concat rfl rfl ?_ (fun other ctx held => ⟨ctx, held⟩)
    fun before made sooner split => ?_
  · apply List.filter_congr
    intro other _
    rw [Bool.eq_iff_iff, bne_iff_ne, bne_iff_ne, Ne, Ne, RegistryStep.destroy.injEq, eq_comm]
  · rw [RegistryStep.contextSince_destroy]
    exact (follows.made before made sooner split).1

/-- Where a route leads to after a creation. -/
theorem reach?_made {before later : List RegistryStep} {setup : CallSetup}
    (split : steps = before ++ .create setup :: later) (route : Route) :
    cs.reach? route (numberAfter before) =
      if route = .handle ∨ .destroy (numberAfter before) ∉ later then
        some (contextSince (numberAfter before) setup later)
      else none := by
  obtain ⟨held, live⟩ := follows.made before setup later split
  cases route with
  | handle => exact held
  | number =>
      show cs.find? _ = _
      simp only [find?, held, List.contains_iff_mem, live, reduceCtorEq, false_or]

theorem find?_made {before later : List RegistryStep} {setup : CallSetup}
    (split : steps = before ++ .create setup :: later) :
    cs.find? (numberAfter before) =
      if .destroy (numberAfter before) ∈ later then none
      else some (contextSince (numberAfter before) setup later) := by
  have reached := follows.reach?_made split .number
  simp only [reduceCtorEq, false_or] at reached
  rw [← ite_not]
  exact reached

/-- What an act is answered with after a creation. -/
theorem answer_made {before later : List RegistryStep} {setup : CallSetup}
    (split : steps = before ++ .create setup :: later) (route : Route) (done : ContextAct) :
    (cs.step (.act route (numberAfter before) done)).1 =
      if route = .handle ∨ .destroy (numberAfter before) ∉ later then
        some (done.answer (contextSince (numberAfter before) setup later))
      else none := by
  rw [step_act_fst, follows.reach?_made split]
  split <;> rfl

/-- An act that leads somewhere changes what is found there. -/
theorem update {route : Route} {id : ContextId} {ctx : Context}
    (reached : cs.reach? route id = some ctx) (done : ContextAct) :
    (cs.update id done.change).Follows (steps ++ [.act route id done]) := by
  refine follows.concat rfl (Array.size_modify ..) ?_ (fun other ctx held => ?_)
    fun before made sooner split => ?_
  · exact (List.filter_eq_self.2 fun other _ => rfl).symm
  · rw [held?_update cs id other done.change_id] at held
    split at held
    · obtain ⟨earlier, held, _⟩ := Option.map_eq_some_iff.1 held
      exact ⟨earlier, held⟩
    · exact ⟨ctx, held⟩
  · obtain ⟨held, _⟩ := follows.made before made sooner split
    rw [RegistryStep.contextSince_act]
    by_cases same : id = numberAfter before
    · subst same
      have counts : route = .handle ∨ .destroy (numberAfter before) ∉ sooner := by
        by_contra lost
        rw [follows.reach?_made split, if_neg lost] at reached
        cases reached
      rw [if_pos ⟨rfl, counts⟩, held?_update_self held done.change_id]
    · rw [if_neg fun both => same both.1, held?_update_of_ne cs (Ne.symm same) done.change_id, held]

/-- An act that leads nowhere changes nothing. -/
theorem miss {route : Route} {id : ContextId} (missed : cs.reach? route id = none)
    (done : ContextAct) : cs.Follows (steps ++ [.act route id done]) := by
  refine follows.concat rfl rfl ?_ (fun other ctx held => ⟨ctx, held⟩)
    fun before made sooner split => ?_
  · exact (List.filter_eq_self.2 fun other _ => rfl).symm
  · rw [RegistryStep.contextSince_act, (follows.made before made sooner split).1, if_neg]
    rintro ⟨rfl, counts⟩
    rw [follows.reach?_made split, if_pos counts] at missed
    cases missed

theorem step (step : RegistryStep) : (cs.step step).2.Follows (steps ++ [step]) := by
  cases step with
  | create setup => exact follows.create setup
  | destroy id => exact follows.destroy id
  | act route id done =>
      rw [Contexts.step]
      cases reached : cs.reach? route id with
      | some ctx => exact follows.update reached done
      | none => exact follows.miss reached done

/-- The numbers that lead to a context are those of contexts that were created and not destroyed
since. -/
theorem mem_live {id : ContextId} : id ∈ cs.live ↔ LiveIn steps id := by
  constructor
  · intro live
    obtain ⟨ctx, held⟩ := follows.held id live
    obtain ⟨before, setup, later, split, rfl⟩ := follows.known id ctx held
    exact ⟨before, setup, later, split, rfl, (follows.made before setup later split).2.1 live⟩
  · rintro ⟨before, setup, later, split, rfl, kept⟩
    exact (follows.made before setup later split).2.2 kept

theorem find?_isSome_iff {id : ContextId} :
    (∃ ctx, cs.find? id = some ctx) ↔ LiveIn steps id := by
  rw [← follows.mem_live]
  constructor
  · rintro ⟨ctx, found⟩
    exact mem_live_of_find? found
  · intro live
    obtain ⟨ctx, held⟩ := follows.held id live
    exact ⟨ctx, find?_of_held? held live⟩

theorem size_eq : cs.size = {id | LiveIn steps id}.ncard := by
  have live : {id | LiveIn steps id} = cs.live.toFinset := by
    ext id
    rw [Finset.mem_coe, List.mem_toFinset]
    exact follows.mem_live.symm
  rw [live, Set.ncard_coe_finset, List.toFinset_card_of_nodup follows.nodup]
  rfl

end Follows

theorem after_append (steps later : List RegistryStep) :
    after (steps ++ later) = later.foldl (fun cs step => (cs.step step).2) (after steps) := by
  unfold after
  rw [List.foldl_append]

theorem follows_after (steps : List RegistryStep) : (after steps).Follows steps := by
  induction steps using List.reverseRecOn with
  | nil => exact .empty
  | append_singleton steps step ih =>
      rw [after_append]
      exact ih.step step

/-- A step leaves all contexts alone but the one that it acts on. -/
theorem held?_step {cs : Contexts} {id : ContextId} {ctx : Context} {step : RegistryStep}
    (held : cs.held? id = some ctx) (apart : ∀ route done, step ≠ .act route id done) :
    (cs.step step).2.held? id = some ctx := by
  cases step with
  | create setup => exact held?_create held setup
  | destroy other => exact held
  | act route other done =>
      have different : id ≠ other := fun same => apart route done (same ▸ rfl)
      rw [step]
      cases cs.reach? route other with
      | some found => exact (held?_update_of_ne cs different done.change_id).trans held
      | none => exact held

/-- A registry follows its history. After any steps, by whichever ways contexts were reached:

The next context gets the number after that of the latest one, which no context had before. Each
context that was created is held as what the acts on it have made of it, for all who keep it; its
number leads to the same context, or nowhere if it was destroyed since; and every act is answered
from it. So the numbers that lead somewhere are those of the contexts created and not destroyed,
and the size of the registry is how many these are. No step changes a context that it does not act
on, and once a number leads nowhere it does so for good, whatever is done by handles. -/
theorem registry_follows_history (steps : List RegistryStep) :
    let cs := after steps
    (∀ setup, (cs.step (.create setup)).1 =
      some (.context { id := ⟨creations steps + 1⟩, setup })) ∧
    (∀ id ctx, cs.held? id = some ctx → id.number < creations steps + 1) ∧
    (∀ before setup later, steps = before ++ .create setup :: later →
      let id : ContextId := ⟨creations before + 1⟩
      let ctx := contextSince id setup later
      cs.held? id = some ctx ∧
      (cs.find? id = if .destroy id ∈ later then none else some ctx) ∧
      ∀ route done, (cs.step (.act route id done)).1 =
        if route = .handle ∨ .destroy id ∉ later then some (done.answer ctx) else none) ∧
    (∀ id, (∃ ctx, cs.find? id = some ctx) ↔ LiveIn steps id) ∧
    cs.size = {id | LiveIn steps id}.ncard ∧
    (∀ step id ctx, cs.held? id = some ctx → (∀ route done, step ≠ .act route id done) →
      (cs.step step).2.held? id = some ctx) ∧
    ∀ id ctx, cs.held? id = some ctx → cs.find? id = none →
      ∀ later, (after (steps ++ later)).find? id = none := by
  intro cs
  have follows : cs.Follows steps := follows_after steps
  refine ⟨fun setup => ?_, fun id ctx held => ?_, fun before setup later split => ⟨?_, ?_, ?_⟩,
    fun id => follows.find?_isSome_iff, follows.size_eq, fun step id ctx held apart =>
      held?_step held apart, fun id ctx held lost later => ?_⟩
  · show some (ContextAnswer.context { id := cs.next, setup }) = _
    rw [follows.next_eq]
    rfl
  · have below := number_lt_next held
    rwa [follows.next_eq] at below
  · exact (follows.made before setup later split).1
  · exact follows.find?_made split
  · exact follows.answer_made split
  · obtain ⟨before, setup, since, split, rfl⟩ := follows.known id ctx held
    have destroyed : .destroy (numberAfter before) ∈ since := by
      by_contra kept
      have live := (follows.made before setup since split).2.2 kept
      rw [find?_of_held? held live] at lost
      cases lost
    -- the steps that follow do not undo this
    have split : steps ++ later = before ++ .create setup :: (since ++ later) := by
      rw [split, List.append_assoc, List.cons_append]
    rw [(follows_after (steps ++ later)).find?_made split,
      if_pos (List.mem_append_left _ destroyed)]

end Contexts

end ContractHost
