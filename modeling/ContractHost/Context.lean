/-
# Execution contexts

A context is what the host knows about one call: what was called, by whom, at which
depth, the output set so far, and what the calls inside it have used. Contexts are
numbered in order of creation, and a number is never used again. The registry remembers
every context it created; destroying one only makes it unreachable by number, while
whoever holds it still sees and changes the same context.
-/

import ContractHost.Message

namespace ContractHost

/-- What a context is created with. -/
structure CallSetup where
  contract : String
  method : String
  args : Arguments
  language : String
  caller : String
  depth : Nat
deriving DecidableEq

/-- One call as its host knows it. -/
structure Context where
  id : ContextId
  setup : CallSetup
  output : Option Response := none
  nestedUsage : Resources := {}
deriving DecidableEq

namespace Context

/-- What the program may learn about its call. -/
def callArgs (ctx : Context) : CallArgs :=
  .ofArguments ctx.setup.method ctx.setup.args ctx.setup.caller

/-- Sets the output in place of any earlier one. -/
def setOutput (response : Response) (ctx : Context) : Context :=
  { ctx with output := some response }

/-- The context after its output was taken out. -/
def dropOutput (ctx : Context) : Context := { ctx with output := none }

/-- Charges what a call inside this one has used. -/
def addNestedUsage (used : Resources) (ctx : Context) : Context :=
  { ctx with nestedUsage := ctx.nestedUsage.add used }

end Context

/-- All contexts created so far, in order of their numbers, and the numbers by which one
can be reached, latest first. The number of a context is its place, counted from one. -/
structure Contexts where
  created : Array Context := #[]
  live : List ContextId := []
deriving DecidableEq, Inhabited

namespace Contexts

/-- The number of the next context. The first is one. -/
def next (cs : Contexts) : ContextId := ⟨cs.created.size + 1⟩

/-- Creates a context. -/
def create (cs : Contexts) (setup : CallSetup) : Contexts where
  created := cs.created.push { id := cs.next, setup }
  live := cs.next :: cs.live

/-- The place of a context among all that were created. -/
def place (id : ContextId) : Nat := (id.number - 1).toNat

/-- The context of a number, destroyed or not. -/
def held? (cs : Contexts) (id : ContextId) : Option Context :=
  cs.created[place id]?.filter fun ctx => ctx.id == id

/-- The context that a number leads to. -/
def find? (cs : Contexts) (id : ContextId) : Option Context :=
  if cs.live.contains id then cs.held? id else none

/-- Makes a context unreachable by its number. -/
def destroy (cs : Contexts) (id : ContextId) : Contexts :=
  { cs with live := cs.live.filter fun other => other != id }

/-- How many contexts can be reached. -/
def size (cs : Contexts) : Nat := cs.live.length

/-- Changes the context of a number, destroyed or not. -/
def update (cs : Contexts) (id : ContextId) (change : Context → Context) : Contexts :=
  { cs with
    created := cs.created.modify (place id) fun ctx => if ctx.id = id then change ctx else ctx }

end Contexts

end ContractHost
