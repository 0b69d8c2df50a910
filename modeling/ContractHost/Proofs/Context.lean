/-
# What a registry of contexts remembers

Contexts are created in order of their numbers, and a number leads to the same call for
good: creating a context takes a new number, an update changes what is known of one call,
and destroying a context only takes it out of reach.
-/

import ContractHost.Context

namespace ContractHost

namespace Contexts

variable {cs : Contexts} {id other : ContextId} {setup : CallSetup} {ctx : Context}

theorem place_next (cs : Contexts) : place cs.next = cs.created.size := by
  show ((cs.created.size + 1 : Int) - 1).toNat = cs.created.size
  omega

theorem held?_eq_some :
    cs.held? id = some ctx ↔ cs.created[place id]? = some ctx ∧ ctx.id = id := by
  rw [held?, Option.filter_eq_some_iff, beq_iff_eq]

/-- A known context has a number that was given out. -/
theorem number_le_of_held? (held : cs.held? id = some ctx) : id.number ≤ cs.created.size := by
  obtain ⟨found, _⟩ := held?_eq_some.1 held
  obtain ⟨within, _⟩ := Array.getElem?_eq_some_iff.1 found
  unfold place at within
  omega

theorem number_lt_next (held : cs.held? id = some ctx) : id.number < cs.next.number := by
  have below := number_le_of_held? held
  show id.number < ((cs.created.size + 1 : Nat) : Int)
  omega

/-- The number that comes next leads nowhere yet. -/
theorem ne_next_of_held? (held : cs.held? id = some ctx) : id ≠ cs.next := by
  rintro rfl
  exact Int.lt_irrefl _ (number_lt_next held)

/-- A new context is known by its number, and nothing has happened in its call. -/
@[simp]
theorem held?_create_next (cs : Contexts) (setup : CallSetup) :
    (cs.create setup).held? cs.next = some { id := cs.next, setup } := by
  rw [held?_eq_some, place_next]
  exact ⟨Array.getElem?_push_size, rfl⟩

theorem held?_create_of_ne (cs : Contexts) (setup : CallSetup) (apart : id ≠ cs.next) :
    (cs.create setup).held? id = cs.held? id := by
  unfold held? create
  rw [Array.getElem?_push]
  split
  · next same =>
    have missing : cs.created[place id]? = none := by rw [same]; simp
    rw [missing]
    simp [apart.symm]
  · rfl

/-- What is known is not forgotten. -/
theorem held?_create (held : cs.held? id = some ctx) (setup : CallSetup) :
    (cs.create setup).held? id = some ctx := by
  rw [held?_create_of_ne cs setup (ne_next_of_held? held), held]

/-- An update changes what is known of one call. -/
theorem held?_update (cs : Contexts) (id other : ContextId) {change : Context → Context}
    (keeps : ∀ ctx, (change ctx).id = ctx.id) :
    (cs.update id change).held? other =
      if other = id then (cs.held? other).map change else cs.held? other := by
  unfold held? update
  rw [Array.getElem?_modify]
  cases cs.created[place other]? with
  | none => simp
  | some ctx =>
      by_cases known : ctx.id = other
      · subst known
        by_cases same : ctx.id = id
        · simp [same, keeps, Option.filter_some]
        · simp [same, Option.filter_some]
      · -- what stands in this place has another number, changed or not
        have unknown : (some ctx).filter (fun ctx => ctx.id == other) = none := by
          simp [Option.filter_some, known]
        have still : (some (if ctx.id = id then change ctx else ctx)).filter
            (fun ctx => ctx.id == other) = none := by
          split <;> simp [Option.filter_some, keeps, known]
        rw [unknown]
        split
        · simpa using still
        · simpa using unknown

theorem held?_update_self (held : cs.held? id = some ctx) {change : Context → Context}
    (keeps : ∀ ctx, (change ctx).id = ctx.id) :
    (cs.update id change).held? id = some (change ctx) := by
  rw [held?_update cs id id keeps, if_pos rfl, held]
  rfl

theorem held?_update_of_ne (cs : Contexts) (apart : other ≠ id) {change : Context → Context}
    (keeps : ∀ ctx, (change ctx).id = ctx.id) :
    (cs.update id change).held? other = cs.held? other := by
  rw [held?_update cs id other keeps, if_neg apart]

theorem held?_of_find? (found : cs.find? id = some ctx) : cs.held? id = some ctx := by
  unfold find? at found
  split at found
  · exact found
  · cases found

theorem mem_live_of_find? (found : cs.find? id = some ctx) : id ∈ cs.live := by
  unfold find? at found
  split at found
  · next mem => exact List.contains_iff_mem.1 mem
  · cases found

theorem find?_of_held? (held : cs.held? id = some ctx) (mem : id ∈ cs.live) :
    cs.find? id = some ctx := by
  rw [find?, if_pos (List.contains_iff_mem.2 mem), held]

/-- What a number leads to depends on what is known of it and on whether it is live. -/
theorem find?_congr {cs' : Contexts} (live : cs'.live = cs.live)
    (held : cs'.held? id = cs.held? id) : cs'.find? id = cs.find? id := by
  unfold find?
  rw [live, held]

theorem find?_create (found : cs.find? id = some ctx) (setup : CallSetup) :
    (cs.create setup).find? id = some ctx :=
  find?_of_held? (held?_create (held?_of_find? found) setup)
    (List.mem_cons_of_mem _ (mem_live_of_find? found))

theorem find?_create_next (cs : Contexts) (setup : CallSetup) :
    (cs.create setup).find? cs.next = some { id := cs.next, setup } :=
  find?_of_held? (held?_create_next cs setup) List.mem_cons_self

/-- Destroying a context leaves the others within reach. -/
theorem find?_destroy_of_ne (cs : Contexts) (apart : other ≠ id) :
    (cs.destroy id).find? other = cs.find? other := by
  have live : (cs.destroy id).live.contains other = cs.live.contains other := by
    show (cs.live.filter fun id' => id' != id).contains other = _
    rw [Bool.eq_iff_iff, List.contains_iff_mem, List.contains_iff_mem, List.mem_filter]
    simp [apart]
  unfold find?
  rw [live]
  rfl

/-! ## What calls were made with -/

/-- What the call of a number was made with. -/
def setup? (cs : Contexts) (id : ContextId) : Option CallSetup := (cs.held? id).map (·.setup)

theorem number_le_of_setup? {setup : CallSetup} (known : cs.setup? id = some setup) :
    id.number ≤ cs.created.size := by
  obtain ⟨ctx, held, _⟩ := Option.map_eq_some_iff.1 known
  exact number_le_of_held? held

@[simp]
theorem setup?_create_next (cs : Contexts) (setup : CallSetup) :
    (cs.create setup).setup? cs.next = some setup := by
  rw [setup?, held?_create_next]
  rfl

theorem setup?_update (cs : Contexts) (id other : ContextId) {change : Context → Context}
    (keeps : ∀ ctx, (change ctx).id = ctx.id) (made : ∀ ctx, (change ctx).setup = ctx.setup) :
    (cs.update id change).setup? other = cs.setup? other := by
  unfold setup?
  rw [held?_update cs id other keeps]
  split
  · rw [Option.map_map]
    exact congrArg (Option.map · _) (funext made)
  · rfl

theorem ne_next_of_setup? {made : CallSetup} (known : cs.setup? id = some made) :
    id ≠ cs.next := by
  obtain ⟨ctx, held, _⟩ := Option.map_eq_some_iff.1 known
  exact ne_next_of_held? held

/-- A later registry knows all calls of an earlier one. Outputs apart, nothing has happened to
them. -/
def Keeps (later cs : Contexts) : Prop :=
  ∀ id ctx, cs.held? id = some ctx → ∃ output, later.held? id = some { ctx with output }

namespace Keeps

variable {cs' cs'' : Contexts}

theorem refl (cs : Contexts) : cs.Keeps cs := fun _ ctx held => ⟨ctx.output, held⟩

theorem trans (second : cs''.Keeps cs') (first : cs'.Keeps cs) : cs''.Keeps cs := by
  intro id ctx held
  obtain ⟨_, held⟩ := first id ctx held
  obtain ⟨output, held⟩ := second id _ held
  exact ⟨output, held⟩

theorem create (cs : Contexts) (setup : CallSetup) : (cs.create setup).Keeps cs :=
  fun _ ctx held => ⟨ctx.output, held?_create held setup⟩

/-- A change of what is known of a call that spares all but its output. -/
theorem update (cs : Contexts) (id : ContextId) {change : Context → Context}
    (spares : ∀ ctx, ∃ output, change ctx = { ctx with output }) :
    (cs.update id change).Keeps cs := by
  have keeps (ctx : Context) : (change ctx).id = ctx.id := by
    obtain ⟨output, same⟩ := spares ctx
    rw [same]
  intro other ctx held
  by_cases same : other = id
  · subst same
    obtain ⟨output, changed⟩ := spares ctx
    exact ⟨output, changed ▸ held?_update_self held keeps⟩
  · exact ⟨ctx.output, (held?_update_of_ne cs same keeps).trans held⟩

/-- What calls were made with is kept. -/
theorem setup? (kept : cs'.Keeps cs) {made : CallSetup} (known : cs.setup? id = some made) :
    cs'.setup? id = some made := by
  obtain ⟨ctx, held, rfl⟩ := Option.map_eq_some_iff.1 known
  obtain ⟨output, held⟩ := kept id ctx held
  rw [Contexts.setup?, held]
  rfl

end Keeps

theorem filter_latest {rest : List ContextId} (fresh : id ∉ rest) :
    (id :: rest).filter (· != id) = rest := by
  rw [List.filter_cons_of_neg (by simp)]
  exact List.filter_eq_self.2 fun other mem => bne_iff_ne.2 fun same => fresh (same ▸ mem)

/-- Destroying the latest context uncovers those that were live before it. -/
theorem live_destroy {rest : List ContextId} (live : cs.live = id :: rest) (fresh : id ∉ rest) :
    (cs.destroy id).live = rest := by
  show cs.live.filter (fun other => other != id) = rest
  rw [live, filter_latest fresh]

end Contexts

end ContractHost
