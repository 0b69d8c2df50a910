/-
# The life of compiled code

Whoever uses a code cache asks it for modules, keeps the handles that it hands out as
long as wanted, and drops them in any order; code can be removed at any time, so several
generations of modules of one contract may be alive at once. This module writes down
such a use, request by request, and follows every module from the run of the factory
that made it to its release.

A module is released when nobody holds it. The cache decides that by the serial numbers
of its leases, and the decision is right because leases and handles always match, and no
serial number is given out twice.
-/

import ContractHost.Proofs.CodeCache.Ledger
import Mathlib.Data.Finset.Card

namespace ContractHost

/-- What is asked of a code cache. A handle is named by its place among those that are
kept, latest first. -/
inductive CacheRequest
  | compileFresh (name : String)
  | acquire (name : String)
  | remove (name : String)
  | drop (place : Nat)

/-- A run of the factory: the name it was given, and its answer. -/
structure FactoryRun (M : Type) where
  name : String
  answer : Except HostError (Bytes × M)

/-- What a request came to: the runs of the factory, the answer where there is one, and
the module that was released. -/
structure CacheStep (M : Type) where
  request : CacheRequest
  runs : List (FactoryRun M) := []
  answer : Option (Except HostError (CompiledCode M)) := none
  released : Option (CompiledCode M) := none

/-- A code cache in use: the world that the factory works in, the cache, the handles that
are kept, and what happened so far, the latter two latest first. -/
structure CacheUse (σ M : Type) where
  world : σ
  cache : CodeCache M := {}
  handles : List (CompiledCode M) := []
  history : List (CacheStep M) := []

/-- A factory that writes down its runs. -/
def CodeFactory.logged {σ M : Type} (factory : CodeFactory (StateM σ) M) :
    CodeFactory (StateM (σ × List (FactoryRun M))) M := fun name (world, runs) =>
  let (answer, world) := factory name world
  (answer, world, runs ++ [{ name, answer }])

namespace CacheStep

variable {M : Type}

/-- The module that a request had the factory make. -/
def made (step : CacheStep M) : Option (CompiledCode M) :=
  if step.runs.any (·.answer.isOk) then step.answer.bind (·.toOption) else none

/-- A module was made by the one run of the factory, for its own name, and handed out. -/
def Origin (step : CacheStep M) (code : CompiledCode M) : Prop :=
  ∃ bytecode, step.runs = [{ name := code.name, answer := .ok (bytecode, code.module) }] ∧
    code.digest = Digest.hexSha256 bytecode ∧ step.answer = some (.ok code)

/-- What happened since code of a contract was last made, with the making of it. -/
def sinceMade (name : String) : List (CacheStep M) → List (CacheStep M)
  | [] => []
  | step :: earlier =>
    if step.made.any fun code => code.name == name then [step]
    else step :: sinceMade name earlier

/-- Code is what was made last for its contract, and what every request to acquire the
contract's code was answered with since. -/
def Current (code : CompiledCode M) (history : List (CacheStep M)) : Prop :=
  (∃ step ∈ sinceMade code.name history, step.made = some code) ∧
    ∀ step ∈ sinceMade code.name history,
      step.request = .acquire code.name → step.answer = some (.ok code)

variable {step : CacheStep M} {history : List (CacheStep M)} {code : CompiledCode M}

theorem mem_of_sinceMade {name : String} (mem : step ∈ sinceMade name history) :
    step ∈ history := by
  induction history with
  | nil => exact mem
  | cons latest earlier ih =>
      simp only [sinceMade] at mem
      split at mem
      · rw [List.mem_singleton.1 mem]
        exact List.mem_cons_self
      · rcases List.mem_cons.1 mem with rfl | mem
        · exact List.mem_cons_self
        · exact List.mem_cons_of_mem _ (ih mem)

theorem Current.of_made (made : step.made = some code)
    (served : step.request = .acquire code.name → step.answer = some (.ok code)) :
    Current code (step :: history) := by
  have alone : sinceMade code.name (step :: history) = [step] := by simp [sinceMade, made]
  unfold Current
  rw [alone]
  refine ⟨⟨step, List.mem_singleton_self _, made⟩, fun other mem => ?_⟩
  rw [List.mem_singleton.1 mem]
  exact served

theorem Current.cons (current : Current code history)
    (others : ∀ other, step.made = some other → other.name ≠ code.name)
    (served : step.request = .acquire code.name → step.answer = some (.ok code)) :
    Current code (step :: history) := by
  have passed : sinceMade code.name (step :: history) = step :: sinceMade code.name history := by
    rw [sinceMade, if_neg]
    rw [Option.any_eq_true_iff_get]
    rintro ⟨made, same⟩
    exact others _ (Option.some_get made).symm (beq_iff_eq.1 same)
  unfold Current
  rw [passed]
  obtain ⟨⟨making, mem, made⟩, answered⟩ := current
  refine ⟨⟨making, List.mem_cons_of_mem _ mem, made⟩, fun other mem => ?_⟩
  rcases List.mem_cons.1 mem with rfl | mem
  · exact served
  · exact answered other mem

end CacheStep

namespace CacheUse

variable {σ M : Type}

/-- Takes over what a request for a module came to. -/
def obtained (use : CacheUse σ M) (request : CacheRequest)
    (came : (Except HostError (CompiledCode M) × CodeCache M) × σ × List (FactoryRun M)) :
    CacheUse σ M where
  world := came.2.1
  cache := came.1.2
  handles := came.1.1.toOption.toList ++ use.handles
  history := { request, runs := came.2.2, answer := some came.1.1 } :: use.history

/-- Serves a request. -/
def serve (factory : CodeFactory (StateM σ) M) (use : CacheUse σ M) : CacheRequest → CacheUse σ M
  | .compileFresh name =>
    use.obtained (.compileFresh name)
      ((use.cache.compileFresh factory.logged name).run (use.world, []))
  | .acquire name =>
    use.obtained (.acquire name) ((use.cache.acquire factory.logged name).run (use.world, []))
  | .remove name =>
    let (released, cache) := use.cache.remove name
    { use with cache, history := { request := .remove name, released } :: use.history }
  | .drop place =>
    match use.handles[place]? with
    | none => { use with history := { request := .drop place } :: use.history }
    | some code =>
      let (released, cache) := use.cache.giveBack code
      { use with
        cache
        handles := use.handles.eraseIdx place
        history := { request := .drop place, released } :: use.history }

/-- Serves requests in turn. -/
def run (factory : CodeFactory (StateM σ) M) (use : CacheUse σ M) (requests : List CacheRequest) :
    CacheUse σ M :=
  requests.foldl (serve factory) use

/-- The modules made so far. -/
def made (use : CacheUse σ M) : List (CompiledCode M) := use.history.filterMap (·.made)

/-- The modules released so far. -/
def released (use : CacheUse σ M) : List (CompiledCode M) := use.history.filterMap (·.released)

/-- How many runs of the factory gave a module. -/
def compilations (use : CacheUse σ M) : Nat :=
  (use.history.flatMap (·.runs)).countP (·.answer.isOk)

/-- A module is cached, or somebody keeps a handle on it. -/
def Holds (use : CacheUse σ M) (code : CompiledCode M) : Prop :=
  code ∈ use.cache.entries ∨ code ∈ use.handles

/-- The serial numbers of all modules that are held. -/
def heldSerials (use : CacheUse σ M) : Finset Nat :=
  ((use.cache.entries ++ use.handles).map (·.serial)).toFinset

/-! ## What a request does -/

/-- A use in which the factory was run for a contract without cached code. -/
def compiled (factory : CodeFactory (StateM σ) M) (use : CacheUse σ M) (request : CacheRequest)
    (name : String) : CacheUse σ M :=
  match factory name use.world with
  | (.ok (bytecode, module), world) =>
    let (code, cache) := use.cache.insert name bytecode module
    { world, cache
      handles := code :: use.handles
      history := { request, runs := [{ name, answer := .ok (bytecode, module) }]
                   answer := some (.ok code) } :: use.history }
  | (.error e, world) =>
    { use with
      world
      history := { request, runs := [{ name, answer := .error e }]
                   answer := some (.error e) } :: use.history }

section Serve

variable (factory : CodeFactory (StateM σ) M) (use : CacheUse σ M) {name : String}

/-- What obtaining code by a run of the factory comes to. -/
theorem obtained_compileInto (request : CacheRequest) (name : String) :
    use.obtained request
        ((use.cache.compileInto factory.logged name : StateM _ _).run (use.world, [])) =
      use.compiled factory request name := by
  have ran : (factory.logged name).run (use.world, []) =
      (pure ((factory name use.world).1, (factory name use.world).2,
        [{ name, answer := (factory name use.world).1 }]) : Id _) := rfl
  unfold CodeCache.compileInto compiled
  rw [StateT.run_bind, ran, pure_bind]
  rcases factory name use.world with ⟨_ | ⟨_, _⟩, _⟩ <;> rfl

/-- Code that is cached is not compiled afresh. -/
theorem serve_compileFresh_cached (cached : use.cache.contains name = true) :
    use.serve factory (.compileFresh name) =
      { use with history := { request := .compileFresh name
                              answer := some (.error (.staleCode name)) } :: use.history } := by
  simp only [serve, CodeCache.compileFresh, cached, ↓reduceIte]
  rfl

/-- Code that is cached is handed out as it is. -/
theorem serve_acquire_cached {code : CompiledCode M} (cached : use.cache.find? name = some code) :
    use.serve factory (.acquire name) =
      { use with
        cache := use.cache.lease code
        handles := code :: use.handles
        history := { request := .acquire name, answer := some (.ok code) } :: use.history } := by
  simp only [serve, CodeCache.acquire, cached]
  rfl

theorem serve_compileFresh_missing (missing : use.cache.find? name = none) :
    use.serve factory (.compileFresh name) = use.compiled factory (.compileFresh name) name := by
  have uncached : use.cache.contains name = false := by simp [CodeCache.contains, missing]
  simp only [serve, CodeCache.compileFresh, uncached, Bool.false_eq_true, ↓reduceIte]
  exact obtained_compileInto ..

theorem serve_acquire_missing (missing : use.cache.find? name = none) :
    use.serve factory (.acquire name) = use.compiled factory (.acquire name) name := by
  simp only [serve, CodeCache.acquire, missing]
  exact obtained_compileInto ..

theorem serve_drop_missing {place : Nat} (missing : use.handles[place]? = none) :
    use.serve factory (.drop place) =
      { use with history := { request := .drop place } :: use.history } := by
  simp only [serve, missing]

theorem serve_drop {place : Nat} {code : CompiledCode M} (kept : use.handles[place]? = some code) :
    use.serve factory (.drop place) =
      { use with
        cache := (use.cache.giveBack code).2
        handles := use.handles.eraseIdx place
        history := { request := .drop place, released := (use.cache.giveBack code).1 } ::
          use.history } := by
  simp only [serve, kept]

/-- A request for code that is not cached runs the factory once and passes on what it says:
a new module, or a failure that leaves the cache as it was. -/
def Compiles (name : String) (next : CacheUse σ M) (step : CacheStep M) : Prop :=
  step.runs = [{ name, answer := (factory name use.world).1 }] ∧
    match (factory name use.world).1 with
    | .ok _ => ∃ code, step.made = some code ∧ step.Origin code
    | .error e =>
      step.answer = some (.error e) ∧ next.cache = use.cache ∧ next.handles = use.handles

theorem compiled_compiles (request : CacheRequest) (name : String) :
    ∃ step : CacheStep M, step.request = request ∧ step.released = none ∧
      (use.compiled factory request name).history = step :: use.history ∧
      Compiles factory use name (use.compiled factory request name) step := by
  unfold compiled Compiles
  rcases factory name use.world with ⟨e | ⟨bytecode, module⟩, world⟩
  · exact ⟨_, rfl, rfl, rfl, rfl, rfl, rfl, rfl⟩
  · exact ⟨_, rfl, rfl, rfl, rfl, _, rfl, bytecode, rfl, rfl, rfl⟩

/-- Every request adds one step to the history, which makes or releases nothing. -/
theorem serve_history (request : CacheRequest) :
    ∃ step : CacheStep M, (use.serve factory request).history = step :: use.history ∧
      (step.made = none ∨ step.released = none) := by
  cases request with
  | compileFresh name =>
      cases cached : use.cache.find? name with
      | some code =>
          rw [serve_compileFresh_cached factory use (by simp [CodeCache.contains, cached])]
          exact ⟨_, rfl, .inl rfl⟩
      | none =>
          rw [serve_compileFresh_missing factory use cached]
          obtain ⟨step, -, kept, added, -⟩ :=
            compiled_compiles factory use (.compileFresh name) name
          exact ⟨step, added, .inr kept⟩
  | acquire name =>
      cases cached : use.cache.find? name with
      | some code =>
          rw [serve_acquire_cached factory use cached]
          exact ⟨_, rfl, .inl rfl⟩
      | none =>
          rw [serve_acquire_missing factory use cached]
          obtain ⟨step, -, kept, added, -⟩ := compiled_compiles factory use (.acquire name) name
          exact ⟨step, added, .inr kept⟩
  | remove name => exact ⟨_, rfl, .inl rfl⟩
  | drop place =>
      cases kept : use.handles[place]? with
      | none =>
          rw [serve_drop_missing factory use kept]
          exact ⟨_, rfl, .inl rfl⟩
      | some code =>
          rw [serve_drop factory use kept]
          exact ⟨_, rfl, .inl rfl⟩

end Serve

/-! ## What every use keeps -/

/-- What holds of every use that began with an empty cache. -/
structure Sound (use : CacheUse σ M) : Prop where
  formed : use.cache.WellFormed
  leased : use.cache.leases.Perm (use.handles.map (·.serial))
  numbered : use.made.map (·.serial) = (List.range use.cache.compiled).reverse
  counted : use.compilations = use.cache.compiled
  origin : ∀ step ∈ use.history, ∀ code, step.made = some code → step.Origin code
  known : ∀ code, use.Holds code → code ∈ use.made
  once : use.released.Nodup
  gone : ∀ code, code ∈ use.released ↔ code ∈ use.made ∧ ¬ use.Holds code
  current : ∀ code ∈ use.cache.entries, CacheStep.Current code use.history

theorem Sound.opened (world : σ) : Sound ({ world } : CacheUse σ M) where
  formed := .empty
  leased := .nil
  numbered := rfl
  counted := rfl
  origin := by simp
  known := by simp [Holds]
  once := .nil
  gone := by simp [released, made]
  current := by simp

namespace Sound

variable {use : CacheUse σ M} (sound : use.Sound)

include sound

/-- The serial number of a module is its own. -/
theorem eq_of_serial {code other : CompiledCode M} (made : code ∈ use.made)
    (made' : other ∈ use.made) (same : code.serial = other.serial) : code = other := by
  refine List.inj_on_of_nodup_map ?_ made made' same
  rw [sound.numbered]
  exact List.nodup_reverse.2 List.nodup_range

theorem serial_lt {code : CompiledCode M} (made : code ∈ use.made) :
    code.serial < use.cache.compiled := by
  have mem : code.serial ∈ use.made.map (·.serial) := List.mem_map_of_mem made
  simpa [sound.numbered] using mem

/-- A cache whose leases match the handles knows by a serial number whether a module is
held. -/
theorem holds_iff {cache : CodeCache M} {handles : List (CompiledCode M)} {code : CompiledCode M}
    (leased : cache.leases.Perm (handles.map (·.serial)))
    (known : ∀ other, other ∈ cache.entries ∨ other ∈ handles → other ∈ use.made)
    (made : code ∈ use.made) :
    cache.holds code.serial = true ↔ code ∈ cache.entries ∨ code ∈ handles := by
  rw [CodeCache.holds_iff, leased.mem_iff, List.mem_map]
  refine or_congr ⟨?_, fun mem => ⟨code, mem, rfl⟩⟩ ⟨?_, fun mem => ⟨code, mem, rfl⟩⟩
  · rintro ⟨other, mem, same⟩
    exact sound.eq_of_serial (known other (.inl mem)) made same ▸ mem
  · rintro ⟨other, mem, same⟩
    exact sound.eq_of_serial (known other (.inr mem)) made same ▸ mem

/-- A step by which nothing is made, taken or given up. -/
theorem note {step : CacheStep M} (world : σ) (idle : step.made = none)
    (failed : step.runs.countP (·.answer.isOk) = 0) (kept : step.released = none)
    (served : ∀ code ∈ use.cache.entries,
      step.request = .acquire code.name → step.answer = some (.ok code)) :
    Sound { use with world, history := step :: use.history } where
  formed := sound.formed
  leased := sound.leased
  numbered := by simpa [made, idle] using sound.numbered
  counted := by simpa [compilations, failed] using sound.counted
  origin := by
    intro other mem code made
    rcases List.mem_cons.1 mem with rfl | mem
    · simp [idle] at made
    · exact sound.origin other mem code made
  known := by simpa [made, idle, Holds] using sound.known
  once := by simpa [released, kept] using sound.once
  gone := by simpa [made, released, idle, kept, Holds] using sound.gone
  current := by
    intro code mem
    exact (sound.current code mem).cons (by simp [idle]) (served code mem)

/-- One more handle on cached code. -/
theorem lease {code : CompiledCode M} (cached : code ∈ use.cache.entries) :
    Sound { use with cache := use.cache.lease code, handles := code :: use.handles } := by
  have same (other : CompiledCode M) :
      Holds { use with cache := use.cache.lease code, handles := code :: use.handles } other ↔
        use.Holds other := by
    show other ∈ use.cache.entries ∨ other ∈ code :: use.handles ↔ _
    rw [List.mem_cons, Holds]
    refine ⟨?_, Or.imp_right .inr⟩
    rintro (mem | rfl | mem)
    · exact .inl mem
    · exact .inl cached
    · exact .inr mem
  exact {
    formed := sound.formed.lease cached
    leased := sound.leased.cons _
    numbered := sound.numbered
    counted := sound.counted
    origin := sound.origin
    known := fun other held => sound.known other ((same other).1 held)
    once := sound.once
    gone := fun other => (sound.gone other).trans (and_congr_right' (not_congr (same other).symm))
    current := sound.current }

/-- A new module is cached and handed out. -/
theorem insert {name : String} {bytecode : Bytes} {module : M} {request : CacheRequest}
    (world : σ) (missing : use.cache.find? name = none)
    (about : ∀ other, request = .acquire other → other = name) :
    Sound
      { world
        cache := (use.cache.insert name bytecode module).2
        handles := (use.cache.insert name bytecode module).1 :: use.handles
        history :=
          { request, runs := [{ name, answer := .ok (bytecode, module) }]
            answer := some (.ok (use.cache.insert name bytecode module).1) } :: use.history } := by
  set code := (use.cache.insert name bytecode module).1
  have makes : CacheStep.made
      { request, runs := [{ name, answer := .ok (bytecode, module) }]
        answer := some (.ok code) } = some code := rfl
  -- the serial number of the new module is larger than all that were given out
  have fresh : code ∉ use.made := fun mem => Nat.lt_irrefl _ (sound.serial_lt mem)
  have unreleased : code ∉ use.released := fun mem => fresh ((sound.gone code).1 mem).1
  exact {
    formed := sound.formed.insert missing bytecode module
    leased := sound.leased.cons _
    numbered := by
      show List.map _ (List.filterMap _ (_ :: _)) = (List.range (use.cache.compiled + 1)).reverse
      rw [List.filterMap_cons_some makes, List.map_cons, List.range_succ, List.reverse_append]
      exact congrArg _ sound.numbered
    counted := by
      show List.countP _ (List.flatMap _ (_ :: _)) = use.cache.compiled + 1
      rw [List.flatMap_cons, List.countP_append, Nat.add_comm]
      exact congrArg (· + 1) sound.counted
    origin := by
      intro step mem other made
      rcases List.mem_cons.1 mem with rfl | mem
      · obtain rfl := Option.some.inj (makes.symm.trans made)
        exact ⟨bytecode, rfl, rfl, rfl⟩
      · exact sound.origin step mem other made
    known := by
      intro other held
      show other ∈ List.filterMap _ (_ :: _)
      rw [List.filterMap_cons_some makes]
      rcases held with mem | mem <;> rcases List.mem_cons.1 mem with rfl | mem
      · exact List.mem_cons_self
      · exact List.mem_cons_of_mem _ (sound.known other (.inl mem))
      · exact List.mem_cons_self
      · exact List.mem_cons_of_mem _ (sound.known other (.inr mem))
    once := sound.once
    gone := by
      intro other
      show other ∈ use.released ↔ other ∈ List.filterMap _ (_ :: _) ∧
        ¬ (other ∈ code :: use.cache.entries ∨ other ∈ code :: use.handles)
      rw [List.filterMap_cons_some makes, List.mem_cons, List.mem_cons, List.mem_cons, sound.gone]
      by_cases new : other = code
      · simp [new, fresh]
      · simp [new, made, Holds]
    current := by
      intro other mem
      rcases List.mem_cons.1 mem with rfl | mem
      · exact .of_made makes fun _ => rfl
      · have apart : other.name ≠ name := CodeCache.find?_eq_none missing other mem
        refine (sound.current other mem).cons ?_ fun asked => absurd (about _ asked) apart
        intro made same
        rw [← Option.some.inj (makes.symm.trans same)]
        exact apart.symm }

/-- One module at most is given up, and it is released if nobody holds it any more. -/
theorem giveUp {cache : CodeCache M} {handles : List (CompiledCode M)} {code : CompiledCode M}
    {request : CacheRequest} (formed : cache.WellFormed)
    (leased : cache.leases.Perm (handles.map (·.serial)))
    (compiled : cache.compiled = use.cache.compiled) (fewer : cache.entries ⊆ use.cache.entries)
    (held : use.Holds code) (others : ∀ other, other ≠ code →
      ((other ∈ cache.entries ∨ other ∈ handles) ↔ use.Holds other))
    (about : ∀ name, request ≠ .acquire name) :
    Sound
      { use with
        cache, handles
        history :=
          { request, released := if cache.holds code.serial then none else some code } ::
            use.history } := by
  have known (other : CompiledCode M) (mem : other ∈ cache.entries ∨ other ∈ handles) :
      other ∈ use.made := by
    by_cases same : other = code
    · exact sound.known other (same ▸ held)
    · exact sound.known other ((others other same).1 mem)
  have decides := sound.holds_iff leased known (sound.known code held)
  have idle : CacheStep.made
      { request, released := if cache.holds code.serial then none else some code } = none := rfl
  have unreleased : code ∉ use.released := fun mem => ((sound.gone code).1 mem).2 held
  exact {
    formed, leased
    numbered := by
      show List.map _ (List.filterMap _ (_ :: _)) = (List.range cache.compiled).reverse
      rw [List.filterMap_cons_none idle, compiled]
      exact sound.numbered
    counted := sound.counted.trans compiled.symm
    origin := by
      intro step mem other made
      rcases List.mem_cons.1 mem with rfl | mem
      · simp [idle] at made
      · exact sound.origin step mem other made
    known
    once := by
      show (List.filterMap _ (_ :: _)).Nodup
      by_cases kept : cache.holds code.serial = true
      · rw [List.filterMap_cons_none (by simp [kept])]
        exact sound.once
      · rw [List.filterMap_cons_some (b := code) (by simp [kept])]
        exact List.nodup_cons.2 ⟨unreleased, sound.once⟩
    gone := by
      intro other
      show other ∈ List.filterMap _ (_ :: _) ↔
        other ∈ use.made ∧ ¬ (other ∈ cache.entries ∨ other ∈ handles)
      by_cases kept : cache.holds code.serial = true
      · rw [List.filterMap_cons_none (by simp [kept])]
        refine (sound.gone other).trans (and_congr_right' (not_congr ?_))
        by_cases same : other = code
        · rw [same]
          exact iff_of_true held (decides.1 kept)
        · exact (others other same).symm
      · rw [List.filterMap_cons_some (b := code) (by simp [kept]), List.mem_cons]
        by_cases same : other = code
        · rw [same]
          exact iff_of_true (.inl rfl) ⟨sound.known code held, fun mem => kept (decides.2 mem)⟩
        · rw [or_iff_right same, others other same]
          exact sound.gone other
    current := by
      intro other mem
      exact (sound.current other (fewer mem)).cons (by simp [idle])
        fun asked => absurd asked (about _) }

theorem compiled_missing (factory : CodeFactory (StateM σ) M) {name : String}
    {request : CacheRequest} (missing : use.cache.find? name = none)
    (about : ∀ other, request = .acquire other → other = name) :
    (use.compiled factory request name).Sound := by
  unfold compiled
  rcases factory name use.world with ⟨e | ⟨bytecode, module⟩, world⟩
  · refine sound.note world rfl rfl rfl fun code mem asked => ?_
    exact absurd (about _ asked) (CodeCache.find?_eq_none missing code mem)
  · exact sound.insert world missing about

/-- Code that is removed is held by its handles alone. -/
theorem remove (name : String) :
    Sound
      { use with
        cache := (use.cache.remove name).2
        history := { request := .remove name, released := (use.cache.remove name).1 } ::
          use.history } := by
  have formed := sound.formed.remove name
  unfold CodeCache.remove at formed ⊢
  cases found : use.cache.find? name with
  | none => exact sound.note use.world rfl rfl rfl nofun
  | some code =>
      rw [found] at formed
      obtain ⟨cached, rfl⟩ := CodeCache.find?_eq_some found
      refine sound.giveUp formed sound.leased rfl (List.filter_subset_self _) (.inl cached) ?_ nofun
      intro other apart
      refine or_congr_left ⟨fun mem => (List.mem_filter.1 mem).1, fun mem => ?_⟩
      -- no other code is cached under the name
      refine List.mem_filter.2 ⟨mem, bne_iff_ne.2 fun same => apart ?_⟩
      exact List.inj_on_of_nodup_map sound.formed.names mem cached same

/-- A handle is dropped. -/
theorem drop {place : Nat} {code : CompiledCode M} (kept : use.handles[place]? = some code) :
    Sound
      { use with
        cache := (use.cache.giveBack code).2
        handles := use.handles.eraseIdx place
        history := { request := .drop place, released := (use.cache.giveBack code).1 } ::
          use.history } := by
  obtain ⟨bound, here⟩ := List.getElem?_eq_some_iff.1 kept
  have split : use.handles.Perm (code :: use.handles.eraseIdx place) := by
    rw [← here]
    exact (List.getElem_cons_eraseIdx_perm bound).symm
  have leased : (use.cache.leases.erase code.serial).Perm
      ((use.handles.eraseIdx place).map (·.serial)) := by
    have same := (sound.leased.trans (split.map _)).erase code.serial
    rwa [List.map_cons, List.erase_cons_head] at same
  refine sound.giveUp (sound.formed.giveBack code) leased rfl (List.Subset.refl _)
    (.inr (here ▸ List.getElem_mem bound)) ?_ nofun
  intro other apart
  refine or_congr_right ?_
  rw [split.mem_iff, List.mem_cons, or_iff_right apart]

theorem serve (factory : CodeFactory (StateM σ) M) (request : CacheRequest) :
    (use.serve factory request).Sound := by
  cases request with
  | compileFresh name =>
      cases cached : use.cache.find? name with
      | some code =>
          rw [serve_compileFresh_cached factory use (by simp [CodeCache.contains, cached])]
          exact sound.note use.world rfl rfl rfl nofun
      | none =>
          rw [serve_compileFresh_missing factory use cached]
          exact sound.compiled_missing factory cached nofun
  | acquire name =>
      cases cached : use.cache.find? name with
      | some code =>
          rw [serve_acquire_cached factory use cached]
          obtain ⟨mem, rfl⟩ := CodeCache.find?_eq_some cached
          refine (sound.lease mem).note use.world rfl rfl rfl fun other mem' asked => ?_
          have same : code.name = other.name := CacheRequest.acquire.inj asked
          rw [List.inj_on_of_nodup_map sound.formed.names mem' mem same.symm]
      | none =>
          rw [serve_acquire_missing factory use cached]
          exact sound.compiled_missing factory cached fun other same =>
            (CacheRequest.acquire.inj same).symm
  | remove name => exact sound.remove name
  | drop place =>
      cases kept : use.handles[place]? with
      | none =>
          rw [serve_drop_missing factory use kept]
          exact sound.note use.world rfl rfl rfl nofun
      | some code =>
          rw [serve_drop factory use kept]
          exact sound.drop kept

theorem run (factory : CodeFactory (StateM σ) M) (requests : List CacheRequest) :
    (use.run factory requests).Sound := by
  induction requests generalizing use with
  | nil => exact sound
  | cons request requests ih => exact ih (sound.serve factory request)

/-- Modules that were made are released or held, and never both. -/
theorem compilations_eq :
    use.compilations = use.released.length + use.heldSerials.card := by
  have all : Finset.range use.cache.compiled =
      (use.released.map (·.serial)).toFinset ∪ use.heldSerials := by
    ext serial
    have numbered : serial < use.cache.compiled ↔ ∃ code ∈ use.made, code.serial = serial := by
      rw [← List.mem_map, sound.numbered, List.mem_reverse, List.mem_range]
    simp only [Finset.mem_range, Finset.mem_union, List.mem_toFinset, List.mem_map, heldSerials,
      List.mem_append, numbered]
    constructor
    · rintro ⟨code, made, rfl⟩
      by_cases held : use.Holds code
      · exact .inr ⟨code, held, rfl⟩
      · exact .inl ⟨code, (sound.gone code).2 ⟨made, held⟩, rfl⟩
    · rintro (⟨code, mem, rfl⟩ | ⟨code, held, rfl⟩)
      · exact ⟨code, ((sound.gone code).1 mem).1, rfl⟩
      · exact ⟨code, sound.known code held, rfl⟩
  have apart : Disjoint (use.released.map (·.serial)).toFinset use.heldSerials := by
    rw [Finset.disjoint_left]
    simp only [List.mem_toFinset, List.mem_map, heldSerials, List.mem_append]
    rintro _ ⟨code, mem, rfl⟩ ⟨other, held, same⟩
    obtain ⟨made, unheld⟩ := (sound.gone code).1 mem
    exact unheld (sound.eq_of_serial (sound.known other held) made same ▸ held)
  have once : (use.released.map (·.serial)).Nodup := by
    refine List.Nodup.map_on (fun code mem other mem' same => ?_) sound.once
    exact sound.eq_of_serial ((sound.gone code).1 mem).1 ((sound.gone other).1 mem').1 same
  rw [sound.counted, ← Finset.card_range use.cache.compiled, all,
    Finset.card_union_of_disjoint apart, List.toFinset_card_of_nodup once, List.length_map]

/-- A request releases a module just when it takes the module from its last holder. -/
theorem released_iff (factory : CodeFactory (StateM σ) M) (request : CacheRequest)
    (code : CompiledCode M) :
    (use.serve factory request).released = code :: use.released ↔
      use.Holds code ∧ ¬ (use.serve factory request).Holds code := by
  have after := sound.serve factory request
  obtain ⟨step, added, apart⟩ := serve_history factory use request
  have made : (use.serve factory request).made = step.made.toList ++ use.made := by
    unfold CacheUse.made
    rw [added, List.filterMap_cons]
    cases step.made <;> rfl
  have released : (use.serve factory request).released = step.released.toList ++ use.released := by
    unfold CacheUse.released
    rw [added, List.filterMap_cons]
    cases step.released <;> rfl
  constructor
  · intro gone
    have mem : code ∈ (use.serve factory request).released := gone ▸ List.mem_cons_self
    have fresh : code ∉ use.released := (List.nodup_cons.1 (gone ▸ after.once)).1
    obtain ⟨known, unheld⟩ := (after.gone code).1 mem
    refine ⟨?_, unheld⟩
    have old : code ∈ use.made := by
      rw [released] at gone
      cases out : step.released with
      | none => simp [out] at gone
      | some _ => simpa [made, apart.resolve_right (by simp [out])] using known
    by_contra free
    exact fresh ((sound.gone code).2 ⟨old, free⟩)
  · rintro ⟨held, unheld⟩
    have known : code ∈ (use.serve factory request).made := by
      rw [made]
      exact List.mem_append_right _ (sound.known code held)
    have mem := (after.gone code).2 ⟨known, unheld⟩
    rw [released, List.mem_append] at mem
    have out := mem.resolve_right fun mem => ((sound.gone code).1 mem).2 held
    rw [released, Option.mem_toList.1 out]
    rfl

end Sound

/-! ## The life cycle -/

/-- The life of compiled code, whatever the factory does and whatever is asked of the
cache in whatever order. Each name has one entry at most, compiled for that name. To
compile afresh is refused just where there is an entry, without a run of the factory; if
the factory itself fails like that, its failure is passed on. To acquire runs the factory
just where there is no entry, and answers otherwise with what was made last and handed
out ever since. A failure of the factory leaves the cache as it was. Every module made is
released once, by the request that takes it from the last of its holders. -/
theorem run_life_cycle (factory : CodeFactory (StateM σ) M) (world : σ)
    (requests : List CacheRequest) :
    let use := CacheUse.run factory { world } requests
    ((use.cache.entries.map (·.name)).Nodup ∧
      ∀ code ∈ use.cache.entries, ∃ step ∈ use.history, step.Origin code) ∧
    (∀ name, ∃ step, let next := use.serve factory (.compileFresh name)
      next.history = step :: use.history ∧
      (step.answer = some (.error (.staleCode name)) ↔
        use.cache.contains name ∨ (factory name use.world).1 = .error (.staleCode name)) ∧
      if use.cache.contains name then
        step.runs = [] ∧ next.world = use.world ∧ next.cache = use.cache ∧
          next.handles = use.handles
      else Compiles factory use name next step) ∧
    (∀ name, ∃ step, let next := use.serve factory (.acquire name)
      next.history = step :: use.history ∧
      match use.cache.find? name with
      | some code =>
        step.runs = [] ∧ next.world = use.world ∧ step.answer = some (.ok code) ∧
          code.name = name ∧ CacheStep.Current code use.history
      | none => Compiles factory use name next step) ∧
    (use.made.map (·.serial)).Nodup ∧ use.made.length = use.compilations ∧
    (∀ code, use.Holds code → code ∈ use.made) ∧
    use.released.Nodup ∧
    (∀ code, code ∈ use.released ↔ code ∈ use.made ∧ ¬ use.Holds code) ∧
    (∀ request code, (use.serve factory request).released = code :: use.released ↔
      use.Holds code ∧ ¬ (use.serve factory request).Holds code) ∧
    use.compilations = use.released.length + use.heldSerials.card := by
  intro use
  have sound : use.Sound := (Sound.opened world).run factory requests
  refine ⟨⟨sound.formed.names, ?origins⟩, ?fresh, ?acquired, ?numbers, ?lengths, sound.known,
    sound.once, sound.gone, sound.released_iff factory, sound.compilations_eq⟩
  case origins =>
    intro code cached
    obtain ⟨step, mem, made⟩ := (sound.current code cached).1
    have mem := CacheStep.mem_of_sinceMade mem
    exact ⟨step, mem, sound.origin step mem code made⟩
  case fresh =>
    intro name
    cases cached : use.cache.find? name with
    | some code =>
        have cached : use.cache.contains name = true := by simp [CodeCache.contains, cached]
        rw [serve_compileFresh_cached factory use cached]
        refine ⟨_, rfl, iff_of_true rfl (.inl cached), ?_⟩
        rw [if_pos cached]
        exact ⟨rfl, rfl, rfl, rfl⟩
    | none =>
        have missing : use.cache.contains name = false := by simp [CodeCache.contains, cached]
        rw [serve_compileFresh_missing factory use cached]
        obtain ⟨step, -, -, added, compiles⟩ :=
          compiled_compiles factory use (.compileFresh name) name
        refine ⟨step, added, ?_, by rwa [if_neg (by simp [missing])]⟩
        rw [or_iff_right (by simp [missing])]
        have passed := compiles.2
        cases answered : (factory name use.world).1 with
        | ok _ =>
            rw [answered] at passed
            obtain ⟨code, -, -, -, -, answer⟩ := passed
            simp [answer]
        | error e =>
            rw [answered] at passed
            simp [passed.1]
  case acquired =>
    intro name
    cases cached : use.cache.find? name with
    | some code =>
        rw [serve_acquire_cached factory use cached]
        obtain ⟨mem, named⟩ := CodeCache.find?_eq_some cached
        exact ⟨_, rfl, rfl, rfl, rfl, named, sound.current code mem⟩
    | none =>
        rw [serve_acquire_missing factory use cached]
        obtain ⟨step, -, -, added, compiles⟩ := compiled_compiles factory use (.acquire name) name
        exact ⟨step, added, compiles⟩
  case numbers =>
    rw [sound.numbered]
    exact List.nodup_reverse.2 List.nodup_range
  case lengths =>
    rw [sound.counted, ← List.length_map, sound.numbered, List.length_reverse, List.length_range]

end CacheUse

end ContractHost
