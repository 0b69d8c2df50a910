/-
# Logical stores

Many logical stores share one place: a key of a logical store is kept under its name, an octet
of zero, and the key. Nothing restricts the names, so a name may itself hold that octet, and
then it may go on where a shorter name has ended. Whether the stores of a set of names are
independent of each other is a matter of that alone: they are just where none of the names
continues another.
-/

import ContractHost.Proofs.Store.Requests
import Mathlib.Data.Set.Defs
import Mathlib.Tactic.TFAE

namespace ContractHost

namespace StoreKey

/-- A name starts with all of another one and the octet that ends it in keys. -/
def Continues (name longer : String) : Prop :=
  Utf8.encode name ++ [0x00] <+: Utf8.encode longer

theorem not_continues_self (name : String) : ¬ Continues name name := by
  intro continues
  have length : (Utf8.encode name).length + 1 ≤ (Utf8.encode name).length := by
    simpa using continues.length_le
  omega

/-- Two logical stores have a key in common only if one name continues the other. -/
theorem eq_or_continues {name other : String} {key key' : Bytes}
    (same : logical name key = logical other key') :
    name = other ∨ Continues name other ∨ Continues other name := by
  unfold logical at same
  rcases List.append_eq_append_iff.1 same with ⟨more, longer, rest⟩ | ⟨more, longer, rest⟩
  · cases more with
    | nil => exact .inl (Utf8.encode_injective (by simpa using longer.symm))
    | cons octet more =>
        obtain ⟨rfl, _⟩ := List.cons.inj rest
        exact .inr (.inl ⟨more, by simpa using longer.symm⟩)
  · cases more with
    | nil => exact .inl (Utf8.encode_injective (by simpa using longer))
    | cons octet more =>
        obtain ⟨rfl, _⟩ := List.cons.inj rest
        exact .inr (.inr ⟨more, by simpa using longer.symm⟩)

/-- Every key of a store whose name continues another one is a key of that one, too. -/
theorem exists_logical_eq {name longer : String} (continues : Continues name longer)
    (key : Bytes) : ∃ key', logical name key' = logical longer key := by
  obtain ⟨more, longer⟩ := continues
  refine ⟨more ++ 0x00 :: key, ?_⟩
  unfold logical
  rw [← longer]
  simp

end StoreKey

/-- The request that reaches the place where a logical store is kept. -/
def StoreRequest.within (name : String) : StoreRequest → StoreRequest
  | get key => get (StoreKey.logical name key)
  | has key => has (StoreKey.logical name key)
  | put key value => put (StoreKey.logical name key) value
  | delete key => delete (StoreKey.logical name key)

/-- A request to the store of a name. -/
abbrev NamedRequest := String × StoreRequest

/-- Serves requests by maps that have nothing to do with each other, one for each name. -/
def serveMaps (maps : String → Bytes → Option Bytes) (request : NamedRequest) :
    StoreAnswer × (String → Bytes → Option Bytes) :=
  (request.2.answer (maps request.1),
    Function.update maps request.1 (request.2.effect (maps request.1)))

namespace Store

/-- The store inside a logical store. -/
def inside : Store → Store
  | logical _ inner => inner
  | s => s

/-- Access to a store through the handle of a logical store in it. -/
def handle (name : String) : StoreAccess Store where
  get? s key := (((logical name s).get? key).1, ((logical name s).get? key).2.inside)
  put s key value := ((logical name s).put key value).inside
  delete s key := ((logical name s).delete key).inside

/-- Serves requests through the handles of their names. -/
def serveNamed (s : Store) (request : NamedRequest) : StoreAnswer × Store :=
  (handle request.1).serve s request.2

/-- What the logical stores in a store hold. -/
def maps (s : Store) (name : String) (key : Bytes) : Option Bytes :=
  s.peek? (StoreKey.logical name key)

theorem serveNamed_eq (s : Store) (request : NamedRequest) :
    s.serveNamed request = access.serve s (request.2.within request.1) := by
  obtain ⟨name, request⟩ := request
  cases request <;> rfl

/-- A handle answers by what its own logical store holds. -/
theorem serveNamed_fst (s : Store) (request : NamedRequest) :
    (s.serveNamed request).1 = request.2.answer (s.maps request.1) := by
  rw [serveNamed_eq, serve_fst]
  obtain ⟨name, request⟩ := request
  cases request <;> rfl

section Maps

variable {s : Store} (lasting : s.forgets = false) (request : NamedRequest)

include lasting

theorem maps_serveNamed_self :
    (s.serveNamed request).2.maps request.1 = request.2.effect (s.maps request.1) := by
  obtain ⟨name, request⟩ := request
  have written (key : Bytes) (value? : Option Bytes) :
      Function.update s.peek? (StoreKey.logical name key) value? ∘ StoreKey.logical name =
        Function.update (s.maps name) key value? :=
    Function.update_comp_eq_of_injective _ (fun _ _ => StoreKey.logical_injective) key value?
  unfold maps
  rw [serveNamed_eq, peek?_serve lasting]
  cases request with
  | get | has => rfl
  | put key value => exact written key (some value)
  | delete key => exact written key none

/-- A request changes no logical store with which its own has no key in common. -/
theorem maps_serveNamed_of_ne {other : String}
    (apart : ∀ key key', StoreKey.logical other key ≠ StoreKey.logical request.1 key') :
    (s.serveNamed request).2.maps other = s.maps other := by
  obtain ⟨name, request⟩ := request
  funext key
  unfold maps
  rw [serveNamed_eq, peek?_serve lasting]
  cases request with
  | get | has => rfl
  | put | delete => exact Function.update_of_ne (apart key _) _ _

theorem forgets_serveNamed : (s.serveNamed request).2.forgets = false := by
  rw [serveNamed_eq, forgets_serve, lasting]

end Maps

end Store

open StoreKey (Continues)

/-- Where no name continues another, the logical stores of names have no key in common. -/
theorem Store.maps_serveNamed {names : Set String}
    (apart : ∀ name ∈ names, ∀ other ∈ names, ¬ Continues name other) {s : Store}
    (lasting : s.forgets = false) {request : NamedRequest} (asked : request.1 ∈ names)
    {other : String} (known : other ∈ names) :
    (s.serveNamed request).2.maps other = (serveMaps s.maps request).2 other := by
  show _ = Function.update s.maps request.1 _ other
  by_cases same : other = request.1
  · rw [same, Function.update_self, maps_serveNamed_self lasting]
  · rw [Function.update_of_ne same]
    refine maps_serveNamed_of_ne lasting request fun key key' meets => ?_
    rcases StoreKey.eq_or_continues meets with equal | continues | continues
    · exact same equal
    · exact apart _ known _ asked continues
    · exact apart _ asked _ known continues

/-- Answers through handles are those of independent maps, where no name continues another.
Only what is held under the given names counts. -/
theorem Store.answersTo_serveNamed {names : Set String}
    (apart : ∀ name ∈ names, ∀ other ∈ names, ¬ Continues name other) {s : Store}
    (lasting : s.forgets = false) {held : String → Bytes → Option Bytes}
    (same : ∀ name ∈ names, s.maps name = held name) {requests : List NamedRequest}
    (asked : ∀ request ∈ requests, request.1 ∈ names) :
    answersTo serveNamed s requests = answersTo serveMaps held requests := by
  induction requests generalizing s held with
  | nil => rfl
  | cons request rest ih =>
      obtain ⟨here, later⟩ := List.forall_mem_cons.1 asked
      have answered : (s.serveNamed request).1 = (serveMaps held request).1 := by
        rw [serveNamed_fst, same _ here]
        rfl
      have kept : ∀ name ∈ names, (s.serveNamed request).2.maps name =
          (serveMaps held request).2 name := by
        intro name known
        rw [maps_serveNamed apart lasting here known]
        simp only [serveMaps, Function.update_apply, same _ here, same _ known]
      exact congrArg₂ List.cons answered (ih (forgets_serveNamed lasting request) kept later)

/-- When the logical stores of some names in one store in memory are isolated. To say that
every answer through their handles, to any requests one after the other, is the one of
independent maps, is to say that no request through one handle changes what is answered
through another, and both is to say that no name continues another. -/
theorem logical_stores_isolated_tfae (names : Set String) (table : MemoryStore) :
    List.TFAE [
      ∀ requests : List NamedRequest, (∀ request ∈ requests, request.1 ∈ names) →
        answersTo Store.serveNamed (.memory table) requests =
          answersTo serveMaps (Store.memory table).maps requests,
      ∀ name ∈ names, ∀ other ∈ names, other ≠ name → ∀ request read : StoreRequest,
        ((Store.handle other).serve ((Store.handle name).serve (.memory table) request).2 read).1 =
          ((Store.handle other).serve (.memory table) read).1,
      ∀ name ∈ names, ∀ other ∈ names, ¬ Continues name other] := by
  tfae_have 1 → 2 := by
    intro independent name known other known' apart request read
    have both := independent [(name, request), (other, read)] (by simp [known, known'])
    have alone := independent [(other, read)] (by simp [known'])
    have after := (List.cons.inj (List.cons.inj both).2).1
    have before := (List.cons.inj alone).1
    refine after.trans (Eq.trans ?_ before.symm)
    simp only [serveMaps, Function.update_of_ne apart]
  tfae_have 2 → 3 := by
    intro untouched name known longer known' continues
    obtain ⟨key, meets⟩ := StoreKey.exists_logical_eq continues []
    have apart : name ≠ longer := fun same => StoreKey.not_continues_self name (same ▸ continues)
    -- what is written through the longer name is read through the other one
    have shown (value : Bytes) : some value = table.get? (StoreKey.logical name key) := by
      have read : (table.insert (StoreKey.logical longer []) value).get?
            (StoreKey.logical name key) = table.get? (StoreKey.logical name key) :=
        StoreAnswer.value.inj
          (untouched longer known' name known apart (.put [] value) (.get key))
      rw [← read, meets, table.get?_insert_self]
    cases (shown []).trans (shown [0x00]).symm
  tfae_have 3 → 1 := fun apart requests asked =>
    Store.answersTo_serveNamed apart rfl (fun _ _ => rfl) asked
  tfae_finish

/-- Names are not restricted, so not all logical stores are isolated: what is written through
the handle of one name may be read through the handle of another. -/
theorem write_shows_in_other_store :
    ¬ ∀ (table : MemoryStore) (requests : List NamedRequest),
      answersTo Store.serveNamed (.memory table) requests =
        answersTo serveMaps (Store.memory table).maps requests := by
  intro independent
  have same := independent .empty
    [("a\x00b", .put [0x6B] [0x31]), ("a", .get [0x62, 0x00, 0x6B])]
  revert same
  decide +kernel

end ContractHost
