/-
# A bounded store beside an unbounded one

A bounded store forgets, but it does not err: what it answers is what a table that receives
the same writes and removals would answer, or that nothing is there. Its entries stand in the
order in which their keys were last used, so what it forgets is always the key used longest
ago, and it forgets only when there is no room for a new one. As long as all keys would have
fitted in, nothing tells it from the table.
-/

import ContractHost.Proofs.Store.Requests
import Mathlib.Data.List.Induction
import Mathlib.Data.List.Perm.Subperm

namespace ContractHost

/-- What is done with a bounded store: it serves requests, and its capacity may be raised. -/
inductive BoundedRequest
  | use (request : StoreRequest)
  | enlarge (capacity : Nat)
deriving DecidableEq, Repr

/-- A request to a bounded store, and what it came to. -/
structure BoundedStep where
  request : BoundedRequest
  result : Except StoreError StoreAnswer

/-- True of the steps that use a key: it is written, or read and found. -/
def BoundedStep.uses (key : Bytes) : BoundedStep → Bool
  | ⟨.use (.get place), .ok (.value (some _))⟩ => place == key
  | ⟨.use (.has place), .ok (.presence true)⟩ => place == key
  | ⟨.use (.put place _), .ok _⟩ => place == key
  | _ => false

/-- The number of steps since a key was last used, by the steps latest first. -/
def ageIn (history : List BoundedStep) (key : Bytes) : Nat := history.findIdx (·.uses key)

/-- What becomes of the values by a request, if nothing is forgotten. -/
def BoundedRequest.effect (held : Bytes → Option Bytes) : BoundedRequest → Bytes → Option Bytes
  | use request => request.effect held
  | enlarge _ => held

/-- How tables are accessed. -/
def MemoryStore.access : StoreAccess MemoryStore :=
  ⟨fun table key => (table.get? key, table), Table.insert, Table.erase⟩

namespace BoundedStore

/-- The keys that are held, the latest used first. -/
def keys (s : BoundedStore) : List Bytes := s.entries.map (·.1)

/-- How bounded stores are accessed. -/
def access : StoreAccess BoundedStore := ⟨get?, put, delete⟩

/-- Serves a request. -/
def serve (s : BoundedStore) : BoundedRequest → Except StoreError StoreAnswer × BoundedStore
  | .use request => (.ok (access.serve s request).1, (access.serve s request).2)
  | .enlarge capacity =>
    match s.enlarge capacity with
    | .ok larger => (.ok .done, larger)
    | .error e => (.error e, s)

/-- A request that puts a new key into a full store. -/
def Crowded (s : BoundedStore) (request : BoundedRequest) : Prop :=
  ∃ key value, request = .use (.put key value) ∧ key ∉ s.keys ∧ s.size = s.capacity

end BoundedStore

/-- A bounded store in use, a table that receives the same writes and removals, and the steps
taken, latest first. -/
structure BoundedUse where
  store : BoundedStore
  mirror : MemoryStore := .empty
  history : List BoundedStep := []

namespace BoundedUse

/-- An empty store of a capacity. -/
def opened (capacity : Nat) : BoundedUse := { store := .ofCapacity capacity }

/-- Serves a request. -/
def step (u : BoundedUse) (request : BoundedRequest) : BoundedUse where
  store := (u.store.serve request).2
  mirror :=
    match request with
    | .use request => (MemoryStore.access.serve u.mirror request).2
    | .enlarge _ => u.mirror
  history := ⟨request, (u.store.serve request).1⟩ :: u.history

/-- Serves requests in turn, from an empty store on. -/
def run (capacity : Nat) (requests : List BoundedRequest) : BoundedUse :=
  requests.foldl step (opened capacity)

/-- The key of a store that was used longest ago. -/
def Oldest (u : BoundedUse) (key : Bytes) : Prop :=
  key ∈ u.store.keys ∧
    ∀ other ∈ u.store.keys, other ≠ key → ageIn u.history other < ageIn u.history key

end BoundedUse

/-! ## Keys and lookups -/

/-- A key that is found in a table is one of its keys. -/
theorem Table.mem_keys_of_get? {t : MemoryStore} {key value : Bytes}
    (found : t.get? key = some value) : key ∈ t.keys := by
  obtain ⟨entry, there, _⟩ := Option.map_eq_some_iff.1 found
  have same : entry.1 = key := ByteKey.bytes_injective (by simpa using List.find?_some there)
  exact List.mem_map.2 ⟨entry, List.mem_of_find?_eq_some there, same⟩

/-- Lookups fail for the keys that no entry has. -/
theorem lookup_eq_none_iff_notMem {entries : List (Bytes × Bytes)} {key : Bytes} :
    entries.lookup key = none ↔ key ∉ entries.map (·.1) := by
  rw [List.lookup_eq_none_iff, List.mem_map]
  constructor
  · rintro missing ⟨entry, mem, rfl⟩
    exact absurd (missing entry mem) (by simp)
  · intro missing entry mem
    exact bne_iff_ne.2 fun same => missing ⟨entry, mem, same.symm⟩

namespace BoundedRequest

variable {held held' : Bytes → Option Bytes}

/-- What lacks some values still lacks no others after a request. -/
theorem effect_shows (shows : ∀ key, held key = none ∨ held key = held' key)
    (request : BoundedRequest) (key : Bytes) :
    request.effect held key = none ∨ request.effect held key = request.effect held' key := by
  have updated (place : Bytes) (value? : Option Bytes) :
      Function.update held place value? key = none ∨
        Function.update held place value? key = Function.update held' place value? key := by
    rw [Function.update_apply, Function.update_apply]
    split
    · exact .inr rfl
    · exact shows key
  cases request with
  | use request =>
      cases request with
      | get | has => exact shows key
      | put place value => exact updated place (some value)
      | delete place => exact updated place none
  | enlarge capacity => exact shows key

/-- Only its removal takes a key away, if nothing is forgotten. -/
theorem effect_eq_none_iff {key : Bytes} (there : held key ≠ none) (request : BoundedRequest) :
    request.effect held key = none ↔ request = .use (.delete key) := by
  cases request with
  | use request =>
      cases request with
      | get | has => simp [effect, StoreRequest.effect, there]
      | put place value | delete place =>
          by_cases here : key = place
          · simp [effect, StoreRequest.effect, here]
          · simp [effect, StoreRequest.effect, Function.update_of_ne here, there, Ne.symm here]
  | enlarge capacity => simp [effect, there]

end BoundedRequest

/-- What a request makes of a table. -/
theorem MemoryStore.get?_serve (table : MemoryStore) (request : StoreRequest) :
    (access.serve table request).2.get? = request.effect table.get? := by
  have effect := Store.peek?_serve (s := .memory table) rfl request
  cases request <;> exact effect

theorem MemoryStore.serve_fst (table : MemoryStore) (request : StoreRequest) :
    (access.serve table request).1 = request.answer table.get? := by
  cases request <;> rfl

/-- Where some values are missing, the answer is as if all were, or as if none were. -/
theorem StoreRequest.answer_shows {held held' : Bytes → Option Bytes}
    (shows : ∀ key, held key = none ∨ held key = held' key) (request : StoreRequest) :
    request.answer held = request.answer (fun _ => none) ∨
      request.answer held = request.answer held' := by
  cases request with
  | get key | has key => rcases shows key with missing | same <;> simp [answer, *]
  | put | delete => exact .inl rfl

namespace BoundedStore

variable (s : BoundedStore) {key other value : Bytes}

theorem length_keys : s.keys.length = s.size := List.length_map _

theorem notMem_keys : key ∉ s.keys ↔ s.peek? key = none := lookup_eq_none_iff_notMem.symm

theorem mem_keys : key ∈ s.keys ↔ ∃ value, s.peek? key = some value := by
  rw [← Option.ne_none_iff_exists', Ne, ← notMem_keys, not_not]

/-- The keys of the entries without those of one key. -/
theorem sublist_keys_others (key : Bytes) : ((s.others key).map (·.1)).Sublist s.keys :=
  List.filter_sublist.map _

theorem notMem_keys_others (key : Bytes) : key ∉ (s.others key).map (·.1) := by
  simp [others]

/-- Without the entries of a key that is there, a store has fewer. -/
theorem length_others_lt (found : s.peek? key = some value) : (s.others key).length < s.size := by
  obtain ⟨entry, mem, same⟩ := List.mem_map.1 (s.mem_keys.2 ⟨value, found⟩)
  exact List.length_filter_lt_length_iff_exists.2 ⟨entry, mem, by simpa using same⟩

/-! ## What a request does -/

/-- What stays of the entries when a new key is put. -/
def spared : List (Bytes × Bytes) :=
  if s.size < s.capacity then s.entries else s.entries.dropLast

theorem sublist_spared : s.spared.Sublist s.entries := by
  unfold spared
  split
  · exact .refl _
  · exact List.dropLast_sublist _

theorem length_spared_lt (positive : 1 ≤ s.capacity) (within : s.size ≤ s.capacity) :
    s.spared.length < s.capacity := by
  unfold spared
  split
  · assumption
  · rw [List.length_dropLast]
    show s.size - 1 < s.capacity
    omega

theorem put_of_held (held : s.peek? key = some value) (value' : Bytes) :
    s.put key value' = { s with entries := (key, value') :: s.others key } := by
  rw [put, held]

theorem put_of_new (new : s.peek? key = none) (value : Bytes) :
    s.put key value = { s with entries := (key, value) :: s.spared } := by
  rw [put, new]
  rfl

theorem get?_cases (key : Bytes) :
    (∃ value, s.peek? key = some value ∧
        s.get? key = (some value, { s with entries := (key, value) :: s.others key })) ∨
      s.get? key = (none, s) := by
  unfold get?
  cases s.peek? key with
  | some value => exact .inl ⟨value, rfl, rfl⟩
  | none => exact .inr rfl

theorem serve_enlarge (capacity : Nat) :
    s.serve (.enlarge capacity) =
      if s.capacity < capacity then (.ok .done, { s with capacity })
      else (.error (.capacityShrink capacity s.capacity), s) := by
  rw [serve, enlarge]
  by_cases larger : s.capacity < capacity
  · rw [if_pos larger, if_pos larger]
  · rw [if_neg larger, if_neg larger]

/-- A step that uses a key puts it before other keys, which were there before. -/
structure Renews (s t : BoundedStore) (step : BoundedStep) (key : Bytes) (rest : List Bytes) :
    Prop where
  capacity : t.capacity = s.capacity
  keys : t.keys = key :: rest
  used : ∀ other, step.uses other = (key == other)
  sublist : rest.Sublist s.keys
  apart : key ∉ rest
  room : 1 ≤ s.capacity → s.size ≤ s.capacity → rest.length < s.capacity

/-- A step that uses no key leaves those that stay in their order. -/
structure Rests (s t : BoundedStore) (step : BoundedStep) : Prop where
  capacity : s.capacity ≤ t.capacity
  unused : ∀ key, step.uses key = false
  sublist : t.keys.Sublist s.keys

/-- A key that is read and found, or is written though it is there. -/
theorem Renews.of_held {step : BoundedStep} {value' : Bytes} (held : s.peek? key = some value)
    (used : ∀ other, step.uses other = (key == other)) :
    s.Renews { s with entries := (key, value') :: s.others key } step key
      ((s.others key).map (·.1)) where
  capacity := rfl
  keys := rfl
  used := used
  sublist := s.sublist_keys_others key
  apart := s.notMem_keys_others key
  room _ within := by
    rw [List.length_map]
    exact Nat.lt_of_lt_of_le (s.length_others_lt held) within

theorem Renews.of_new {step : BoundedStep} (new : s.peek? key = none)
    (used : ∀ other, step.uses other = (key == other)) :
    s.Renews { s with entries := (key, value) :: s.spared } step key (s.spared.map (·.1)) where
  capacity := rfl
  keys := rfl
  used := used
  sublist := s.sublist_spared.map _
  apart mem := s.notMem_keys.2 new ((s.sublist_spared.map _).subset mem)
  room positive within := by
    rw [List.length_map]
    exact s.length_spared_lt positive within

/-- Each step uses one key, or none. -/
theorem serve_renews_or_rests (request : BoundedRequest) :
    (∃ key rest, s.Renews (s.serve request).2 ⟨request, (s.serve request).1⟩ key rest) ∨
      s.Rests (s.serve request).2 ⟨request, (s.serve request).1⟩ := by
  cases request with
  | use request =>
      cases request with
      | get key | has key =>
          simp only [serve, access, StoreAccess.serve]
          rcases s.get?_cases key with ⟨value, held, read⟩ | read
          · rw [read]
            exact .inl ⟨key, _, .of_held s held fun _ => rfl⟩
          · rw [read]
            exact .inr ⟨.refl, fun _ => rfl, .refl _⟩
      | put key value =>
          simp only [serve, access, StoreAccess.serve]
          cases held : s.peek? key with
          | some _ =>
              rw [s.put_of_held held]
              exact .inl ⟨key, _, .of_held s held fun _ => rfl⟩
          | none =>
              rw [s.put_of_new held]
              exact .inl ⟨key, _, .of_new s held fun _ => rfl⟩
      | delete key => exact .inr ⟨.refl, fun _ => rfl, s.sublist_keys_others key⟩
  | enlarge capacity =>
      rw [serve_enlarge]
      split
      · next larger => exact .inr ⟨Nat.le_of_lt larger, fun _ => rfl, .refl _⟩
      · exact .inr ⟨.refl, fun _ => rfl, .refl _⟩

theorem capacity_le_serve (request : BoundedRequest) :
    s.capacity ≤ (s.serve request).2.capacity := by
  rcases s.serve_renews_or_rests request with ⟨key, rest, renews⟩ | rests
  · exact Nat.le_of_eq renews.capacity.symm
  · exact rests.capacity

theorem size_serve_le {s : BoundedStore} (positive : 1 ≤ s.capacity)
    (within : s.size ≤ s.capacity) (request : BoundedRequest) :
    (s.serve request).2.size ≤ (s.serve request).2.capacity := by
  rw [← length_keys]
  rcases s.serve_renews_or_rests request with ⟨key, rest, renews⟩ | rests
  · rw [renews.keys, renews.capacity]
    exact renews.room positive within
  · have fewer := rests.sublist.length_le
    rw [length_keys s] at fewer
    exact Nat.le_trans (Nat.le_trans fewer within) rests.capacity

/-- A request that does not put a new key into a full store has its effect, and no other. -/
theorem peek?_serve {s : BoundedStore} (within : s.size ≤ s.capacity) {request : BoundedRequest}
    (free : ¬ s.Crowded request) : (s.serve request).2.peek? = request.effect s.peek? := by
  cases request with
  | use request =>
      cases request with
      | get key | has key => exact funext (s.peek?_get? key)
      | put key value =>
          refine Function.eq_update_iff.2 ⟨s.peek?_put_self key value, fun other apart => ?_⟩
          show (s.put key value).peek? other = s.peek? other
          cases held : s.peek? key with
          | some _ =>
              rw [s.put_of_held held]
              exact (lookup_cons_of_ne apart value _).trans (s.lookup_others apart)
          | none =>
              have room : s.size ≠ s.capacity := fun full =>
                free ⟨key, value, rfl, s.notMem_keys.2 held, full⟩
              rw [s.put_of_new held, spared, if_pos (Nat.lt_of_le_of_ne within room)]
              exact lookup_cons_of_ne apart value _
      | delete key =>
          refine Function.eq_update_iff.2 ⟨s.peek?_delete_self key, fun other apart => ?_⟩
          exact s.peek?_delete_of_ne apart
  | enlarge capacity =>
      rw [serve_enlarge]
      split <;> rfl

/-- A new key in a full store takes the place of the last one. -/
theorem keys_serve_crowded {s : BoundedStore} (positive : 1 ≤ s.capacity) {key : Bytes}
    (new : key ∉ s.keys) (full : s.size = s.capacity) (value : Bytes) :
    ∃ kept last, s.keys = kept ++ [last] ∧
      (s.serve (.use (.put key value))).2.keys = key :: kept := by
  have some_entry : s.entries ≠ [] := List.ne_nil_of_length_pos (by rwa [← full] at positive)
  refine ⟨s.entries.dropLast.map (·.1), (s.entries.getLast some_entry).1, ?_, ?_⟩
  · rw [← List.map_singleton, ← List.map_append, List.dropLast_append_getLast]
    rfl
  · show (s.put key value).keys = _
    rw [s.put_of_new (s.notMem_keys.1 new), spared, if_neg (Nat.not_lt.2 (Nat.le_of_eq full.symm))]
    rfl

/-- What is under a key is what a request has made of it, or was forgotten. -/
theorem serve_shows {s : BoundedStore} (within : s.size ≤ s.capacity) (request : BoundedRequest)
    (key : Bytes) : (s.serve request).2.peek? key = none ∨
      (s.serve request).2.peek? key = request.effect s.peek? key := by
  by_cases crowded : s.Crowded request
  · obtain ⟨new, value, rfl, -, -⟩ := crowded
    show (s.put new value).peek? key = none ∨
      (s.put new value).peek? key = Function.update s.peek? new (some value) key
    rw [Function.update_apply]
    split
    · next here =>
        rw [here]
        exact .inr (s.peek?_put_self new value)
    · next apart => exact (s.peek?_put_of_ne apart value).symm
  · exact .inr (congrFun (peek?_serve within crowded) key)

/-- A store answers by the values that it holds. -/
theorem serve_fst (s : BoundedStore) (request : StoreRequest) :
    (access.serve s request).1 = request.answer s.peek? := by
  have answer := Store.serve_fst (.bounded s) request
  cases request <;> exact answer

end BoundedStore

/-! ## The order of keys -/

section Order

variable {history : List BoundedStep} {latest : BoundedStep} {key : Bytes}

theorem ageIn_cons (key : Bytes) :
    ageIn (latest :: history) key = if latest.uses key then 0 else ageIn history key + 1 := by
  unfold ageIn
  rw [List.findIdx_cons]
  cases latest.uses key <;> rfl

/-- True of keys that stand in the order in which they were last used. -/
def InOrder (history : List BoundedStep) (keys : List Bytes) : Prop :=
  keys.Pairwise fun key older => ageIn history key < ageIn history older

/-- Keys stay in order when a step uses none of them. -/
theorem InOrder.unused {keys : List Bytes} (ordered : InOrder history keys)
    (unused : ∀ key ∈ keys, latest.uses key = false) : InOrder (latest :: history) keys := by
  refine List.Pairwise.imp_of_mem (fun mem mem' younger => ?_) ordered
  rw [ageIn_cons, ageIn_cons, unused _ mem, unused _ mem']
  exact Nat.succ_lt_succ younger

/-- A key that a step uses comes first. -/
theorem InOrder.used {rest : List Bytes} (ordered : InOrder history rest)
    (used : ∀ other, latest.uses other = (key == other)) (apart : key ∉ rest) :
    InOrder (latest :: history) (key :: rest) := by
  have unused : ∀ other ∈ rest, latest.uses other = false := by
    intro other mem
    rw [used]
    exact beq_false_of_ne (ne_of_mem_of_not_mem mem apart).symm
  refine List.pairwise_cons.2 ⟨fun other mem => ?_, ordered.unused unused⟩
  rw [ageIn_cons, ageIn_cons, unused other mem, used, beq_self_eq_true]
  exact Nat.succ_pos _

theorem InOrder.nodup {keys : List Bytes} (ordered : InOrder history keys) : keys.Nodup :=
  List.Pairwise.imp (fun younger same => Nat.ne_of_lt younger (congrArg _ same)) ordered

end Order

namespace BoundedUse

/-- What holds of a bounded store in use: it has no more keys than it may, they stand in the
order in which they were last used, and what is under them is what the table has, too. -/
structure Sound (u : BoundedUse) : Prop where
  positive : 1 ≤ u.store.capacity
  within : u.store.size ≤ u.store.capacity
  ordered : InOrder u.history u.store.keys
  shows : ∀ key, u.store.peek? key = none ∨ u.store.peek? key = u.mirror.get? key

theorem get?_mirror_step (u : BoundedUse) (request : BoundedRequest) :
    (u.step request).mirror.get? = request.effect u.mirror.get? := by
  cases request with
  | use request => exact u.mirror.get?_serve request
  | enlarge capacity => rfl

variable {u : BoundedUse}

/-- The key used longest ago is the last one. -/
theorem oldest_iff_eq_last {kept : List Bytes} {last : Bytes}
    (ordered : InOrder u.history u.store.keys) (keys : u.store.keys = kept ++ [last])
    {key : Bytes} : u.Oldest key ↔ key = last := by
  unfold Oldest
  rw [keys] at ordered ⊢
  have younger : ∀ other ∈ kept, ageIn u.history other < ageIn u.history last := fun other mem =>
    (List.pairwise_append.1 ordered).2.2 other mem last (List.mem_singleton_self last)
  constructor
  · rintro ⟨mem, oldest⟩
    by_contra apart
    have before := younger key ((List.mem_append.1 mem).resolve_right (by simpa using apart))
    have after := oldest last (by simp) (Ne.symm apart)
    exact Nat.lt_asymm before after
  · rintro rfl
    refine ⟨by simp, fun other mem apart => ?_⟩
    exact younger other ((List.mem_append.1 mem).resolve_right (by simpa using apart))

namespace Sound

theorem opened (capacity : Nat) : (opened capacity).Sound where
  positive := Nat.le_max_right capacity 1
  within := Nat.zero_le _
  ordered := .nil
  shows _ := .inl rfl

variable (sound : u.Sound)

include sound

theorem ordered_step (request : BoundedRequest) :
    InOrder (u.step request).history (u.step request).store.keys := by
  rcases u.store.serve_renews_or_rests request with ⟨key, rest, renews⟩ | rests
  · show InOrder _ (u.store.serve request).2.keys
    rw [renews.keys]
    exact .used (sound.ordered.sublist renews.sublist) renews.used renews.apart
  · exact .unused (sound.ordered.sublist rests.sublist) fun key _ => rests.unused key

theorem step (request : BoundedRequest) : (u.step request).Sound where
  positive := Nat.le_trans sound.positive (u.store.capacity_le_serve request)
  within := BoundedStore.size_serve_le sound.positive sound.within request
  ordered := sound.ordered_step request
  shows key := by
    rw [get?_mirror_step]
    show (u.store.serve request).2.peek? key = none ∨ (u.store.serve request).2.peek? key = _
    rcases BoundedStore.serve_shows sound.within request key with lost | same
    · exact .inl lost
    · rw [same]
      exact request.effect_shows sound.shows key

theorem foldl (requests : List BoundedRequest) : (requests.foldl BoundedUse.step u).Sound := by
  induction requests generalizing u with
  | nil => exact sound
  | cons request rest ih => exact ih (sound.step request)

/-- A store that has keys has one that was used longest ago. -/
theorem existsUnique_oldest (nonempty : u.store.keys ≠ []) : ∃! key, u.Oldest key := by
  obtain ⟨kept, last, keys⟩ := (List.eq_nil_or_concat' u.store.keys).resolve_left nonempty
  exact ⟨last, (oldest_iff_eq_last sound.ordered keys).2 rfl,
    fun key oldest => (oldest_iff_eq_last sound.ordered keys).1 oldest⟩

/-- A key goes when it is removed, or when it is the one used longest ago and a new key finds
no room. -/
theorem lost_iff (request : BoundedRequest) {key : Bytes} (held : key ∈ u.store.keys) :
    key ∉ (u.step request).store.keys ↔
      request = .use (.delete key) ∨ u.store.Crowded request ∧ u.Oldest key := by
  show key ∉ (u.store.serve request).2.keys ↔ _
  by_cases crowded : u.store.Crowded request
  · obtain ⟨new, value, rfl, missing, full⟩ := id crowded
    obtain ⟨kept, last, keys, keys'⟩ :=
      BoundedStore.keys_serve_crowded sound.positive missing full value
    have distinct := sound.ordered.nodup
    have apart : key ≠ new := ne_of_mem_of_not_mem held missing
    rw [oldest_iff_eq_last sound.ordered keys, keys']
    rw [keys] at held distinct
    have fresh : last ∉ kept := fun mem =>
      (List.nodup_append.1 distinct).2.2 last mem last (List.mem_singleton_self last) rfl
    constructor
    · intro lost
      have gone : key ∉ kept := fun mem => lost (List.mem_cons_of_mem _ mem)
      exact .inr ⟨crowded, by simpa [gone] using held⟩
    · rintro (deletes | ⟨-, rfl⟩)
      · cases deletes
      · exact fun mem => (List.mem_cons.1 mem).elim apart fresh
  · have there : u.store.peek? key ≠ none := fun missing => u.store.notMem_keys.2 missing held
    rw [BoundedStore.notMem_keys, BoundedStore.peek?_serve sound.within crowded,
      request.effect_eq_none_iff there]
    simp [crowded]

/-- A store that lacks nothing goes on so as long as there is room for all. -/
theorem complete_step (complete : u.store.peek? = u.mirror.get?) {request : BoundedRequest}
    (fits : (u.step request).mirror.size ≤ (u.step request).store.capacity) :
    (u.step request).store.peek? = (u.step request).mirror.get? := by
  have free : ¬ u.store.Crowded request := by
    rintro ⟨new, value, rfl, missing, full⟩
    -- the table has all of these keys
    have distinct : (new :: u.store.keys).Nodup := List.nodup_cons.2 ⟨missing, sound.ordered.nodup⟩
    have known : new :: u.store.keys ⊆ (u.mirror.insert new value).keys := by
      intro key mem
      rcases List.mem_cons.1 mem with rfl | mem
      · exact Table.mem_keys_of_get? (u.mirror.get?_insert_self key value)
      · obtain ⟨value', held⟩ := u.store.mem_keys.1 mem
        have there : (u.mirror.insert new value).get? key = some value' := by
          rw [u.mirror.get?_insert_of_ne (ne_of_mem_of_not_mem mem missing), ← complete, held]
        exact Table.mem_keys_of_get? there
    have more := (distinct.subperm known).length_le
    have most : (u.mirror.insert new value).keys.length ≤ u.store.capacity := by
      rw [Table.keys, List.length_map]
      refine Nat.le_trans fits (Nat.le_of_eq ?_)
      show (u.store.put new value).capacity = u.store.capacity
      rw [u.store.put_of_new (u.store.notMem_keys.1 missing)]
    rw [List.length_cons, u.store.length_keys, full] at more
    exact Nat.not_succ_le_self _ (Nat.le_trans more most)
  rw [get?_mirror_step, ← complete]
  exact BoundedStore.peek?_serve sound.within free

end Sound

theorem capacity_le_foldl (u : BoundedUse) (requests : List BoundedRequest) :
    u.store.capacity ≤ (requests.foldl step u).store.capacity := by
  induction requests generalizing u with
  | nil => exact .refl
  | cons request rest ih =>
      exact Nat.le_trans (u.store.capacity_le_serve request) (ih (u.step request))

theorem sound_run (capacity : Nat) (requests : List BoundedRequest) :
    (run capacity requests).Sound :=
  (Sound.opened capacity).foldl requests

theorem run_concat (capacity : Nat) (requests : List BoundedRequest) (request : BoundedRequest) :
    run capacity (requests ++ [request]) = (run capacity requests).step request := by
  unfold run
  rw [List.foldl_append]
  rfl

/-- A store that always had room for all keys lacks nothing. -/
theorem complete_run {capacity : Nat} {requests : List BoundedRequest}
    (fits : ∀ earlier, earlier <+: requests →
      (run capacity earlier).mirror.size ≤ (run capacity earlier).store.capacity) :
    (run capacity requests).store.peek? = (run capacity requests).mirror.get? := by
  induction requests using List.reverseRecOn with
  | nil => rfl
  | append_singleton requests request ih =>
      have complete := ih fun earlier before =>
        fits earlier (before.trans (List.prefix_append _ _))
      have room := fits _ (List.prefix_refl _)
      rw [run_concat] at room ⊢
      exact (sound_run capacity requests).complete_step complete room

/-- A bounded store approximates a table. It never has more keys than its capacity, which is
at least one and is never lowered. What it answers is what the table answers, or that nothing is
there. A key goes when it is removed, or when a new key finds the store full and it is the one
key that was used longest ago. A capacity that is refused changes nothing, and a larger one
leaves all keys. As long as the table never had more keys than the capacity of the time, all
answers are those of the table. -/
theorem run_approximates_table (capacity : Nat) (requests : List BoundedRequest) :
    let u := run capacity requests
    (max capacity 1 ≤ u.store.capacity ∧ u.store.size ≤ u.store.capacity ∧
      ∀ request, u.store.capacity ≤ (u.step request).store.capacity) ∧
    (∀ request, (BoundedStore.access.serve u.store request).1 = request.answer (fun _ => none) ∨
      (BoundedStore.access.serve u.store request).1 =
        (MemoryStore.access.serve u.mirror request).1) ∧
    (∀ request, ∀ key ∈ u.store.keys, key ∉ (u.step request).store.keys ↔
      request = .use (.delete key) ∨ u.store.Crowded request ∧ u.Oldest key) ∧
    (u.store.keys ≠ [] → ∃! key, u.Oldest key) ∧
    (∀ larger, u.store.serve (.enlarge larger) =
      if u.store.capacity < larger then (.ok .done, { u.store with capacity := larger })
      else (.error (.capacityShrink larger u.store.capacity), u.store)) ∧
    ((∀ earlier, earlier <+: requests →
        (run capacity earlier).mirror.size ≤ (run capacity earlier).store.capacity) →
      ∀ request, (BoundedStore.access.serve u.store request).1 =
        (MemoryStore.access.serve u.mirror request).1) := by
  intro u
  have sound : u.Sound := sound_run capacity requests
  refine ⟨⟨?_, sound.within, fun request => u.store.capacity_le_serve request⟩, ?_,
    fun request key held => sound.lost_iff request held, sound.existsUnique_oldest,
    u.store.serve_enlarge, ?_⟩
  · exact capacity_le_foldl (opened capacity) requests
  · intro request
    rw [BoundedStore.serve_fst, MemoryStore.serve_fst]
    exact request.answer_shows sound.shows
  · intro fits request
    rw [BoundedStore.serve_fst, complete_run fits, MemoryStore.serve_fst]

end BoundedUse

end ContractHost
