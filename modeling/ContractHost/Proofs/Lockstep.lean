/-
# Actions, run once or side by side

An action on a state ends with a value or an error, and with a state in either case.
`Ends` says of one run what holds at its end; `Both` says of two runs that they end
alike: both with values, or both with the same error. Each has one rule for every way
in which actions are put together, so statements about composed actions follow the text
of the action.

One run beside itself is the diagonal of two, which is how facts about a single run are
read off the theory of two.

Sometimes two runs end alike only as long as the first one does not do a certain thing.
`Unless` says that: what the first run has entered into its journal may excuse the second.
`UpTo` lets the first run fail with an error of a certain kind instead.
-/

import ContractHost.Host

namespace ContractHost

/-- True of the failures that a contract reports itself. To the contract that called it,
such a failure is an answer. -/
def HostError.isReport : HostError → Bool
  | .contract .. => true
  | _ => false

/-- True of the failures that hosts and programs come to by themselves: no contract reports
them, and they are not about the form of a request. -/
def HostError.isOwn : HostError → Bool
  | .contract .. | .missingField _ | .malformedArgs _ | .invalidName _ => false
  | _ => true

theorem HostError.isReport_of_isOwn {e : HostError} (own : e.isOwn) : e.isReport = false := by
  cases e <;> first | rfl | cases own

theorem HostError.errorClass_of_isOwn {e : HostError} (own : e.isOwn) :
    e.errorClass ≠ .validation := by
  intro validation
  cases e <;> first | (cases validation; done) | cases own

variable {σ τ ε ε' α β γ δ : Type}

/-- A composed computation ends well if both parts do. -/
theorem except_bind_eq_ok {ε α β : Type} {x : Except ε α} {f : α → Except ε β} {y : β} :
    x >>= f = .ok y ↔ ∃ z, x = .ok z ∧ f z = .ok y := by
  cases x with
  | error e => simp [bind, Except.bind]
  | ok z => simp [bind, Except.bind]

/-- The end of an action that is run from a state. -/
def runFrom (action : ExceptT ε (StateM σ) α) (s : σ) : Except ε α × σ := action.run s

@[simp]
theorem runFrom_pure (x : α) (s : σ) :
    runFrom (pure x : ExceptT ε (StateM σ) α) s = (.ok x, s) := rfl

@[simp]
theorem runFrom_throw (e : ε) (s : σ) :
    runFrom (throw e : ExceptT ε (StateM σ) α) s = (.error e, s) := rfl

@[simp]
theorem runFrom_get (s : σ) :
    runFrom (get : ExceptT ε (StateM σ) σ) s = (.ok s, s) := rfl

@[simp]
theorem runFrom_modify (f : σ → σ) (s : σ) :
    runFrom (modify f : ExceptT ε (StateM σ) PUnit) s = (.ok ⟨⟩, f s) := rfl

@[simp]
theorem runFrom_modifyGet (f : σ → α × σ) (s : σ) :
    runFrom (modifyGet f : ExceptT ε (StateM σ) α) s = (.ok (f s).1, (f s).2) := rfl

@[simp]
theorem runFrom_liftExcept (result : Except ε α) (s : σ) :
    runFrom (liftM result : ExceptT ε (StateM σ) α) s = (result, s) := rfl

@[simp]
theorem runFrom_liftState (action : StateM σ α) (s : σ) :
    runFrom (liftM action : ExceptT ε (StateM σ) α) s = (.ok (action s).1, (action s).2) := rfl

@[simp]
theorem runFrom_lift (action : StateM σ α) (s : σ) :
    runFrom (ExceptT.lift action : ExceptT ε (StateM σ) α) s =
      (.ok (action s).1, (action s).2) := rfl

/-- An action goes on from where the one before it ended well. -/
theorem runFrom_bind (action : ExceptT ε (StateM σ) α) (next : α → ExceptT ε (StateM σ) β)
    (s : σ) :
    runFrom (action >>= next) s =
      match runFrom action s with
      | (.ok x, s') => runFrom (next x) s'
      | (.error e, s') => (.error e, s') := by
  change (ExceptT.bindCont next (runFrom action s).1) (runFrom action s).2 = _
  rcases runFrom action s with ⟨x | e, s'⟩ <;> rfl

/-! An action that cannot fail is a function, and is put together like one. -/

theorem runState_pure (x : α) (s : σ) : (pure x : StateM σ α) s = (x, s) := rfl

theorem runState_get (s : σ) : (get : StateM σ σ) s = (s, s) := rfl

theorem runState_modify (f : σ → σ) (s : σ) : (modify f : StateM σ PUnit) s = (⟨⟩, f s) := rfl

theorem runState_bind (action : StateM σ α) (next : α → StateM σ β) (s : σ) :
    (action >>= next) s = next (action s).1 (action s).2 := rfl

variable {M : Type}

theorem mapError_ok (f : ε → ε') (x : α) : (Except.ok x).mapError f = .ok x := rfl

@[simp]
theorem runFrom_mapError (f : ε → ε') (action : HostM M ε α) (h : Host M) :
    runFrom (action.mapError f) h = ((runFrom action h).1.mapError f, (runFrom action h).2) := by
  change (Except.mapError f (runFrom action h).1, (runFrom action h).2) = _
  rfl

@[simp]
theorem runFrom_attempt (action : HostM M ε α) (h : Host M) :
    runFrom (action.attempt : HostM M ε' (Except ε α)) h =
      (.ok (runFrom action h).1, (runFrom action h).2) := rfl

@[simp]
theorem runFrom_note (event : Event) (h : Host M) :
    runFrom (HostM.note event : HostM M ε Unit) h = (.ok (), h.note event) := rfl

/-! ## One run -/

/-- A run ends with a value and a state that satisfy `Ok`, or with an error and a state
that satisfy `Fail`. -/
def Ends (Ok : α → σ → Prop) (Fail : ε → σ → Prop) : Except ε α × σ → Prop
  | (.ok x, s) => Ok x s
  | (.error e, s) => Fail e s

namespace Ends

variable {Ok : α → σ → Prop} {Fail : ε → σ → Prop}

theorem mono {Ok' : α → σ → Prop} {Fail' : ε → σ → Prop} {result : Except ε α × σ}
    (h : Ends Ok Fail result) (ok : ∀ x s, Ok x s → Ok' x s)
    (fail : ∀ e s, Fail e s → Fail' e s) : Ends Ok' Fail' result := by
  match result, h with
  | (.ok x, s), h => exact ok x s h
  | (.error e, s), h => exact fail e s h

theorem and {Ok' : α → σ → Prop} {Fail' : ε → σ → Prop} {result : Except ε α × σ}
    (h : Ends Ok Fail result) (h' : Ends Ok' Fail' result) :
    Ends (fun x s => Ok x s ∧ Ok' x s) (fun e s => Fail e s ∧ Fail' e s) result := by
  match result, h, h' with
  | (.ok _, _), h, h' => exact ⟨h, h'⟩
  | (.error _, _), h, h' => exact ⟨h, h'⟩

/-- What holds of the state in either case. -/
theorem state {P : σ → Prop} {result : Except ε α × σ}
    (h : Ends (fun _ => P) (fun _ => P) result) : P result.2 := by
  match result, h with
  | (.ok _, _), h => exact h
  | (.error _, _), h => exact h

theorem bind {Ok' : β → σ → Prop} {action : ExceptT ε (StateM σ) α}
    {next : α → ExceptT ε (StateM σ) β} {s : σ} (h : Ends Ok Fail (runFrom action s))
    (rest : ∀ x s', Ok x s' → Ends Ok' Fail (runFrom (next x) s')) :
    Ends Ok' Fail (runFrom (action >>= next) s) := by
  rw [runFrom_bind]
  match runFrom action s, h with
  | (.ok x, s'), h => exact rest x s' h
  | (.error _, _), h => exact h

theorem mapError {Ok : α → Host M → Prop} {Fail : ε' → Host M → Prop} {f : ε → ε'}
    {action : HostM M ε α} {h : Host M}
    (ends : Ends Ok (fun e => Fail (f e)) (runFrom action h)) :
    Ends Ok Fail (runFrom (action.mapError f) h) := by
  rw [runFrom_mapError]
  match runFrom action h, ends with
  | (.ok _, _), ends => exact ends
  | (.error _, _), ends => exact ends

end Ends

/-! ## Two runs -/

/-- Two runs end alike: both with values, which satisfy `Ok` together with the states, or
both with one and the same error, which satisfies `Fail` together with the states. -/
def Both (Ok : α → β → σ → τ → Prop) (Fail : ε → σ → τ → Prop) :
    Except ε α × σ → Except ε β × τ → Prop
  | (.ok x, s), (.ok y, t) => Ok x y s t
  | (.error e, s), (.error d, t) => e = d ∧ Fail e s t
  | _, _ => False

namespace Both

variable {Ok : α → β → σ → τ → Prop} {Fail : ε → σ → τ → Prop}

theorem mono {Ok' : α → β → σ → τ → Prop} {Fail' : ε → σ → τ → Prop}
    {first : Except ε α × σ} {second : Except ε β × τ} (h : Both Ok Fail first second)
    (ok : ∀ x y s t, Ok x y s t → Ok' x y s t)
    (fail : ∀ e s t, Fail e s t → Fail' e s t) : Both Ok' Fail' first second := by
  match first, second, h with
  | (.ok x, s), (.ok y, t), h => exact ok x y s t h
  | (.error e, s), (.error _, t), ⟨same, h⟩ => exact ⟨same, fail e s t h⟩

theorem bind {Ok' : γ → δ → σ → τ → Prop} {first : ExceptT ε (StateM σ) α}
    {second : ExceptT ε (StateM τ) β} {next : α → ExceptT ε (StateM σ) γ}
    {next' : β → ExceptT ε (StateM τ) δ} {s : σ} {t : τ}
    (h : Both Ok Fail (runFrom first s) (runFrom second t))
    (rest : ∀ x y s' t', Ok x y s' t' →
      Both Ok' Fail (runFrom (next x) s') (runFrom (next' y) t')) :
    Both Ok' Fail (runFrom (first >>= next) s) (runFrom (second >>= next') t) := by
  rw [runFrom_bind, runFrom_bind]
  match runFrom first s, runFrom second t, h with
  | (.ok x, s'), (.ok y, t'), h => exact rest x y s' t' h
  | (.error _, _), (.error _, _), h => exact h

theorem mapError {Ok : α → β → Host M → Host M → Prop} {Fail : ε' → Host M → Host M → Prop}
    {f : ε → ε'} {first : HostM M ε α} {second : HostM M ε β} {h k : Host M}
    (both : Both Ok (fun e => Fail (f e)) (runFrom first h) (runFrom second k)) :
    Both Ok Fail (runFrom (first.mapError f) h) (runFrom (second.mapError f) k) := by
  rw [runFrom_mapError, runFrom_mapError]
  match runFrom first h, runFrom second k, both with
  | (.ok _, _), (.ok _, _), both => exact both
  | (.error _, _), (.error _, _), ⟨same, both⟩ => exact ⟨congrArg f same, both⟩

/-- What two runs end with is where they ended. -/
theorem tracked {Ok : α → β → σ → τ → Prop} {Fail : ε → σ → τ → Prop}
    {first : Except ε α × σ} {second : Except ε β × τ} (h : Both Ok Fail first second) :
    Both (fun x y s t => Ok x y s t ∧ first = (.ok x, s) ∧ second = (.ok y, t)) Fail
      first second := by
  match first, second, h with
  | (.ok _, _), (.ok _, _), h => exact ⟨h, rfl, rfl⟩
  | (.error _, _), (.error _, _), h => exact h

/-- A run beside itself. -/
theorem of_ends {Ok : α → σ → Prop} {Fail : ε → σ → Prop} {result : Except ε α × σ}
    (h : Ends Ok Fail result) :
    Both (fun x y s t => x = y ∧ s = t ∧ Ok x s) (fun e s t => s = t ∧ Fail e s)
      result result := by
  match result, h with
  | (.ok _, _), h => exact ⟨rfl, rfl, h⟩
  | (.error _, _), h => exact ⟨rfl, rfl, h⟩

end Both

/-! ## A second run that may be excused -/

/-- What may happen in a first run so that nothing is asked of the second. Once it has
happened, it has happened for good. -/
structure Excuse where
  Given : List Event → Prop
  lasts : ∀ {early events}, early <:+ events → Given early → Given events

/-- Nothing excuses the second run. -/
def Excuse.none : Excuse where
  Given _ := False
  lasts _ given := given

/-- Two runs end alike, unless the state in which the first one ends excuses the second. -/
def Unless (X : σ → Prop) (Ok : α → β → σ → τ → Prop) (Fail : ε → σ → τ → Prop)
    (first : Except ε α × σ) (second : Except ε β × τ) : Prop :=
  X first.2 ∨ Both Ok Fail first second

namespace Unless

variable {X : σ → Prop} {Ok : α → β → σ → τ → Prop} {Fail : ε → σ → τ → Prop}

/-- What ends alike without an excuse goes on as what follows does. -/
theorem of_both_bind {Ok' : γ → δ → σ → τ → Prop} {first : ExceptT ε (StateM σ) α}
    {second : ExceptT ε (StateM τ) β} {next : α → ExceptT ε (StateM σ) γ}
    {next' : β → ExceptT ε (StateM τ) δ} {s : σ} {t : τ}
    (h : Both Ok Fail (runFrom first s) (runFrom second t))
    (rest : ∀ x y s' t', Ok x y s' t' →
      Unless X Ok' Fail (runFrom (next x) s') (runFrom (next' y) t')) :
    Unless X Ok' Fail (runFrom (first >>= next) s) (runFrom (second >>= next') t) := by
  rw [runFrom_bind, runFrom_bind]
  match runFrom first s, runFrom second t, h with
  | (.ok x, s'), (.ok y, t'), ok => exact rest x y s' t' ok
  | (.error _, _), (.error _, _), fail => exact .inr fail

/-- What follows has to leave an excuse standing. -/
theorem bind {Ok' : γ → δ → σ → τ → Prop} {first : ExceptT ε (StateM σ) α}
    {second : ExceptT ε (StateM τ) β} {next : α → ExceptT ε (StateM σ) γ}
    {next' : β → ExceptT ε (StateM τ) δ} {s : σ} {t : τ}
    (h : Unless X Ok Fail (runFrom first s) (runFrom second t))
    (lasts : ∀ x s', X s' → X (runFrom (next x) s').2)
    (rest : ∀ x y s' t', Ok x y s' t' →
      Unless X Ok' Fail (runFrom (next x) s') (runFrom (next' y) t')) :
    Unless X Ok' Fail (runFrom (first >>= next) s) (runFrom (second >>= next') t) := by
  rcases h with excused | both
  · left
    rw [runFrom_bind]
    revert excused
    rcases runFrom first s with ⟨e | x, s'⟩
    · exact fun excused => excused
    · exact lasts x s'
  · exact of_both_bind both rest

end Unless

/-! ## A first run that may break off -/

/-- The first of two runs breaks off, with an error and in a state that satisfy `Off`, or the
second one ends with the same result and in a state that is related to that of the first. -/
def UpTo (Off : ε → σ → Prop) (S : σ → τ → Prop) (first : Except ε α × σ)
    (second : Except ε α × τ) : Prop :=
  (∃ e, first.1 = .error e ∧ Off e first.2) ∨ first.1 = second.1 ∧ S first.2 second.2

namespace UpTo

theorem bind {Off : ε → σ → Prop} {S : σ → τ → Prop} {first : ExceptT ε (StateM σ) α}
    {second : ExceptT ε (StateM τ) α} {next : α → ExceptT ε (StateM σ) β}
    {next' : α → ExceptT ε (StateM τ) β} {s : σ} {t : τ}
    (h : UpTo Off S (runFrom first s) (runFrom second t))
    (rest : ∀ x s' t', S s' t' → UpTo Off S (runFrom (next x) s') (runFrom (next' x) t')) :
    UpTo Off S (runFrom (first >>= next) s) (runFrom (second >>= next') t) := by
  rw [runFrom_bind, runFrom_bind]
  revert h
  rcases runFrom first s with ⟨result, s'⟩
  rcases runFrom second t with ⟨result', t'⟩
  rintro (⟨e, rfl, off⟩ | ⟨rfl, related⟩)
  · exact .inl ⟨e, rfl, off⟩
  · cases result with
    | error e => exact .inr ⟨rfl, related⟩
    | ok x => exact rest x s' t' related

theorem mapError {Off : ε' → Host M → Prop} {S : Host M → Host M → Prop} {f : ε → ε'}
    {first second : HostM M ε α} {h k : Host M}
    (upTo : UpTo (fun e => Off (f e)) S (runFrom first h) (runFrom second k)) :
    UpTo Off S (runFrom (first.mapError f) h) (runFrom (second.mapError f) k) := by
  rw [runFrom_mapError, runFrom_mapError]
  rcases upTo with ⟨e, failed, off⟩ | ⟨same, related⟩
  · exact .inl ⟨f e, by rw [failed]; rfl, off⟩
  · exact .inr ⟨by rw [same], related⟩

end UpTo

end ContractHost
