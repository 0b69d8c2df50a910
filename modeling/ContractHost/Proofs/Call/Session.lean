/-
# Sessions

What a host can be asked from outside, one request after another: to deploy a contract,
to invoke one, and to abort the calls of one. Every request is answered before the next
is looked at. Statements about a host between two requests are statements about the hosts
that a session leads to.
-/

import ContractHost.Proofs.Call.Anatomy

namespace ContractHost

open Script (Machine Module)

/-- What a host can be asked from outside. -/
inductive HostRequest
  | deploy (fields : RequestFields)
  | invoke (method : String) (fields : RequestFields)
  | abort (contract message : String)

namespace Manager

variable {M P : Type} (manager : Manager M P)

/-- Serves a request. Aborting calls has no result that could be an error. -/
def serve (h : Host M) : HostRequest → Option (Except HostError Outcome) × Host M
  | .deploy fields =>
    let (result, h) := runFrom (manager.deploy fields) h
    (some result, h)
  | .invoke method fields =>
    let (result, h) := runFrom (manager.invokeContract method fields) h
    (some result, h)
  | .abort contract message => (none, h.abortRunning contract message)

theorem serve_deploy (h : Host M) (fields : RequestFields) :
    manager.serve h (.deploy fields) =
      (some (runFrom (manager.deploy fields) h).1, (runFrom (manager.deploy fields) h).2) := rfl

theorem serve_invoke (h : Host M) (method : String) (fields : RequestFields) :
    manager.serve h (.invoke method fields) =
      (some (runFrom (manager.invokeContract method fields) h).1,
        (runFrom (manager.invokeContract method fields) h).2) := rfl

/-- The host after a session. -/
def session (h : Host M) (requests : List HostRequest) : Host M :=
  requests.foldl (fun h request => (manager.serve h request).2) h

/-- What every request preserves holds between the requests of a session. -/
theorem session_induction (P : Host M → Prop)
    (step : ∀ h request, P h → P (manager.serve h request).2) {h : Host M}
    (start : P h) (requests : List HostRequest) : P (manager.session h requests) := by
  induction requests generalizing h with
  | nil => exact start
  | cons request rest ih => exact ih (step h request start)

end Manager

/-- A host before its first request. -/
def Host.fresh (store : Store) (surroundings : Surroundings) : Host Module :=
  { store, surroundings }

/-- What is wrong with a name is the name. -/
theorem Naming.eq_invalidName_of_validate {name : String} {e : HostError}
    (refused : Naming.validate name = .error e) : e = .invalidName name := by
  unfold Naming.validate at refused
  split at refused
  · cases refused
  · cases refused
    rfl

namespace CallRequest

/-- The call that deploys a contract. -/
def initSetup (request : CallRequest) : CallSetup where
  contract := request.contract
  method := initMethod
  args := request.args
  language := request.language
  caller := request.caller
  depth := 0

/-- The call that invokes a method. -/
def callSetup (request : CallRequest) (method : String) : CallSetup where
  contract := request.contract
  method
  args := request.args
  language := request.language
  caller := request.caller
  depth := 0

/-- Only names that contracts may have are accepted. -/
theorem validate_of_contractName {fields : RequestFields} {name : String}
    (named : contractName fields = .ok name) : Naming.validate name = .ok () := by
  obtain ⟨octets, _, decoded⟩ := except_bind_eq_ok.1 named
  cases text : Utf8.decode? octets with
  | none =>
      rw [text] at decoded
      cases decoded
  | some found =>
      rw [text] at decoded
      obtain ⟨_, valid, same⟩ := except_bind_eq_ok.1 decoded
      cases same
      exact valid

theorem validate_of_parse {fields : RequestFields} {withCode : Bool} {request : CallRequest}
    (parsed : parse fields withCode = .ok request) :
    Naming.validate request.contract = .ok () := by
  obtain ⟨contract, named, rest⟩ := except_bind_eq_ok.1 parsed
  cases withCode
  all_goals
    obtain ⟨code, _, rest⟩ := except_bind_eq_ok.1 rest
    obtain ⟨language, _, rest⟩ := except_bind_eq_ok.1 rest
    obtain ⟨args, _, rest⟩ := except_bind_eq_ok.1 rest
    obtain ⟨caller, _, same⟩ := except_bind_eq_ok.1 rest
    cases same
    exact validate_of_contractName named

/-- Nothing but the validation of a request can fail here. -/
def Validates {α : Type} (reading : Except HostError α) : Prop :=
  ∀ e, reading = .error e → e.errorClass = .validation

theorem Validates.bind {α β : Type} {first : Except HostError α} {rest : α → Except HostError β}
    (validates : Validates first) (next : ∀ x, Validates (rest x)) : Validates (first >>= rest) := by
  intro e failed
  cases first with
  | error _ =>
      cases failed
      exact validates _ rfl
  | ok x => exact next x e failed

theorem validates_pure {α : Type} (x : α) : Validates (pure x) := nofun

theorem validates_required (fields : RequestFields) (name : String) :
    Validates (required fields name) := by
  intro e failed
  unfold required at failed
  cases found : fields.get? name with
  | some value => simp [found] at failed
  | none =>
      rw [found] at failed
      cases failed
      rfl

theorem validates_requiredText (fields : RequestFields) (name : String) :
    Validates (requiredText fields name) := by
  refine (validates_required fields name).bind fun octets => ?_
  cases Utf8.decode? octets with
  | some text => exact validates_pure text
  | none => rintro _ ⟨⟩; rfl

theorem validates_contractName (fields : RequestFields) : Validates (contractName fields) := by
  refine (validates_required fields _).bind fun octets => ?_
  cases Utf8.decode? octets with
  | some name =>
      refine Validates.bind (fun e failed => ?_) fun _ => validates_pure name
      unfold Naming.validate at failed
      split at failed
      · cases failed
      · cases failed
        rfl
  | none => rintro _ ⟨⟩; rfl

theorem validates_arguments (fields : RequestFields) : Validates (arguments fields) := by
  refine (validates_required fields _).bind fun octets => ?_
  cases decodeArgs? octets with
  | some args => exact validates_pure args
  | none => rintro _ ⟨⟩; rfl

/-- A request is refused for its fields only. -/
theorem validates_parse (fields : RequestFields) (withCode : Bool) :
    Validates (parse fields withCode) := by
  refine (validates_contractName fields).bind fun contract => ?_
  have rest (code : Bytes) : Validates do
      let language ← requiredText fields "language"
      let args ← arguments fields
      let caller ← requiredText fields "caller"
      return ({ contract, code, language, args, caller } : CallRequest) := by
    refine (validates_requiredText fields _).bind fun language => ?_
    refine (validates_arguments fields).bind fun args => ?_
    exact (validates_requiredText fields _).bind fun caller => validates_pure _
  cases withCode with
  | true => exact (validates_required fields _).bind rest
  | false => exact (validates_pure []).bind rest

end CallRequest

/-- A stall whose program has a single operation, as it is deployed. -/
def stallRequest : CallRequest where
  contract := "stall"
  code := Utf8.encode "\x7b\"exports\":\x7b\"_initialize\":[\x7b\"op\":\"output\"\x7d]\x7d\x7d"
  language := "c"
  args := .empty
  caller := "alice"

/-- The fields of that request. -/
def stallFields : RequestFields :=
  .ofList [("contract_name", Utf8.encode stallRequest.contract),
    ("contract_code", stallRequest.code), ("language", Utf8.encode stallRequest.language),
    ("args", Utf8.encode "\x7b\x7d"), ("caller", Utf8.encode stallRequest.caller)]

theorem parse_stall : CallRequest.parse stallFields true = .ok stallRequest := by decide +kernel

namespace Call

variable (config : Config)

/-- Who serves the calls of a call from outside. -/
def outermost : Invoker Module :=
  (Manager.scripted config).nestedCall config.maxCallDepth.toNat

/-- The host when a deployment is counted as started. -/
def deploying (contract : String) (h : Host Module) : Host Module :=
  { h.note (.started contract) with stats.deploys := h.stats.deploys + 1 }

theorem runFrom_deployAccepted (request : CallRequest) (h : Host Module) :
    runFrom ((Manager.scripted config).deployAccepted request) h =
      match runFrom (HostM.putKey (StoreKey.code request.contract) request.code) h with
      | (.error fault, g) => (.error (.storage fault), g)
      | (.ok (), g) =>
        match runFrom (HostM.putKey (StoreKey.description request.contract)
          (Utf8.encode request.language)) g with
        | (.error fault, f) => (.error (.storage fault), f)
        | (.ok (), f) =>
          run config (outermost config) .compile (created request.initSetup f)
            (Manager.beginCall request.initSetup f) := by
  unfold Manager.deployAccepted
  rw [runFrom_bind, runFrom_mapError]
  rcases runFrom (HostM.putKey (StoreKey.code request.contract) request.code) h with ⟨e | _, g⟩
  · rfl
  · rw [mapError_ok]
    dsimp only
    rw [runFrom_bind, runFrom_mapError]
    rcases runFrom (HostM.putKey (StoreKey.description request.contract) _) g with ⟨e | _, f⟩
    · rfl
    · exact runFrom_runCall config _ _ _ f

/-- How the deployment of an accepted request ends: with the first or the second write
failing, or with the end of the call of the initial method. -/
theorem deployAccepted_cases {request : CallRequest} {h : Host Module}
    (Closed : Except HostError Outcome → Host Module → Prop)
    (unwritten : ∀ fault g, h.Quiet g → Closed (.error (.storage fault)) g)
    (halfway : ∀ fault f g, h.Stored (StoreKey.code request.contract) request.code f →
      f.Quiet g → Closed (.error (.storage fault)) g)
    (written : ∀ f g, h.Stored (StoreKey.code request.contract) request.code f →
      f.Stored (StoreKey.description request.contract) (Utf8.encode request.language) g →
      let p := run config (outermost config) .compile (created request.initSetup g)
        (Manager.beginCall request.initSetup g)
      Closed p.1 p.2) :
    let p := runFrom ((Manager.scripted config).deployAccepted request) h
    Closed p.1 p.2 := by
  rw [runFrom_deployAccepted]
  match runFrom (HostM.putKey (StoreKey.code request.contract) request.code) h,
    Host.putKey_ends (StoreKey.code request.contract) request.code h with
  | (.error fault, g), quiet => exact unwritten fault g quiet
  | (.ok (), f), stored =>
      dsimp only
      match runFrom (HostM.putKey (StoreKey.description request.contract) _) f,
        Host.putKey_ends (StoreKey.description request.contract)
          (Utf8.encode request.language) f with
      | (.error fault, g), quiet => exact halfway fault f g stored quiet
      | (.ok (), g), described => exact written f g stored described

theorem runFrom_deploy (fields : RequestFields) (h : Host Module) :
    runFrom ((Manager.scripted config).deploy fields) h =
      match CallRequest.parse fields true with
      | .error e => (.error e, h)
      | .ok request =>
        let p := runFrom ((Manager.scripted config).deployAccepted request)
          (deploying request.contract h)
        (p.1, Manager.finish request.contract p.1 p.2) := by
  unfold Manager.deploy
  rw [runFrom_bind, runFrom_liftExcept]
  cases CallRequest.parse fields true with
  | error e => rfl
  | ok request => rfl

theorem runFrom_invokeContract (method : String) (fields : RequestFields) (h : Host Module) :
    runFrom ((Manager.scripted config).invokeContract method fields) h =
      match CallRequest.parse fields false with
      | .error e => (.error e, h)
      | .ok request =>
        let g := invoked request.contract h
        let p := run config (outermost config) .reuse (created (request.callSetup method) g)
          (Manager.beginCall (request.callSetup method) g)
        (p.1, Manager.finish request.contract p.1 p.2) := by
  unfold Manager.invokeContract
  rw [runFrom_bind, runFrom_liftExcept]
  cases CallRequest.parse fields false with
  | error e => rfl
  | ok request => exact runFrom_invoke config _ (request.callSetup method) h

/-! ## What requests keep -/

/-- A condition on hosts that is kept while requests are served. More may be known before the
call that a request for a contract asks for. -/
structure Persists (P : Host Module → Prop) (Before : String → Host Module → Prop) : Prop where
  deployed : ∀ {h} contract, P h → Before contract (deploying contract h)
  invoked : ∀ {h} contract, P h → Before contract (invoked contract h)
  quiet : ∀ {contract h g}, h.Quiet g → Before contract h → Before contract g
  stored : ∀ {contract key value h g}, h.Stored key value g → Before contract h →
    Before contract g
  holds : ∀ {contract h}, Before contract h → P h
  ran : ∀ {h setup} load, Naming.validate setup.contract = .ok () → Before setup.contract h →
    P (run config (outermost config) load (created setup h) (Manager.beginCall setup h)).2
  finish : ∀ {h} contract result, P h → P (Manager.finish contract result h)
  abort : ∀ {h} contract message, P h → P (h.abortRunning contract message)

namespace Persists

variable {config} {P : Host Module → Prop} {Before : String → Host Module → Prop}
  (persists : Persists config P Before) {h : Host Module}

include persists

/-- Serving a request keeps such a condition. -/
theorem serve (holds : P h) (request : HostRequest) :
    P ((Manager.scripted config).serve h request).2 := by
  cases request with
  | deploy fields =>
      rw [Manager.serve_deploy, runFrom_deploy]
      cases parsed : CallRequest.parse fields true with
      | error e => exact holds
      | ok request =>
          have valid : Naming.validate request.initSetup.contract = .ok () :=
            CallRequest.validate_of_parse parsed
          have counted := persists.deployed request.contract holds
          refine persists.finish _ _ (deployAccepted_cases config (fun _ => P) ?_ ?_ ?_)
          · exact fun fault g quiet => persists.holds (persists.quiet quiet counted)
          · intro fault f g stored quiet
            exact persists.holds (persists.quiet quiet (persists.stored stored counted))
          · intro f g stored described
            exact persists.ran .compile valid
              (persists.stored described (persists.stored stored counted))
  | invoke method fields =>
      rw [Manager.serve_invoke, runFrom_invokeContract]
      cases parsed : CallRequest.parse fields false with
      | error e => exact holds
      | ok request =>
          have valid : Naming.validate (request.callSetup method).contract = .ok () :=
            CallRequest.validate_of_parse parsed
          have counted := persists.invoked request.contract holds
          exact persists.finish _ _ (persists.ran .reuse valid counted)
  | abort contract message => exact persists.abort contract message holds

theorem session (holds : P h) (requests : List HostRequest) :
    P ((Manager.scripted config).session h requests) :=
  Manager.session_induction _ P (fun _ request holds => persists.serve holds request) holds requests

end Persists

end Call

end ContractHost
