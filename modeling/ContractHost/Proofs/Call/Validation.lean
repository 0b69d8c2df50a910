/-
# Errors over the form of a request

A request with missing fields, malformed arguments or a name that no contract can have is
refused before anything is done for it. An accepted request is not malformed, and yet it may
end with such an error: programs name the contracts that they call, and where one of them asks
for a call of a contract that cannot exist the error takes all calls around it with it. By
then the request was counted, and whatever its programs did before is done.

The journal tells the two apart. Here it is followed through a call tree which program asked
for the call that could not be.
-/

import ContractHost.Proofs.Call.Course

namespace ContractHost

open Script (Machine Module)

namespace Call

variable {start h g : Host Module} {e : HostError}

/-- Since the start a program asked for a call of a contract that cannot exist, and was answered
with an error. -/
def Misnamed (start : Host Module) (e : HostError) (h : Host Module) : Prop :=
  ∃ events caller name method args, h.journal = events ++ start.journal ∧
    Naming.validate name = .error e ∧
    .answered caller (.contractCall SyscallRequest.contractModule name method args) (.error e) ∈
      events

/-- The journal only grows, so what is on record stays there. -/
theorem Misnamed.lasts (misnamed : Misnamed start e h) (grows : h.journal <:+ g.journal) :
    Misnamed start e g := by
  obtain ⟨events, caller, name, method, args, journal, refused, mem⟩ := misnamed
  obtain ⟨later, grown⟩ := grows
  refine ⟨later ++ events, caller, name, method, args, ?_, refused, List.mem_append_right _ mem⟩
  rw [← grown, journal, List.append_assoc]

/-- Since the start, if a call ended with an error over a form, a program is to blame. -/
def Blamed (start : Host Module) (result : Except HostError Outcome) (h : Host Module) : Prop :=
  start.journal <:+ h.journal ∧
    ∀ e, result = .error e → e.errorClass = .validation → Misnamed start e h

theorem Blamed.lasts {result : Except HostError Outcome} (blamed : Blamed start result h)
    (grows : h.journal <:+ g.journal) : Blamed start result g :=
  ⟨blamed.1.trans grows, fun e failed form => (blamed.2 e failed form).lasts grows⟩

/-- Of the failures inside a call, a program is to blame for those over a form. -/
def blames (start : Host Module) : Condition ContextId where
  context id := id
  Holds _ h := start.journal <:+ h.journal
  Broken _ e h := start.journal <:+ h.journal ∧ (e.errorClass = .validation → Misnamed start e h)

/-- The verdict on a program that ran to its end is not about a form. -/
theorem form_of_verdict {config : Config} {cs : Contexts} {created : Context} {used : Resources}
    (failed : verdict config cs created used = .error e) : e.errorClass ≠ .validation := by
  unfold verdict at failed
  dsimp only at failed
  split at failed
  · cases failed
    nofun
  · split at failed
    · cases failed
      nofun
    · split at failed
      · cases failed
        nofun
      · cases failed

section Begins

variable {config : Config} {load : CodeLoad} {ctx : Context}

/-- What a call ends with is what its program came to, an abort, or a verdict. -/
theorem blamed_conclude {code : CompiledCode Module} {result : Except HostError Unit} {m : Machine}
    (ended : (blames start).Ended ctx.id result h) (signal : SignalId) :
    Blamed start (conclude config ctx code (overruled h.signals signal result) m h).1 h := by
  have since : start.journal <:+ h.journal := by
    cases result with
    | ok _ => exact ended
    | error e => exact ended.1
  refine ⟨since, fun e failed form => ?_⟩
  rcases overruled_cases h.signals signal result with stands | ⟨reason, aborted⟩
  · rw [stands] at failed
    cases result with
    | ok _ => exact absurd form (form_of_verdict failed)
    | error e =>
        cases failed
        exact ended.2 form
  · rw [aborted] at failed
    cases failed
    cases form

/-- However a call ends, a program is to blame if it is over a form. -/
theorem begins_of_grown {Closed : Except HostError Outcome → Host Module → Prop}
    (grown : start.journal <:+ h.journal)
    (closed : ∀ result g, Blamed start result g → Closed result g) :
    (blames start).Begins config Closed load ctx h := by
  refine Condition.Begins.of_stages ctx.id rfl ?_ ?_ ?_
  · intro e g own backstage
    refine closed _ _ ⟨grown.trans (backstage.grows.trans (suffix_endCall ..)), ?_⟩
    rintro _ ⟨⟩ form
    exact absurd form (HostError.errorClass_of_isOwn own)
  · exact fun g backstage => grown.trans (backstage.grows.trans (suffix_ready ..))
  · intro code g result m f _ ended _
    exact closed _ _ ((blamed_conclude ended g.signals.next).lasts
      ((suffix_conclude ..).trans (suffix_endCall ..)))

end Begins

theorem blames_upheld (config : Config) (start : Host Module) : Upheld config (blames start) where
  broken e own grown := ⟨grown, fun form => absurd form (HostError.errorClass_of_isOwn own)⟩
  acted behaves grown := grown.trans behaves.grows
  refused := by
    intro id h module contract method args e refuses grown
    refine ⟨grown.trans (List.suffix_cons _ _), fun form => ?_⟩
    rcases refuses with own | ⟨rfl, refused⟩
    · exact absurd form (HostError.errorClass_of_isOwn own)
    · obtain ⟨events, journal⟩ := grown
      exact ⟨_ :: events, id, contract, method, args, congrArg (List.cons _) journal.symm, refused,
        List.mem_cons_self⟩
  called := by
    intro id h setup args _ grown
    have began : start.journal <:+ (Manager.beginCall setup (invoked setup.contract h)).journal :=
      grown.trans ((List.suffix_cons _ _).trans (List.suffix_cons _ _))
    refine begins_of_grown began fun result g blamed => ?_
    have counted := blamed.lasts (suffix_finish setup.contract result g)
    have noted (event : Event) :
        start.journal <:+ event :: (Manager.finish setup.contract result g).journal :=
      counted.1.trans (List.suffix_cons _ _)
    have failed (e : HostError) (ended : result = .error e) :
        (blames start).Broken id e ((Manager.finish setup.contract result g).note
          (.answered id (setup.request args) (.error e))) :=
      ⟨noted _, fun form => (counted.2 e ended form).lasts (List.suffix_cons _ _)⟩
    match result with
    | .ok _ => exact noted _
    | .error e => cases e <;> first | exact noted _ | exact failed _ rfl

/-- A request that is refused for its form leaves the host as it is. -/
theorem serve_refused {config : Config} {request : HostRequest}
    (refused : request.parsed? = some (.error e)) :
    (Manager.scripted config).serve h request = (some (.error e), h) := by
  cases request with
  | deploy fields =>
      rw [Manager.serve_deploy, runFrom_deploy, Option.some.inj refused]
  | invoke method fields =>
      rw [Manager.serve_invoke, runFrom_invokeContract, Option.some.inj refused]
  | abort => cases refused

/-- Where a request ends with an error over a form, it was refused, or a program is to blame. -/
def Explained (h : Host Module) (request : HostRequest)
    (result? : Option (Except HostError Outcome)) (g : Host Module) : Prop :=
  ∀ accepted, request.accepted? = some accepted → ∃ result, result? = some result ∧
    ∃ events, g.journal = events ++ h.journal ∧ .finished accepted.contract result ∈ events ∧
      ∀ e, result = .error e → e.errorClass = .validation → Misnamed h e g

theorem explained_finish {contract : String} {result : Except HostError Outcome}
    (blamed : Blamed h result g) :
    ∃ events, (Manager.finish contract result g).journal = events ++ h.journal ∧
      .finished contract result ∈ events ∧
      ∀ e, result = .error e → e.errorClass = .validation →
        Misnamed h e (Manager.finish contract result g) := by
  obtain ⟨later, journal, _⟩ := (Manager.cleared_finish contract result g).told
  obtain ⟨events, grown⟩ := blamed.1
  refine ⟨later ++ .finished contract result :: events, ?_, by simp, ?_⟩
  · rw [journal, List.append_assoc, List.cons_append, grown]
    rfl
  · exact (blamed.lasts (suffix_finish ..)).2

theorem explained_serve (config : Config) (h : Host Module) (request : HostRequest) :
    let p := (Manager.scripted config).serve h request
    Explained h request p.1 p.2 := by
  have asked {contract : String} {g : Host Module}
      (offstage : (h.note (.started contract)).Offstage g) : h.journal <:+ g.journal :=
    (List.suffix_cons _ _).trans offstage.backstage.grows
  refine serve_cases config h request (P := Explained h request) ?_ ?_ ?_ ?_
  · rintro contract message rfl accepted known
    cases known
  · intro e refused accepted known
    cases request with
    | deploy fields =>
        rw [HostRequest.accepted?, Option.some.inj refused] at known
        cases known
    | invoke method fields =>
        rw [HostRequest.accepted?, Option.some.inj refused] at known
        cases known
    | abort => cases refused
  · intro accepted fault g known offstage accepted' known'
    cases known.symm.trans known'
    exact ⟨_, rfl, explained_finish ⟨asked offstage, by rintro _ ⟨⟩ ⟨⟩⟩⟩
  · intro accepted load setup g known _ _ offstage
    have grown : h.journal <:+ (Manager.beginCall setup g).journal :=
      (asked offstage).trans (List.suffix_cons _ _)
    have begins : (blames h).Begins config
        (fun result f => Explained h request (some result)
          (Manager.finish accepted.contract result f))
        load (created setup g) (Manager.beginCall setup g) := by
      refine begins_of_grown grown fun result f blamed accepted' known' => ?_
      cases known.symm.trans known'
      exact ⟨result, rfl, explained_finish blamed⟩
    exact (blames_upheld config h).run config.maxCallDepth.toNat begins

end Call

/-- Errors over a form, for every state of a host and every request.

A request that is refused for its form ends with such an error, and leaves the host as it is. An
accepted request is counted, and if it ends with such an error a program asked while it was
served for a call of a contract that cannot exist: the error is that there can be no contract of
that name. -/
theorem serve_validation_errors (config : Config) (h : Host Module) (request : HostRequest) :
    let p := (Manager.scripted config).serve h request
    (∀ e, request.parsed? = some (.error e) →
      e.errorClass = .validation ∧ p = (some (.error e), h)) ∧
    ∀ accepted, request.accepted? = some accepted → ∃ result, p.1 = some result ∧
      ∃ events, p.2.journal = events ++ h.journal ∧ .finished accepted.contract result ∈ events ∧
        ∀ e, result = .error e → e.errorClass = .validation →
          ∃ caller name method args, e = .invalidName name ∧ Naming.validate name = .error e ∧
            .answered caller (.contractCall SyscallRequest.contractModule name method args)
              (.error e) ∈ events := by
  intro p
  refine ⟨fun e refused => ?_, fun accepted known => ?_⟩
  · exact ⟨HostRequest.validation_of_parsed refused, Call.serve_refused refused⟩
  · obtain ⟨result, ended, events, journal, finished, form⟩ :=
      Call.explained_serve config h request accepted known
    refine ⟨result, ended, events, journal, finished, fun e failed validation => ?_⟩
    obtain ⟨events', caller, name, method, args, journal', refused, mem⟩ := form e failed validation
    obtain rfl : events = events' := List.append_cancel_right (journal.symm.trans journal')
    exact ⟨caller, name, method, args, Naming.eq_invalidName_of_validate refused, refused, mem⟩

/-- The deployment of a contract whose program calls, when it is started, a contract that cannot
exist. -/
def misnamedDeploy : HostRequest :=
  .deploy (.ofList [("contract_name", Utf8.encode "shop"), ("contract_code", Utf8.encode
    "\x7b\"exports\":\x7b\"_initialize\":[\x7b\"op\":\"call\",\"contract\":\"9lives\",\"method\":\"buy\"\x7d]\x7d\x7d"),
    ("language", Utf8.encode "c"), ("args", Utf8.encode "\x7b\x7d"), ("caller", Utf8.encode "alice")])

/-- Not every request that ends with an error over a form leaves everything as it was: a
deployment may end so on a fresh host, and is counted. -/
theorem misnamed_call_is_counted :
    ¬ ∀ (config : Config) (table : MemoryStore) (requests : List HostRequest)
      (request : HostRequest) (e : HostError),
      let h := (Manager.scripted config).session (.fresh (.memory table) {}) requests
      let p := (Manager.scripted config).serve h request
      p.1 = some (.error e) → e.errorClass = .validation →
        p.2.store = h.store ∧ p.2.cache = h.cache ∧ p.2.contexts = h.contexts ∧
          p.2.engineUse = h.engineUse ∧ p.2.stats = h.stats := by
  intro untouched
  have fresh : (Manager.scripted .standard).session (.fresh (.memory .empty) {}) [] =
      .fresh (.memory .empty) {} := rfl
  have stats := untouched .standard .empty [] misnamedDeploy (.invalidName "9lives")
  rw [fresh] at stats
  have ended : ((Manager.scripted .standard).serve (.fresh (.memory .empty) {}) misnamedDeploy).1 =
      some (.error (.invalidName "9lives")) := by
    decide +kernel
  have counted : ((Manager.scripted .standard).serve (.fresh (.memory .empty) {})
      misnamedDeploy).2.stats ≠ (Host.fresh (.memory .empty) {} : Host Module).stats := by
    decide +kernel
  exact counted (stats ended rfl).2.2.2.2

end ContractHost
