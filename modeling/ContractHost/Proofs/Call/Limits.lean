/-
# Calls under higher limits

A call is limited in three ways: its program in the gas that is charged, the whole call in
what it uses together with the calls inside it, and calls in how deep they nest. A call that
does not fail over one of these limits is the same call under all higher ones: it has the
same result, and it leaves the same host, down to the last entry of the journal.

For a tree of calls this rests on one thing: a failure over a limit is never caught. No
program goes on from it, and of the failures of a call that it asked for a contract is
answered only those that the called contract reports itself. So such a failure ends all
calls around it, and an outermost call that did not fail so has no such failure inside it.
Only an abort could put another failure in the place of one over a limit, so none may arrive.
-/

import ContractHost.Proofs.Call.Course
import ContractHost.Proofs.Resources
import ContractHost.Proofs.Script.Limits

namespace ContractHost

open Script (Latitude Machine Module)

/-- Settings that price usage as others do, and whose limits are nowhere lower. -/
structure Config.Eases (lenient strict : Config) : Prop where
  rates : lenient.rates = strict.rates
  gasLimit : strict.gasLimit ≤ lenient.gasLimit
  maxLimits : strict.maxLimits ≤ lenient.maxLimits
  maxCallDepth : strict.maxCallDepth ≤ lenient.maxCallDepth

namespace Host

/-- No call is asked to end whose signal is handed out from a number on. -/
structure Undisturbed (first : SignalId) (h : Host Module) : Prop where
  calm : ∀ access op key, h.surroundings.aborts access op key = []
  handed : first ≤ h.signals.next
  unraised : ∀ id, first ≤ id → h.signals.reason? id = none

namespace Undisturbed

variable {first : SignalId} {h g : Host Module}

/-- Where no aborts arrive, no new call is asked to end. -/
theorem of_calm (calm : ∀ access op key, h.surroundings.aborts access op key = []) :
    h.Undisturbed h.signals.next :=
  ⟨calm, Nat.le_refl _, fun _ => Signals.reason?_of_next_le⟩

theorem congr (undisturbed : h.Undisturbed first)
    (surroundings : g.surroundings = h.surroundings) (signals : g.signals = h.signals) :
    g.Undisturbed first where
  calm := surroundings ▸ undisturbed.calm
  handed := signals ▸ undisturbed.handed
  unraised := signals ▸ undisturbed.unraised

theorem heard (undisturbed : h.Undisturbed first) (heard : h.Heard g) : g.Undisturbed first :=
  undisturbed.congr heard.surroundings (heard.signals_of_no_abort undisturbed.calm)

theorem ready (undisturbed : h.Undisturbed first) (ctx : Context) :
    (Call.ready ctx h).Undisturbed first where
  calm := undisturbed.calm
  handed := Nat.le_trans undisturbed.handed
    (Nat.le_trans (Nat.le_succ _) (Nat.le_of_eq h.signals.next_issue.symm))
  unraised id later := (h.signals.reason?_issue id).trans (undisturbed.unraised id later)

end Undisturbed

end Host

namespace Call

variable {strict lenient : Config} {first : SignalId} {nested nested' : Invoker Module}
  {h : Host Module}

/-- Two runs that end alike, unless the first one fails over a limit. -/
abbrev Eased {α : Type} (first : SignalId) (p q : Except HostError α × Host Module) : Prop :=
  UpTo (fun e h => e.isLimit ∧ h.Undisturbed first) (fun h k => h = k ∧ h.Undisturbed first) p q

/-- Two invokers that make the same calls, except that the first one may fail over a limit. -/
def EasedInvoker (first : SignalId) (nested nested' : Invoker Module) : Prop :=
  ∀ h, h.Undisturbed first → ∀ caller contract method args,
    Eased first (runFrom (nested caller contract method args) h)
      (runFrom (nested' caller contract method args) h)

/-- A call gives up the same under every limit. -/
theorem part_withLimit (id : ContextId) (result : Except HostError Unit) (gasLimit : UInt64)
    (m : Machine) (code : CompiledCode Module) (h : Host Module) :
    part id result (m.withLimit gasLimit) code h = part id result m code h := by
  unfold part
  rw [Machine.close_withLimit]
  rfl

/-- What two runs came to is dealt with alike. -/
theorem eased_change {α : Type} {p q : Except HostError α × Host Module}
    (eased : Eased first p q) (change : Except HostError α → Host Module → Host Module)
    (kept : ∀ g, g.Undisturbed first → (change p.1 g).Undisturbed first) :
    Eased first (p.1, change p.1 p.2) (q.1, change q.1 q.2) := by
  rcases eased with ⟨e, failed, limit, left⟩ | ⟨same, hosts, left⟩
  · exact .inl ⟨e, failed, limit, kept _ left⟩
  · right
    rw [← same, ← hosts]
    exact ⟨rfl, rfl, kept _ left⟩

/-- A result is counted the same, and code is dropped alike. -/
theorem eased_finish {p q : Except HostError Outcome × Host Module} (eased : Eased first p q)
    (contract : String) :
    Eased first (p.1, Manager.finish contract p.1 p.2) (q.1, Manager.finish contract q.1 q.2) :=
  eased_change eased (Manager.finish contract) fun _ left => left.heard (Manager.heard_finish ..)

/-- What has nothing to do with limits comes to the same. -/
theorem eased_refl {α : Type} {action : HostM Module HostError α}
    (left : (runFrom action h).2.Undisturbed first) :
    Eased first (runFrom action h) (runFrom action h) :=
  .inr ⟨rfl, rfl, left⟩

/-- So does reading the language of a contract. -/
theorem eased_contractLanguage (contract : String) (undisturbed : h.Undisturbed first) :
    Eased first (runFrom (HostM.contractLanguage contract) h)
      (runFrom (HostM.contractLanguage contract) h) := by
  have read := (Host.unseen_contractLanguage contract h).mono
    (fun _ _ ⟨unseen, _⟩ => undisturbed.heard unseen.heard)
    (fun _ _ ⟨_, unseen⟩ => undisturbed.heard unseen.heard)
  exact eased_refl read.state

section Services

variable (invokers : EasedInvoker first nested nested') (undisturbed : h.Undisturbed first)

include invokers undisturbed

theorem eased_call (id : ContextId) (module contract method : String) (args : List ArgPair) :
    Eased first
      (runFrom (Syscall.answer (some nested) id (.contractCall module contract method args)) h)
      (runFrom (Syscall.answer (some nested') id (.contractCall module contract method args)) h) := by
  cases found : h.contexts.find? id with
  | none =>
      rw [Host.runFrom_answer_unknown found, Host.runFrom_answer_unknown found]
      exact .inr ⟨rfl, rfl, undisturbed⟩
  | some ctx =>
      by_cases known : module = SyscallRequest.contractModule
      · subst known
        rw [Host.runFrom_answer_call found, Host.runFrom_answer_call found]
        apply (invokers h undisturbed ctx contract method _).bind
        rintro ⟨response, used⟩ g _ ⟨rfl, undisturbed⟩
        exact .inr ⟨rfl, rfl, undisturbed.congr rfl rfl⟩
      · rw [Host.runFrom_answer_foreign found known, Host.runFrom_answer_foreign found known]
        exact .inr ⟨rfl, rfl, undisturbed⟩

/-- Services other than calls of contracts know nothing of limits. -/
theorem eased_answer (id : ContextId) (request : SyscallRequest) :
    Eased first (runFrom (Syscall.answer (some nested) id request) h)
      (runFrom (Syscall.answer (some nested') id request) h) := by
  by_cases plain : request.kind = .contractCall
  · cases request with
    | contractCall module contract method args =>
        exact eased_call invokers undisturbed id module contract method args
    | _ => cases plain
  · have indifferent : Syscall.answer (some nested') id request =
        Syscall.answer (some nested) id request := by
      cases request <;> first | rfl | exact absurd rfl plain
    rw [indifferent]
    have answered := (Host.modest_answer id (some nested) plain h).mono
      (fun _ _ acts => undisturbed.heard acts.heard)
      (fun _ _ ⟨_, acts⟩ => undisturbed.heard acts.heard)
    exact eased_refl answered.state

theorem eased_serve (id : ContextId) (request : SyscallRequest) :
    Eased first (runFrom (Syscall.serve (some nested) id request) h)
      (runFrom (Syscall.serve (some nested') id request) h) := by
  have asked : (h.note (.syscall id request h.contexts.live)).Undisturbed first :=
    undisturbed.congr rfl rfl
  exact eased_change (eased_answer invokers asked id request)
    (fun result g => g.note (.answered id request result)) fun _ left => left.congr rfl rfl

end Services

section Calls

variable (eases : lenient.Eases strict)

/-- The latitude that programs get. -/
def latitude (first : SignalId) : Latitude where
  strict := strict.gasLimit
  lenient := lenient.gasLimit
  eased := eases.gasLimit
  Holds h := h.Undisturbed first

include eases

theorem latitude_served (invokers : EasedInvoker first nested nested') :
    (latitude eases first).Served (Syscall.serve (some nested)) (Syscall.serve (some nested')) where
  operation _ _ undisturbed := undisturbed.congr rfl rfl
  lines _ undisturbed := undisturbed.congr rfl rfl
  served id request undisturbed := eased_serve invokers undisturbed id request

/-- A program that is entered comes to the same, unless it breaks off over a limit. -/
theorem eased_enter (invokers : EasedInvoker first nested nested')
    (inst : Instance Module Machine) (limited : inst.machine.gasLimit = strict.gasLimit)
    (later : first ≤ inst.signal) (undisturbed : h.Undisturbed first) :
    let p := enter nested inst h
    (∃ e, p.1.1 = .error e ∧ e.isLimit ∧ p.2.Undisturbed first) ∨
      enter nested' { inst with machine := inst.machine.withLimit lenient.gasLimit } h =
        ((p.1.1, p.1.2.withLimit lenient.gasLimit), p.2) ∧ p.2.Undisturbed first := by
  unfold enter
  rw [show Instance.entryPoint { inst with machine := inst.machine.withLimit lenient.gasLimit } =
      inst.entryPoint from rfl,
    show Instance.entryParams { inst with machine := inst.machine.withLimit lenient.gasLimit } =
      inst.entryParams from rfl]
  cases inst.entryPoint with
  | error e => exact .inr ⟨rfl, undisturbed⟩
  | ok entry =>
      have unasked : h.signals.trap? inst.signal = none :=
        congrArg (Option.map Trap.aborted) (undisturbed.unraised _ later)
      dsimp only
      rw [unasked]
      dsimp only
      rw [show (inst.machine.withLimit lenient.gasLimit).memory = inst.machine.memory from rfl]
      by_cases missing : inst.machine.memory.isNone
      · rw [if_pos missing, if_pos missing]
        exact .inr ⟨rfl, undisturbed⟩
      · rw [if_neg missing, if_neg missing]
        have begun : (h.note (.engine (.exec entry inst.entryParams))).Undisturbed first :=
          undisturbed.congr rfl rfl
        have ran := Machine.exec_withLimit (latitude_served eases invokers) limited entry
          inst.entryParams begun
        revert ran
        rcases Machine.exec _ inst.machine entry inst.entryParams _ with ⟨⟨result, m⟩, g⟩
        rintro (⟨e, failed, limit, left⟩ | ⟨same, left⟩)
        -- with no abort to overrule it the failure over the limit stays what it is
        · obtain rfl : result = .error e := failed
          refine .inl ⟨e.toHostError, ?_, limit, left⟩
          exact overruled_of_unraised (left.unraised _ later) _
        · dsimp only [latitude] at same left ⊢
          rw [same, overruled_of_unraised (left.unraised _ later)]
          exact .inr ⟨rfl, left⟩

theorem eased_enterOn (invokers : EasedInvoker first nested nested') (ctx : Context)
    (code : CompiledCode Module) {signal : SignalId} (later : first ≤ signal)
    (undisturbed : h.Undisturbed first) :
    let p := enter nested (instanceOn strict ctx code signal) h
    (∃ e, p.1.1 = .error e ∧ e.isLimit ∧ p.2.Undisturbed first) ∨
      enter nested' (instanceOn lenient ctx code signal) h =
        ((p.1.1, p.1.2.withLimit lenient.gasLimit), p.2) ∧ p.2.Undisturbed first :=
  eased_enter eases invokers (instanceOn strict ctx code signal) rfl later undisturbed

/-- How a call ends depends on its limit for usage only if the usage exceeds it. -/
theorem eased_conclude (ctx : Context) (code : CompiledCode Module)
    (result : Except HostError Unit) (m : Machine) (undisturbed : h.Undisturbed first) :
    Eased first (conclude strict ctx code result m h)
      (conclude lenient ctx code result (m.withLimit lenient.gasLimit) h) := by
  have left := undisturbed.heard (heard_conclude strict ctx code result m h)
  revert left
  unfold conclude verdict judged
  rw [part_withLimit, show usage (m.withLimit lenient.gasLimit) = usage m from rfl, eases.rates]
  cases result with
  | error e => exact fun left => .inr ⟨rfl, rfl, left⟩
  | ok _ =>
      dsimp only
      generalize ((part ctx.id (.ok ()) m code h).contexts.held? ctx.id).getD ctx = known
      intro left
      by_cases exceeding : ((usage m).add known.nestedUsage).exceeds strict.maxLimits
      · rw [if_pos exceeding]
        exact .inl ⟨_, rfl, rfl, left⟩
      · have within : ((usage m).add known.nestedUsage).exceeds lenient.maxLimits = false := by
          rw [Bool.not_eq_true] at exceeding
          exact Resources.exceeds_eq_false.2
            (le_trans (Resources.exceeds_eq_false.1 exceeding) eases.maxLimits)
        simp only [exceeding, within, Bool.false_eq_true, ↓reduceIte] at left ⊢
        exact .inr ⟨rfl, rfl, left⟩

/-- So a whole call comes to the same, if the calls inside it do. -/
theorem eased_run (invokers : EasedInvoker first nested nested') (load : CodeLoad)
    (ctx : Context) (undisturbed : h.Undisturbed first) :
    Eased first (run strict nested load ctx h) (run lenient nested' load ctx h) := by
  have obtained := offstage_obtain load ctx h
  unfold run
  revert obtained
  rcases obtain load ctx h with ⟨e | code, g⟩
  · intro offstage
    exact .inr ⟨rfl, rfl, (undisturbed.heard offstage.heard).congr rfl rfl⟩
  · rintro ⟨f, digest, offstage, _, signals, _, _, surroundings⟩
    have coded : g.Undisturbed first :=
      (undisturbed.heard offstage.heard).congr surroundings signals
    have entered := eased_enterOn eases invokers ctx code coded.handed (coded.ready ctx)
    dsimp only at entered ⊢
    revert entered
    rcases enter nested (instanceOn strict ctx code g.signals.next) (ready ctx g) with
      ⟨⟨result, m⟩, k⟩
    rintro (⟨e, failed, limit, left⟩ | ⟨same, left⟩)
    · obtain rfl : result = .error e := failed
      exact .inl ⟨e, rfl, limit, (left.heard (heard_conclude ..)).congr rfl rfl⟩
    · rw [same]
      exact eased_change (eased_conclude eases ctx code result m left) (Manager.endCall ctx.id)
        fun _ left => left.congr rfl rfl

/-- An invocation that did not fail over a limit is counted the same. -/
theorem eased_invoke (invokers : EasedInvoker first nested nested') (setup : CallSetup)
    (undisturbed : h.Undisturbed first) :
    Eased first (runFrom ((Manager.scripted strict).invoke nested setup) h)
      (runFrom ((Manager.scripted lenient).invoke nested' setup) h) := by
  have begun : (Manager.beginCall setup (invoked setup.contract h)).Undisturbed first :=
    undisturbed.congr rfl rfl
  rw [runFrom_invoke, runFrom_invoke]
  exact eased_finish (eased_run eases invokers .reuse _ begun) setup.contract

/-- Calls are served the same where they may nest at least as deep. Where the first ones may
not, they fail over a limit. -/
theorem eased_nestedCall {room room' : Nat} (roomier : room ≤ room') :
    EasedInvoker first ((Manager.scripted strict).nestedCall room)
      ((Manager.scripted lenient).nestedCall room') := by
  induction room generalizing room' with
  | zero => exact fun h undisturbed _ _ _ _ => .inl ⟨_, rfl, rfl, undisturbed⟩
  | succ room ih =>
      cases room' with
      | zero => exact absurd roomier (Nat.not_succ_le_zero room)
      | succ room' =>
          intro h undisturbed caller contract method args
          have invokers := ih (Nat.le_of_succ_le_succ roomier)
          by_cases deep : strict.maxCallDepth.toNat < caller.setup.depth + 1
          · rw [nestedCall_of_deep strict (room + 1) contract method args deep]
            exact .inl ⟨_, rfl, rfl, undisturbed⟩
          · have within : ¬ lenient.maxCallDepth.toNat < caller.setup.depth + 1 :=
              fun deeper => deep (Nat.lt_of_le_of_lt eases.maxCallDepth deeper)
            rw [nestedCall_succ strict room contract method args deep,
              nestedCall_succ lenient room' contract method args within]
            apply UpTo.bind (eased_refl undisturbed)
            rintro _ g _ ⟨rfl, undisturbed⟩
            apply (eased_contractLanguage contract undisturbed).bind
            rintro language g _ ⟨rfl, undisturbed⟩
            have answered := eased_invoke eases invokers
              (nestedSetup caller contract method args language) undisturbed
            rw [runFrom_bind, runFrom_bind, runFrom_attempt, runFrom_attempt]
            revert answered
            rcases runFrom ((Manager.scripted strict).invoke _ _) g with ⟨result, f⟩
            rcases runFrom ((Manager.scripted lenient).invoke _ _) g with ⟨result', f'⟩
            rintro (⟨e, failed, limit, left⟩ | ⟨same, hosts, left⟩)
            -- the report of a called contract is an answer, and no failure over a limit
            · obtain rfl : result = .error e := failed
              cases e with
              | contract => cases limit
              | _ => exact .inl ⟨_, rfl, limit, left⟩
            · obtain rfl : result = result' := same
              obtain rfl : f = f' := hosts
              cases result with
              | ok outcome => exact .inr ⟨rfl, rfl, left⟩
              | error e => cases e <;> exact .inr ⟨rfl, rfl, left⟩

/-- A call from outside comes to the same, with all calls inside it. -/
theorem eased_outermost (load : CodeLoad) (ctx : Context) (undisturbed : h.Undisturbed first) :
    Eased first (run strict (outermost strict) load ctx h)
      (run lenient (outermost lenient) load ctx h) :=
  eased_run eases (eased_nestedCall eases eases.maxCallDepth) load ctx undisturbed

/-- The writes before the call of a deployment know nothing of limits. -/
theorem eased_deployAccepted (request : CallRequest) (undisturbed : h.Undisturbed first) :
    Eased first (runFrom ((Manager.scripted strict).deployAccepted request) h)
      (runFrom ((Manager.scripted lenient).deployAccepted request) h) := by
  rw [runFrom_deployAccepted, runFrom_deployAccepted]
  have written := offstage_putKey (StoreKey.code request.contract) request.code h
  revert written
  rcases runFrom (HostM.putKey (StoreKey.code request.contract) request.code) h with ⟨e | _, g⟩
  · exact fun written => .inr ⟨rfl, rfl, undisturbed.heard written.heard⟩
  · intro written
    have described := offstage_putKey (StoreKey.description request.contract)
      (Utf8.encode request.language) g
    dsimp only
    revert described
    rcases runFrom (HostM.putKey (StoreKey.description request.contract) _) g with ⟨e | _, f⟩
    · exact fun described =>
        .inr ⟨rfl, rfl, (undisturbed.heard written.heard).heard described.heard⟩
    · intro described
      apply eased_outermost eases
      exact ((undisturbed.heard written.heard).heard described.heard).congr rfl rfl

theorem eased_deploy (fields : RequestFields) (undisturbed : h.Undisturbed first) :
    Eased first (runFrom ((Manager.scripted strict).deploy fields) h)
      (runFrom ((Manager.scripted lenient).deploy fields) h) := by
  rw [runFrom_deploy, runFrom_deploy]
  cases CallRequest.parse fields true with
  | error e => exact .inr ⟨rfl, rfl, undisturbed⟩
  | ok request =>
      have counted : (deploying request.contract h).Undisturbed first := undisturbed.congr rfl rfl
      exact eased_finish (eased_deployAccepted eases request counted) request.contract

theorem eased_invokeContract (method : String) (fields : RequestFields)
    (undisturbed : h.Undisturbed first) :
    Eased first (runFrom ((Manager.scripted strict).invokeContract method fields) h)
      (runFrom ((Manager.scripted lenient).invokeContract method fields) h) := by
  rw [runFrom_invokeContract, runFrom_invokeContract]
  cases CallRequest.parse fields false with
  | error e => exact .inr ⟨rfl, rfl, undisturbed⟩
  | ok request =>
      have begun : (Manager.beginCall (request.callSetup method)
          (invoked request.contract h)).Undisturbed first := undisturbed.congr rfl rfl
      exact eased_finish (eased_outermost eases .reuse _ begun) request.contract

end Calls

end Call

/-- Let no aborts arrive around a host, and let a request not fail over a limit under some
settings. Under all settings with the same rates and with limits that are nowhere lower it
has the same result and leaves the same host: the same store, the same cached code, the same
statistics, the same journal. -/
theorem serve_same_under_higher_limits {strict lenient : Config} (eases : lenient.Eases strict)
    {h : Host Module} (calm : ∀ access op key, h.surroundings.aborts access op key = [])
    (request : HostRequest)
    (unlimited : ∀ e, ((Manager.scripted strict).serve h request).1 = some (.error e) →
      e.isLimit = false) :
    (Manager.scripted lenient).serve h request = (Manager.scripted strict).serve h request := by
  have undisturbed := Host.Undisturbed.of_calm calm
  have same {p q : Except HostError Outcome × Host Module}
      (eased : Call.Eased h.signals.next p q) (kept : ∀ e, p.1 = .error e → e.isLimit = false) :
      q = p := by
    rcases eased with ⟨e, failed, limit, _⟩ | ⟨results, hosts, _⟩
    · rw [kept e failed] at limit
      cases limit
    · exact Prod.ext results.symm hosts.symm
  cases request with
  | deploy fields =>
      rw [Manager.serve_deploy, Manager.serve_deploy]
      rw [same (Call.eased_deploy eases fields undisturbed) fun e failed =>
        unlimited e (congrArg some failed)]
  | invoke method fields =>
      rw [Manager.serve_invoke, Manager.serve_invoke]
      rw [same (Call.eased_invokeContract eases method fields undisturbed) fun e failed =>
        unlimited e (congrArg some failed)]
  | abort contract message => rfl

/-- The compiled programs of a shop and of a till, which the shop calls for every sale. -/
def tillCodes : List (CompiledCode Module) :=
  let module (exports : Table String (List Script.Op)) : Module := {
    program := { memory := some Script.Program.standardMemory, imports := [], exports }
    bindings := [(.contractCall, .contractCall), (.setOutput, .setOutput)] }
  [{ serial := 0, name := "shop", digest := "", module := module (.ofList [("_sell",
      [.single (.call SyscallRequest.contractModule "till" "count" [] (some "counted")),
       .single (.output 200 "sold" "$\x7bcounted\x7d")])]) },
   { serial := 1, name := "till", digest := "", module := module (.ofList [("_count",
      [.single (.output 200 "counted" "")])]) }]

/-- A host with the shop and the till. -/
def tillHost : Host Module where
  store := .memory (Table.empty.insert (StoreKey.description "till") (Utf8.encode "c"))
  cache := { compiled := 2, entries := tillCodes }

/-- A sale. -/
def tillSale : HostRequest :=
  .invoke "sell" (.ofList [("contract_name", Utf8.encode "shop"), ("language", Utf8.encode "c"),
    ("args", Utf8.encode "\x7b\x7d"), ("caller", Utf8.encode "alice")])

/-- Settings under which a sale can just be made. -/
def Config.frugal : Config where
  gasLimit := 200
  maxLimits := { cpu := 300, memory := 131072 }
  maxCallDepth := 1

/-- A sale that can just be made is no other one where there is room to spare. -/
theorem sale_same_with_room_to_spare :
    let p := (Manager.scripted .frugal).serve tillHost tillSale
    p.1.any (·.isOk) ∧ (Manager.scripted .standard).serve tillHost tillSale = p := by
  have sold : ((Manager.scripted .frugal).serve tillHost tillSale).1.any (·.isOk) = true := by
    decide +kernel
  refine ⟨sold, serve_same_under_higher_limits ?_ (fun _ _ _ => rfl) tillSale ?_⟩
  · exact ⟨rfl, by decide, by decide, by decide⟩
  · intro e failed
    rw [failed] at sold
    cases sold

end ContractHost
