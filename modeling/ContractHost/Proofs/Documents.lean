/-
# Messages and configurations survive as documents

Every message between a program and its host, every trap, outcome and configuration has a document
that stands for it, and nothing else has the same one. A type is shown faithful by the parts that
its document is made of; where a type has alternatives, by the name that tells each from the others.

The document of a configuration may leave out any of its fields. What is left out takes its default,
and the settings that come of it are then looked at as any others.
-/

import ContractHost.Config.Codec
import ContractHost.Proofs.Json.Records

namespace ContractHost

open Json (Fields StandsFor Survives wellFormed_record_iff)

/-! ## Amounts and identities -/

theorem Resources.standsFor (r : Resources) : StandsFor ofJson? r.toJson r where
  decoded := by
    rw [ofJson?, toJson, Fields.ofJson?_record (by simp [fieldNames]) (by simp)]
    simp
  wellFormed := wellFormed_record_iff.2 (by simp)

theorem Rates.standsFor (r : Rates) : StandsFor ofJson? r.toJson r where
  decoded := by
    rw [ofJson?, toJson, Fields.ofJson?_record (by simp [Resources.fieldNames]) (by simp)]
    simp
  wellFormed := wellFormed_record_iff.2 (by simp)

/-- The identities of contexts that signed words can hold. -/
def ContextId.wordSized : Set ContextId := Set.range fun n : Int64 => ⟨n.toInt⟩

theorem ContextId.standsFor {id : ContextId} (sized : id ∈ wordSized) :
    StandsFor ofJson? id.toJson id := by
  obtain ⟨n, rfl⟩ := sized
  have within := And.intro n.minValue_le_toInt n.toInt_le
  refine ⟨?_, .number (Json.Number.wellFormed_ofInt _)⟩
  rw [ofJson?, toJson, Json.integerIn?_integer (by decide) (by decide) within, Option.map_some]

theorem SyscallHeader.standsFor {header : SyscallHeader}
    (sized : header.context ∈ ContextId.wordSized) :
    StandsFor ofJson? header.toJson header where
  decoded := by
    rw [ofJson?, toJson, Fields.ofJson?_record (by simp) (by simp)]
    simp [(ContextId.standsFor sized).decoded]
  wellFormed := wellFormed_record_iff.2 (by simp [(ContextId.standsFor sized).wellFormed])

/-! ## Messages -/

theorem Response.standsFor (r : Response) : StandsFor ofJson? r.toJson r where
  decoded := by
    rw [ofJson?, toJson, Fields.ofJson?_record (by simp) (by simp)]
    simp
  wellFormed := wellFormed_record_iff.2 (by simp)

theorem ArgPair.standsFor (pair : ArgPair) : StandsFor ofJson? pair.toJson pair where
  decoded := by
    rw [ofJson?, toJson, Fields.ofJson?_record (by simp) (by simp)]
    simp
  wellFormed := wellFormed_record_iff.2 (by simp)

theorem CallArgs.standsFor (call : CallArgs) : StandsFor ofJson? call.toJson call where
  decoded := by
    rw [ofJson?, toJson, Fields.ofJson?_record (by simp) (by simp)]
    simp [(StandsFor.items ArgPair.standsFor _).decoded]
  wellFormed := wellFormed_record_iff.2 (by
    simp [(StandsFor.items ArgPair.standsFor _).wellFormed])

theorem Outcome.standsFor (outcome : Outcome) : StandsFor ofJson? outcome.toJson outcome where
  decoded := by
    rw [ofJson?, toJson, Fields.ofJson?_record (by simp) (by simp)]
    simp [(Response.standsFor _).decoded, (Resources.standsFor _).decoded]
  wellFormed := wellFormed_record_iff.2 (by
    simp [(Response.standsFor _).wellFormed, (Resources.standsFor _).wellFormed])

/-! ## Alternatives -/

/-- A service is found by its name. -/
@[simp]
theorem SyscallKind.ofName?_name (kind : SyscallKind) : ofName? kind.name = some kind := by
  cases kind <;> decide

theorem SyscallKind.standsFor (kind : SyscallKind) : StandsFor ofJson? kind.toJson kind where
  decoded := by simp [ofJson?, toJson, Json.isNothing]
  wellFormed := .string _

theorem SyscallResponse.standsFor (answer : SyscallResponse) :
    StandsFor ofJson? answer.toJson answer := by
  cases answer with
  | empty => exact ⟨rfl, .string _⟩
  | value bytes =>
      refine ⟨?_, .choice (.octets bytes)⟩
      simp [ofJson?, toJson]
  | callArgs args =>
      refine ⟨?_, .choice (CallArgs.standsFor args).wellFormed⟩
      simp [ofJson?, toJson, (CallArgs.standsFor _).decoded]
  | response r =>
      refine ⟨?_, .choice (Response.standsFor r).wellFormed⟩
      simp [ofJson?, toJson, (Response.standsFor _).decoded]

/-- A request is decoded by the service that its document names. -/
theorem SyscallRequest.standsFor (request : SyscallRequest) :
    StandsFor ofJson? request.toJson request := by
  have octets (bytes : Bytes) : Json.octets bytes ≠ .null := by simp [Json.octets]
  cases request with
  | putObject key value =>
      have optional := StandsFor.option StandsFor.octets octets value
      refine ⟨?_, .choice (wellFormed_record_iff.2 (by simp [optional.wellFormed]))⟩
      simp [ofJson?, toJson, kind, Fields.ofJson?_record, optional.decoded]
  | getObject key =>
      refine ⟨?_, .choice (wellFormed_record_iff.2 (by simp))⟩
      simp [ofJson?, toJson, kind, Fields.ofJson?_record]
  | deleteObject key =>
      refine ⟨?_, .choice (wellFormed_record_iff.2 (by simp))⟩
      simp [ofJson?, toJson, kind, Fields.ofJson?_record]
  | getCallArgs => exact ⟨rfl, .string _⟩
  | setOutput response =>
      have output := Response.standsFor response
      refine ⟨?_, .choice (wellFormed_record_iff.2 (by simp [output.wellFormed]))⟩
      simp [ofJson?, toJson, kind, Fields.ofJson?_record, output.decoded]
  | transfer payer payee amount =>
      refine ⟨?_, .choice (wellFormed_record_iff.2 (by simp))⟩
      simp [ofJson?, toJson, kind, Fields.ofJson?_record]
  | contractCall module contract method args =>
      have listed := StandsFor.items ArgPair.standsFor args
      refine ⟨?_, .choice (wellFormed_record_iff.2 (by simp [listed.wellFormed]))⟩
      simp [ofJson?, toJson, kind, Fields.ofJson?_record, listed.decoded]

theorem Trap.standsFor (retained : Bool) (trap : Trap) :
    StandsFor (ofJson? retained) trap.toJson trap := by
  cases trap with
  | symbolNotFound module name =>
      refine ⟨?_, .choice (wellFormed_record_iff.2 (by simp))⟩
      simp [ofJson?, toJson, Trap.name, plain, Fields.ofJson?_record]
  | signatureMismatch module name =>
      refine ⟨?_, .choice (wellFormed_record_iff.2 (by simp))⟩
      simp [ofJson?, toJson, Trap.name, plain, Fields.ofJson?_record]
  | aborted reason =>
      refine ⟨?_, .choice (.string _)⟩
      simp [ofJson?, toJson, Trap.name, plain]
  | _ =>
      refine ⟨?_, .string _⟩
      simp [ofJson?, toJson, Trap.name, plain, Json.isNothing]

/-! ## Configurations -/

namespace Config

theorem standsFor (config : Config) : StandsFor ofJson? config.toJson config where
  decoded := by
    rw [ofJson?, toJson, Fields.ofJson?_record (by simp [fieldNames]) (by simp)]
    simp [(Resources.standsFor _).decoded, (Rates.standsFor _).decoded]
  wellFormed := wellFormed_record_iff.2 (by
    simp [(Resources.standsFor _).wellFormed, (Rates.standsFor _).wellFormed])

/-- The settings with some of their fields kept, and the others at their defaults. -/
def keeping (keep : String → Bool) (config : Config) : Config where
  backend := if keep "backend" then config.backend else standard.backend
  gasLimit := if keep "gas_limit" then config.gasLimit else standard.gasLimit
  maxLimits := if keep "max_limits" then config.maxLimits else standard.maxLimits
  rates := if keep "rates" then config.rates else standard.rates
  maxCallDepth := if keep "max_call_depth" then config.maxCallDepth else standard.maxCallDepth
  storeCapacity := if keep "lru_capacity" then config.storeCapacity else standard.storeCapacity

variable {config : Config} {members : List (String × Json)} {keep : String → Bool}

/-- A document is decoded field by field. -/
theorem ofJson?_eq_some_iff {j : Json} :
    ofJson? j = some config ↔ ∃ given, Fields.ofJson? fieldNames j = some given ∧
      given.defaulted "backend" standard.backend Json.text? = some config.backend ∧
      given.defaulted "gas_limit" standard.gasLimit Json.word? = some config.gasLimit ∧
      given.defaulted "max_limits" standard.maxLimits Resources.ofJson? =
        some config.maxLimits ∧
      given.defaulted "rates" standard.rates Rates.ofJson? = some config.rates ∧
      given.defaulted "max_call_depth" standard.maxCallDepth Json.halfWord? =
        some config.maxCallDepth ∧
      given.defaulted "lru_capacity" standard.storeCapacity Json.word? =
        some config.storeCapacity := by
  obtain ⟨backend, gasLimit, maxLimits, rates, maxCallDepth, storeCapacity⟩ := config
  simp [ofJson?, Option.bind_eq_some_iff]

/-- Fields that a document leaves out take their defaults. -/
theorem ofJson?_of_kept (whole : ofJson? (.record members) = some config) :
    ofJson? (.record (members.filter fun field => keep field.1)) = some (config.keeping keep) := by
  obtain ⟨given, read, backend, gasLimit, maxLimits, rates, maxCallDepth, storeCapacity⟩ :=
    ofJson?_eq_some_iff.1 whole
  obtain ⟨kept, read', found⟩ := Fields.get?_of_kept keep read
  exact ofJson?_eq_some_iff.2 ⟨kept, read', Fields.defaulted_of_kept found backend,
    Fields.defaulted_of_kept found gasLimit, Fields.defaulted_of_kept found maxLimits,
    Fields.defaulted_of_kept found rates, Fields.defaulted_of_kept found maxCallDepth,
    Fields.defaulted_of_kept found storeCapacity⟩

/-- Settings that a host can run with. -/
theorem validate_eq_ok_iff :
    config.validate = .ok () ↔
      config.backend ≠ "" ∧ config.maxCallDepth ≠ 0 ∧ config.storeCapacity ≠ 0 := by
  unfold validate
  split
  · simp [*]
  · split
    · simp [*]
    · split <;> simp [*]

/-- Defaults are never at fault. -/
theorem validate_keeping (usable : config.validate = .ok ()) (keep : String → Bool) :
    (config.keeping keep).validate = .ok () := by
  obtain ⟨backend, depth, capacity⟩ := validate_eq_ok_iff.1 usable
  have either {α : Type} {value default bad : α} (name : String) (given : value ≠ bad)
      (usual : default ≠ bad) : (if keep name then value else default) ≠ bad := by
    split
    · exact given
    · exact usual
  exact validate_eq_ok_iff.2 ⟨either "backend" backend (by decide),
    either "max_call_depth" depth (by decide), either "lru_capacity" capacity (by decide)⟩

/-- What is printed of a configuration is read as that, unless a host cannot run with it. -/
theorem read_print {j : Json} (stands : StandsFor ofJson? j config) :
    read (Json.print j) = config.validate.map fun _ => config := by
  rw [read, Json.read?_print stands.wellFormed, Option.bind_some, stands.decoded]

/-- A document from which fields were left out stands for the settings that were kept. -/
theorem standsFor_keeping (stands : StandsFor ofJson? (.record members) config)
    (keep : String → Bool) :
    StandsFor ofJson? (.record (members.filter fun field => keep field.1))
      (config.keeping keep) where
  decoded := ofJson?_of_kept stands.decoded
  wellFormed := by
    have all := wellFormed_record_iff.1 stands.wellFormed
    exact wellFormed_record_iff.2 fun field mem => all field (List.mem_of_mem_filter mem)

end Config

/-- Messages and configurations survive as documents.

For every type of message, a value is decoded from the document that was made of it, also from
what was printed of that document and read again, so no two values of a type are printed alike.
This holds for the identities of contexts that signed words can hold, and for every value of the
other types. A write without a value and a write of the empty value stay apart.

What is printed of a configuration is read as that configuration just when the settings are valid,
and refused for the same reason otherwise. From any document of a configuration, any of the fields
may be left out: it is then decoded to the same configuration with these fields at their defaults.
What is printed of a shortened document is read just when these settings are valid, and they are
if those of the whole document are. -/
theorem messages_survive_as_documents :
    (Survives .univ Response.toJson Response.ofJson? ∧
      Survives .univ ArgPair.toJson ArgPair.ofJson? ∧
      Survives .univ CallArgs.toJson CallArgs.ofJson? ∧
      Survives .univ SyscallKind.toJson SyscallKind.ofJson? ∧
      Survives {header | header.context ∈ ContextId.wordSized} SyscallHeader.toJson
        SyscallHeader.ofJson? ∧
      Survives .univ SyscallRequest.toJson SyscallRequest.ofJson? ∧
      Survives .univ SyscallResponse.toJson SyscallResponse.ofJson? ∧
      Survives ContextId.wordSized ContextId.toJson ContextId.ofJson? ∧
      (∀ retained, Survives .univ Trap.toJson (Trap.ofJson? retained)) ∧
      Survives .univ Resources.toJson Resources.ofJson? ∧
      Survives .univ Rates.toJson Rates.ofJson? ∧
      Survives .univ Outcome.toJson Outcome.ofJson? ∧
      Survives .univ Config.toJson Config.ofJson?) ∧
    (∀ key, Json.print (SyscallRequest.putObject key none).toJson ≠
      Json.print (SyscallRequest.putObject key (some [])).toJson) ∧
    ∀ config : Config,
      (Config.read (Json.print config.toJson) = .ok config ↔ config.validate = .ok ()) ∧
      (∀ e, config.validate = .error e → Config.read (Json.print config.toJson) = .error e) ∧
      (∀ members keep, Config.ofJson? (.record members) = some config →
        Config.ofJson? (.record (members.filter fun field => keep field.1)) =
          some (config.keeping keep)) ∧
      ∀ members keep, config.toJson = .record members →
        let printed := Json.print (.record (members.filter fun field => keep field.1))
        Config.read printed = (config.keeping keep).validate.map (fun _ => config.keeping keep) ∧
          (config.validate = .ok () → Config.read printed = .ok (config.keeping keep)) := by
  refine ⟨⟨?_, ?_, ?_, ?_, ?_, ?_, ?_, ?_, ?_, ?_, ?_, ?_, ?_⟩, ?_, fun config =>
    ⟨?_, ?_, fun members keep => Config.ofJson?_of_kept, ?_⟩⟩
  · exact .of_standsFor fun r _ => r.standsFor
  · exact .of_standsFor fun pair _ => pair.standsFor
  · exact .of_standsFor fun call _ => call.standsFor
  · exact .of_standsFor fun kind _ => kind.standsFor
  · exact .of_standsFor fun _ sized => SyscallHeader.standsFor sized
  · exact .of_standsFor fun request _ => request.standsFor
  · exact .of_standsFor fun answer _ => answer.standsFor
  · exact .of_standsFor fun _ sized => ContextId.standsFor sized
  · exact fun retained => .of_standsFor fun trap _ => trap.standsFor retained
  · exact .of_standsFor fun r _ => r.standsFor
  · exact .of_standsFor fun r _ => r.standsFor
  · exact .of_standsFor fun outcome _ => outcome.standsFor
  · exact .of_standsFor fun config _ => config.standsFor
  · intro key same
    have survives : Survives .univ SyscallRequest.toJson SyscallRequest.ofJson? :=
      .of_standsFor fun request _ => request.standsFor
    cases survives.apart trivial trivial same
  · rw [Config.read_print config.standsFor]
    cases config.validate with
    | ok => simp [Except.map]
    | error e => simp [Except.map]
  · intro e invalid
    rw [Config.read_print config.standsFor, invalid]
    rfl
  · intro members keep listed
    have stands : StandsFor Config.ofJson? (.record members) config := listed ▸ config.standsFor
    have read := Config.read_print (Config.standsFor_keeping stands keep)
    refine ⟨read, fun valid => ?_⟩
    rw [read, Config.validate_keeping valid keep]
    rfl

end ContractHost
