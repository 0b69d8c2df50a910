/-
# Messages as JSON documents

Each message type has one written form, and a reader for it that also accepts the other
spellings of the same value. Reading what was written gives the value back.
-/

import ContractHost.Json.Decoder
import ContractHost.Message
import ContractHost.Trap

namespace ContractHost

open Json (Fields)

namespace Resources

/-- The names of the fields in their order. -/
def fieldNames : List String := ["cpu", "memory", "disk", "fee"]

/-- The document of an amount of resources. -/
def toJson (r : Resources) : Json :=
  .record [("cpu", .natural r.cpu.toNat), ("memory", .natural r.memory.toNat),
    ("disk", .natural r.disk.toNat), ("fee", .natural r.fee.toNat)]

/-- The amount of resources of a document. -/
def ofJson? (j : Json) : Option Resources := do
  let fields ← Fields.ofJson? fieldNames j
  return {
    cpu := ← fields.required "cpu" Json.word?
    memory := ← fields.required "memory" Json.word?
    disk := ← fields.required "disk" Json.word?
    fee := ← fields.required "fee" Json.word? }

end Resources

namespace Rates

/-- The document of rates. -/
def toJson (r : Rates) : Json :=
  .record [("cpu", .natural r.cpu.toNat), ("memory", .natural r.memory.toNat),
    ("disk", .natural r.disk.toNat), ("fee", .natural r.fee.toNat)]

/-- The rates of a document. -/
def ofJson? (j : Json) : Option Rates := do
  let fields ← Fields.ofJson? Resources.fieldNames j
  return {
    cpu := ← fields.required "cpu" Json.word?
    memory := ← fields.required "memory" Json.word?
    disk := ← fields.required "disk" Json.word?
    fee := ← fields.required "fee" Json.word? }

end Rates

namespace ContextId

/-- The document of a context's identity. -/
def toJson (id : ContextId) : Json := .integer id.number

/-- The identity that a document gives. -/
def ofJson? (j : Json) : Option ContextId :=
  (Json.integerIn? Int64.minValue.toInt Int64.maxValue.toInt j).map ContextId.mk

end ContextId

namespace SyscallHeader

/-- The document of a header. -/
def toJson (header : SyscallHeader) : Json := .record [("ctx_id", header.context.toJson)]

/-- The header of a document. -/
def ofJson? (j : Json) : Option SyscallHeader := do
  let fields ← Fields.ofJson? ["ctx_id"] j
  return { context := ← fields.required "ctx_id" ContextId.ofJson? }

end SyscallHeader

namespace Response

/-- The document of a response. -/
def toJson (r : Response) : Json :=
  .record [("status", .integer r.status.toInt), ("message", .text r.message),
    ("body", .octets r.body)]

/-- The response of a document. -/
def ofJson? (j : Json) : Option Response := do
  let fields ← Fields.ofJson? ["status", "message", "body"] j
  return {
    status := ← fields.required "status" Json.status?
    message := ← fields.required "message" Json.text?
    body := ← fields.required "body" Json.octets? }

end Response

namespace ArgPair

/-- The document of an argument. -/
def toJson (pair : ArgPair) : Json :=
  .record [("key", .text pair.key), ("value", .octets pair.value)]

/-- The argument of a document. -/
def ofJson? (j : Json) : Option ArgPair := do
  let fields ← Fields.ofJson? ["key", "value"] j
  return {
    key := ← fields.required "key" Json.text?
    value := ← fields.required "value" Json.octets? }

end ArgPair

namespace CallArgs

/-- The document of call arguments. -/
def toJson (call : CallArgs) : Json :=
  .record [("method", .text call.method), ("args", .array (call.args.map ArgPair.toJson)),
    ("caller", .text call.caller)]

/-- The call arguments of a document. -/
def ofJson? (j : Json) : Option CallArgs := do
  let fields ← Fields.ofJson? ["method", "args", "caller"] j
  return {
    method := ← fields.required "method" Json.text?
    args := ← fields.required "args" (Json.items? ArgPair.ofJson?)
    caller := ← fields.required "caller" Json.text? }

end CallArgs

namespace SyscallKind

/-- The document of a service's name. -/
def toJson (kind : SyscallKind) : Json := .text kind.name

/-- The service of a document. -/
def ofJson? (j : Json) : Option SyscallKind := do
  let (name, rest) ← j.choice?
  if Json.isNothing false rest then ofName? name else none

end SyscallKind

namespace SyscallRequest

/-- The document of a request: its service, with the fields that the service needs. -/
def toJson (request : SyscallRequest) : Json :=
  let given (fields : List (String × Json)) : Json :=
    .record [(request.kind.name, .record fields)]
  match request with
  | putObject key value => given [("key", .octets key), ("value", .option (value.map .octets))]
  | getObject key => given [("key", .octets key)]
  | deleteObject key => given [("key", .octets key)]
  | getCallArgs => .text request.kind.name
  | setOutput response => given [("response", response.toJson)]
  | transfer payer payee amount =>
    given [("from", .text payer), ("to", .text payee), ("amount", .text amount)]
  | contractCall module contract method args =>
    given [("module", .text module), ("contract", .text contract), ("method", .text method),
      ("args", .array (args.map ArgPair.toJson))]

/-- The request of a document. -/
def ofJson? (j : Json) : Option SyscallRequest := do
  let (name, rest) ← j.choice?
  match ← SyscallKind.ofName? name with
  | .putObject =>
    let fields ← Fields.ofJson? ["key", "value"] (← rest)
    return putObject (← fields.required "key" Json.octets?)
      (← fields.optional "value" Json.octets?)
  | .getObject =>
    let fields ← Fields.ofJson? ["key"] (← rest)
    return getObject (← fields.required "key" Json.octets?)
  | .deleteObject =>
    let fields ← Fields.ofJson? ["key"] (← rest)
    return deleteObject (← fields.required "key" Json.octets?)
  | .getCallArgs => if Json.isNothing false rest then some getCallArgs else none
  | .setOutput =>
    let fields ← Fields.ofJson? ["response"] (← rest)
    return setOutput (← fields.required "response" Response.ofJson?)
  | .transfer =>
    let fields ← Fields.ofJson? ["from", "to", "amount"] (← rest)
    return transfer (← fields.required "from" Json.text?) (← fields.required "to" Json.text?)
      (← fields.required "amount" Json.text?)
  | .contractCall =>
    let fields ← Fields.ofJson? ["module", "contract", "method", "args"] (← rest)
    return contractCall (← fields.required "module" Json.text?)
      (← fields.required "contract" Json.text?) (← fields.required "method" Json.text?)
      (← fields.required "args" (Json.items? ArgPair.ofJson?))

end SyscallRequest

namespace SyscallResponse

/-- The document of a service's answer. -/
def toJson : SyscallResponse → Json
  | empty => .text "Empty"
  | value bytes => .record [("Value", .octets bytes)]
  | callArgs args => .record [("CallArgs", args.toJson)]
  | response r => .record [("Response", r.toJson)]

/-- The answer of a document. -/
def ofJson? (j : Json) : Option SyscallResponse := do
  let (name, rest) ← j.choice?
  if name = "Empty" then
    if Json.isNothing false rest then some empty else none
  else if name = "Value" then value <$> Json.octets? (← rest)
  else if name = "CallArgs" then callArgs <$> CallArgs.ofJson? (← rest)
  else if name = "Response" then response <$> Response.ofJson? (← rest)
  else none

end SyscallResponse

namespace Outcome

/-- The document of an outcome. -/
def toJson (outcome : Outcome) : Json :=
  .record [("response", outcome.response.toJson), ("resources", outcome.resources.toJson),
    ("gas", .natural outcome.gas.toNat)]

/-- The outcome of a document. -/
def ofJson? (j : Json) : Option Outcome := do
  let fields ← Fields.ofJson? ["response", "resources", "gas"] j
  return {
    response := ← fields.required "response" Response.ofJson?
    resources := ← fields.required "resources" Resources.ofJson?
    gas := ← fields.required "gas" Json.word? }

end Outcome

namespace Trap

/-- The name of a kind of trap in documents. -/
def name : Trap → String
  | outOfBounds => "out_of_bounds"
  | integerOverflow => "integer_overflow"
  | divideByZero => "divide_by_zero"
  | invalidConversion => "invalid_conversion"
  | unreachable => "unreachable"
  | invalidIndirectCall => "invalid_indirect_call"
  | callStackExhausted => "call_stack_exhausted"
  | gasExhausted => "gas_exhausted"
  | invalidArgument => "invalid_argument"
  | symbolNotFound .. => "symbol_not_found"
  | signatureMismatch .. => "signature_mismatch"
  | aborted _ => "aborted"

/-- The traps that hold nothing. -/
def plain : List Trap :=
  [outOfBounds, integerOverflow, divideByZero, invalidConversion, unreachable,
    invalidIndirectCall, callStackExhausted, gasExhausted, invalidArgument]

/-- The document of a trap. -/
def toJson (trap : Trap) : Json :=
  let symbol (module name : String) : Json :=
    .record [(trap.name, .record [("module", .text module), ("name", .text name)])]
  match trap with
  | symbolNotFound module name => symbol module name
  | signatureMismatch module name => symbol module name
  | aborted reason => .record [(trap.name, .text reason)]
  | _ => .text trap.name

/-- The trap of a document, which may be a part of a document that was kept whole. -/
def ofJson? (retained : Bool) (j : Json) : Option Trap := do
  let (name, rest) ← j.choice?
  let symbol (make : String → String → Trap) : Option Trap := do
    let fields ← Fields.ofJson? ["module", "name"] (← rest)
    return make (← fields.required "module" Json.text?) (← fields.required "name" Json.text?)
  match plain.find? fun trap => trap.name == name with
  | some trap => if Json.isNothing retained rest then some trap else none
  | none =>
    if name = "symbol_not_found" then symbol symbolNotFound
    else if name = "signature_mismatch" then symbol signatureMismatch
    else if name = "aborted" then aborted <$> Json.text? (← rest)
    else none

end Trap

end ContractHost
