/-
# Messages between a program and its host

A running program asks its host for services by syscalls, one request and one response
each. The request carries everything that the service needs besides the identity of the
calling context; call arguments are listed in ascending order of their keys, each key
once, whatever order they were given in.
-/

import ContractHost.Table
import ContractHost.Resources
import ContractHost.Text.Utf8

namespace ContractHost

/-- The identity of an execution context. -/
structure ContextId where
  number : Int
deriving DecidableEq, Repr, Inhabited

/-- What a contract answers. -/
structure Response where
  status : Int32
  message : String
  body : Bytes
deriving DecidableEq, Repr, Inhabited

namespace Response

/-- The status of a successful response. -/
def okStatus : Int32 := 200

/-- The least status of a failing response. -/
def errorStatus : Int32 := 400

/-- A successful response with a body. -/
def ok (body : Bytes) : Response := ⟨okStatus, "", body⟩

/-- A failing response. -/
def failure (status : Int32) (message : String) : Response := ⟨status, message, []⟩

/-- True of a response by which a contract reports a failure. -/
def isError (r : Response) : Bool := errorStatus ≤ r.status

end Response

/-- The arguments of a call by name. -/
abbrev Arguments := Table String Bytes

/-- One argument of a call. -/
structure ArgPair where
  key : String
  value : Bytes
deriving DecidableEq, Repr

/-- What a program learns about the call that it serves. -/
structure CallArgs where
  method : String
  args : List ArgPair
  caller : String
deriving DecidableEq, Repr

namespace CallArgs

/-- Sorts arguments by ascending key. -/
def sortByKey (pairs : List ArgPair) : List ArgPair :=
  pairs.mergeSort fun a b => decide (ByteKey.bytes a.key ≤ ByteKey.bytes b.key)

/-- What a call with some entries as its arguments is told, in whatever order they come. -/
def ofEntries (method : String) (entries : List (String × Bytes)) (caller : String) :
    CallArgs where
  method
  args := sortByKey (entries.map fun (key, value) => ⟨key, value⟩)
  caller

/-- The arguments of a call, listed by ascending key. -/
def ofArguments (method : String) (args : Arguments) (caller : String) : CallArgs :=
  ofEntries method args.entries caller

/-- Searches a stretch of arguments that are listed by ascending key, from one place up to
another. Each look at the middle leaves half of the stretch. -/
def search? (args : List ArgPair) (key : String) (low high : Nat) : Option Bytes :=
  if low < high then
    let middle := (low + high) / 2
    match args[middle]? with
    | none => none
    | some pair =>
      if pair.key = key then some pair.value
      else if ByteKey.bytes pair.key < ByteKey.bytes key then search? args key (middle + 1) high
      else search? args key low middle
  else none
termination_by high - low

/-- The value of an argument. -/
def get? (call : CallArgs) (key : String) : Option Bytes :=
  search? call.args key 0 call.args.length

end CallArgs

/-- The arguments that a list of pairs gives; the last pair of a key counts. -/
def Arguments.ofPairs (pairs : List ArgPair) : Arguments :=
  Table.ofList (pairs.map fun pair => (pair.key, pair.value))

/-- The services that a program may ask for. -/
inductive SyscallKind
  | putObject
  | getObject
  | deleteObject
  | getCallArgs
  | setOutput
  | transfer
  | contractCall
deriving DecidableEq, Repr

namespace SyscallKind

/-- Every service. -/
def all : List SyscallKind :=
  [putObject, getObject, deleteObject, getCallArgs, setOutput, transfer, contractCall]

/-- The name under which a program imports a service. -/
def name : SyscallKind → String
  | putObject => "PutObject"
  | getObject => "GetObject"
  | deleteObject => "DeleteObject"
  | getCallArgs => "GetCallArgs"
  | setOutput => "SetOutput"
  | transfer => "Transfer"
  | contractCall => "ContractCall"

/-- The service of a name. -/
def ofName? (name : String) : Option SyscallKind := all.find? fun kind => kind.name == name

end SyscallKind

/-- What identifies the caller in every syscall. -/
structure SyscallHeader where
  context : ContextId
deriving DecidableEq, Repr

/-- A syscall, with what its service needs. A write names its value, or no value at all,
which is refused; a write of the empty value is another thing. -/
inductive SyscallRequest
  | putObject (key : Bytes) (value : Option Bytes)
  | getObject (key : Bytes)
  | deleteObject (key : Bytes)
  | getCallArgs
  | setOutput (response : Response)
  | transfer (payer payee amount : String)
  | contractCall (module contract method : String) (args : List ArgPair)
deriving DecidableEq, Repr

/-- The module under which contracts are called. -/
def SyscallRequest.contractModule : String := "wasm"

/-- The service that a request asks for. -/
def SyscallRequest.kind : SyscallRequest → SyscallKind
  | putObject .. => .putObject
  | getObject .. => .getObject
  | deleteObject .. => .deleteObject
  | getCallArgs => .getCallArgs
  | setOutput .. => .setOutput
  | transfer .. => .transfer
  | contractCall .. => .contractCall

/-- What a service answers. -/
inductive SyscallResponse
  | empty
  | value (bytes : Bytes)
  | callArgs (args : CallArgs)
  | response (response : Response)
deriving DecidableEq, Repr

/-- The result of a call that ended well: the contract's response, what the call and the
calls inside it used, and the price of that. -/
structure Outcome where
  response : Response
  resources : Resources
  gas : UInt64
deriving DecidableEq, Repr

/-- The outcome of a call, priced at the given rates. -/
def Outcome.priced (response : Response) (resources : Resources) (rates : Rates) : Outcome :=
  ⟨response, resources, resources.gas rates⟩

end ContractHost
