/-
# Deployment and invocation requests

A request is a set of named byte strings. Its fields are looked at in a fixed order and
the first that is missing or unusable is reported; the arguments of the call are a JSON
object whose members are texts or lists of octets.
-/

import ContractHost.Json.Reader
import ContractHost.Json.Decoder
import ContractHost.Naming

namespace ContractHost

/-- The fields of a request by name. -/
abbrev RequestFields := Table String Bytes

/-- A request that was accepted. -/
structure CallRequest where
  contract : String
  code : Bytes
  language : String
  args : Arguments
  caller : String
deriving DecidableEq

namespace CallRequest

/-- A field that has to be there. -/
def required (fields : RequestFields) (name : String) : Except HostError Bytes :=
  match fields.get? name with
  | some value => .ok value
  | none => .error (.missingField name)

/-- A field that has to be there and to be text. -/
def requiredText (fields : RequestFields) (name : String) : Except HostError String := do
  match Utf8.decode? (← required fields name) with
  | some text => return text
  | none => throw (.malformedArgs (name ++ " is not valid UTF-8"))

/-- The field that names the contract, if it holds a name. -/
def contractName (fields : RequestFields) : Except HostError String := do
  let octets ← required fields "contract_name"
  match Utf8.decode? octets with
  | some name => do
    Naming.validate name
    return name
  | none => throw (.invalidName (Utf8.lossy octets))

/-- The value of an argument: a text or the list of its octets. -/
def argument? : Json → Option Bytes
  | .string text => text.map Utf8.encode
  | j => j.octets?

/-- Reads the arguments of a call; of members with the same key the last counts. -/
def decodeArgs? (octets : Bytes) : Option Arguments :=
  (Json.read? octets).bind (Json.table? argument?)

/-- What arguments have to be. -/
def notArguments : String := "not an object of texts and octet lists"

/-- The arguments of the call. -/
def arguments (fields : RequestFields) : Except HostError Arguments := do
  match decodeArgs? (← required fields "args") with
  | some args => return args
  | none => throw (.malformedArgs notArguments)

/-- Accepts a request. Only a deployment has to come with code. -/
def parse (fields : RequestFields) (withCode : Bool) : Except HostError CallRequest := do
  let contract ← contractName fields
  let code ← if withCode then required fields "contract_code" else pure []
  let language ← requiredText fields "language"
  let args ← arguments fields
  let caller ← requiredText fields "caller"
  return { contract, code, language, args, caller }

end CallRequest

end ContractHost
