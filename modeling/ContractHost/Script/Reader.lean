/-
# Reading script programs

A program is a JSON document. An operation is an object with its name under `op` and its
fields beside it, or an array of its name and its fields in their order; fields at the
end that have a default may be left out. Operations are kept whole before they are read,
so every part of an operation has to be readable, also parts that it ignores, and an
operation inside a branch may give its name by number.
-/

import ContractHost.Json.Reader
import ContractHost.Message.Codec
import ContractHost.Script.Program

namespace ContractHost.Script

open Json (Fields)

/-- How deep the arrays and objects of a document may nest where they are read. -/
def maxNesting : Nat := 127

/-- How deep the document of an exported operation may nest: it stands inside the
program, its exports, and a list of operations. -/
def operationNesting : Nat := maxNesting - 3

namespace Op

/-- The names of the operations, by number. -/
def names : List String :=
  ["get_call_args", "put", "put_nil", "get", "delete", "output", "require_ge", "add", "sub",
    "call", "transfer", "log", "burn", "grow", "trap", "branch", "spin", "return"]

/-- The names of an operation's fields in their order. -/
def fieldNames : String → List String
  | "put" => ["key", "value"]
  | "put_nil" | "delete" => ["key"]
  | "get" => ["key", "into", "default"]
  | "output" => ["status", "message", "body"]
  | "require_ge" => ["lhs", "rhs", "status", "message"]
  | "add" | "sub" => ["into", "lhs", "rhs"]
  | "call" => ["module", "contract", "method", "args", "into"]
  | "transfer" => ["from", "to", "amount"]
  | "log" => ["message"]
  | "burn" => ["gas"]
  | "grow" => ["bytes"]
  | "trap" => ["kind"]
  | "branch" => ["on", "cases", "default"]
  | "spin" => ["millis"]
  | _ => []

/-- The name that a document gives for an operation. -/
def name? (numbered : Bool) : Json → Option String
  | .string (some name) => if names.contains name then some name else none
  | j => if numbered then (Json.naturalBelow? names.length j).bind (names[·]?) else none

/-- The name of an operation, and the document of its fields. -/
def tagged? (numbered : Bool) : Json → Option (String × Json)
  | .array (tag :: fields) => (name? numbered tag).map fun name => (name, .array fields)
  | .object members =>
    match members.filter fun (key, _) => key == some "op" with
    | [(_, tag)] => (name? numbered tag).map fun name =>
      (name, .object (members.filter fun (key, _) => key != some "op"))
    | _ => none
  | _ => none

/-- Reads the instruction of a name from the document of its fields. -/
def instruction? (name : String) (rest : Json) : Option Instruction := do
  let fields ← Fields.ofJson? (fieldNames name) rest
  let text (field : String) : Option String := fields.required field Json.text?
  match name with
  | "get_call_args" => return .getCallArgs
  | "put" => return .put (← text "key") (← text "value")
  | "put_nil" => return .putNil (← text "key")
  | "get" =>
    return .get (← text "key") (← text "into")
      (← fields.defaulted "default" none (Json.nullable? Json.text?))
  | "delete" => return .delete (← text "key")
  | "output" =>
    return .output (← fields.defaulted "status" Response.okStatus Json.status?)
      (← fields.defaulted "message" "" Json.text?) (← fields.defaulted "body" "" Json.text?)
  | "require_ge" =>
    return .requireAtLeast (← text "lhs") (← text "rhs")
      (← fields.required "status" Json.status?) (← text "message")
  | "add" => return .add (← text "into") (← text "lhs") (← text "rhs")
  | "sub" => return .sub (← text "into") (← text "lhs") (← text "rhs")
  | "call" =>
    return .call (← fields.defaulted "module" SyscallRequest.contractModule Json.text?)
      (← text "contract") (← text "method")
      (← fields.defaulted "args" .empty (Json.table? Json.text?)).entries
      (← fields.defaulted "into" none (Json.nullable? Json.text?))
  | "transfer" => return .transfer (← text "from") (← text "to") (← text "amount")
  | "log" => return .log (← text "message")
  | "burn" => return .burn (← fields.required "gas" Json.word?)
  | "grow" => return .grow (← fields.required "bytes" Json.word?)
  | "trap" => return .trap (← fields.required "kind" (Trap.ofJson? true))
  | "spin" => return .spin (← fields.required "millis" Json.word?)
  | "return" => return .stop
  | _ => none

/-- Reads a branch from the document of its fields, given how the operations inside it
are read. -/
def branch? (inner : Json → Option Op) (rest : Json) : Option Op := do
  let fields ← Fields.ofJson? (fieldNames "branch") rest
  let ops := Json.items? inner
  return branch (← fields.required "on" Json.text?)
    (← fields.required "cases" (Json.table? ops)).entries
    (← fields.defaulted "default" [] ops)

/-- Reads an operation, and operations inside it up to a depth. -/
def read? : Nat → Bool → Json → Option Op
  | 0, _, _ => none
  | depth + 1, numbered, j => do
    let (name, rest) ← tagged? numbered j
    if name = "branch" then branch? (read? depth true) rest
    else (instruction? name rest).map single

/-- Reads an exported operation. -/
def ofJson? (j : Json) : Option Op :=
  if j.retainable operationNesting then read? maxNesting false j else none

end Op

namespace Program

/-- An import: a module and a name. -/
def import? : Json → Option (String × String)
  | .array [module, name] => do return (← module.text?, ← name.text?)
  | _ => none

/-- The program of a document. -/
def ofJson? (j : Json) : Option Program := do
  let fields ← Fields.ofJson? ["memory", "imports", "exports"] j
  return {
    memory := ← fields.defaulted "memory" (some standardMemory) (Json.nullable? Json.word?)
    imports := ← fields.defaulted "imports" [] (Json.items? import?)
    exports := ← fields.required "exports" (Json.table? (Json.items? Op.ofJson?)) }

/-- Reads a program. -/
def read? (bytecode : Bytes) : Option Program := (Json.read? bytecode).bind ofJson?

end Program

end ContractHost.Script
