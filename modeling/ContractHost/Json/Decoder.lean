/-
# Decoding JSON documents

How documents stand for the values of the library's types. A record is an object with a
member for each field, where other members are ignored and a repeated field is refused,
or an array of its fields in their order. A choice between alternatives is the name of
the alternative, or an object whose only member has that name and holds the rest.
-/

import ContractHost.Json.Basic
import ContractHost.Table
import ContractHost.Text.Utf8

namespace ContractHost.Json

/-- The text of a string. -/
def text? : Json → Option String
  | .string text => text
  | _ => none

/-- The integer of a number between two bounds, both included. -/
def integerIn? (low high : Int) : Json → Option Int
  | .number n => n.integer?.filter fun i => decide (low ≤ i) && decide (i ≤ high)
  | _ => none

/-- The natural number below a bound. -/
def naturalBelow? (bound : Nat) (j : Json) : Option Nat :=
  (integerIn? 0 ((bound : Int) - 1) j).map Int.toNat

/-- A word of sixty-four bits. -/
def word? (j : Json) : Option UInt64 := (naturalBelow? UInt64.size j).map UInt64.ofNat

/-- A word of thirty-two bits. -/
def halfWord? (j : Json) : Option UInt32 := (naturalBelow? UInt32.size j).map UInt32.ofNat

/-- A status. -/
def status? (j : Json) : Option Int32 :=
  (integerIn? Int32.minValue.toInt Int32.maxValue.toInt j).map Int32.ofInt

/-- The items of an array, each decoded. -/
def items? {α : Type} (decode : Json → Option α) : Json → Option (List α)
  | .array items => items.mapM decode
  | _ => none

/-- A byte string, as the array of its octets. -/
def octets? (j : Json) : Option Bytes :=
  items? (fun item => (naturalBelow? 256 item).map UInt8.ofNat) j

/-- A value or null. -/
def nullable? {α : Type} (decode : Json → Option α) : Json → Option (Option α)
  | .null => some none
  | j => (decode j).map some

/-- The members of an object whose keys all denote texts. -/
def members? : Json → Option (List (String × Json))
  | .object members => members.mapM fun (key, value) => key.map fun key => (key, value)
  | _ => none

/-- The members of an object, each decoded; the last member of a key counts. -/
def table? {α : Type} (decode : Json → Option α) (j : Json) : Option (Table String α) := do
  let members ← j.members?
  let values ← members.mapM fun (key, value) => (decode value).map fun value => (key, value)
  return Table.ofList values

/-- The fields that a document gives for a record: by name, or by place. -/
inductive Fields
  | named (values : List (String × Json))
  | placed (values : List (String × Json))

namespace Fields

/-- Collects the fields of a record with the given names. -/
def ofJson? (names : List String) : Json → Option Fields
  | .array items =>
    if items.length ≤ names.length then some (.placed (names.zip items)) else none
  | j => do
    let members ← j.members?
    let known := members.filter fun (key, _) => names.contains key
    if (known.map (·.1)).Nodup then some (.named known) else none

/-- The value given for a field. -/
def get? (fields : Fields) (name : String) : Option Json :=
  match fields with
  | .named values | .placed values => values.lookup name

/-- A field that has to be given. -/
def required {α : Type} (fields : Fields) (name : String) (decode : Json → Option α) : Option α :=
  (fields.get? name).bind decode

/-- A field that an object need not give, and that may be null. -/
def optional {α : Type} (fields : Fields) (name : String) (decode : Json → Option α) :
    Option (Option α) :=
  match fields, fields.get? name with
  | _, some value => nullable? decode value
  | .named _, none => some none
  | .placed _, none => none

/-- A field that takes a default where it is not given. -/
def defaulted {α : Type} (fields : Fields) (name : String) (default : α)
    (decode : Json → Option α) : Option α :=
  match fields.get? name with
  | some value => decode value
  | none => some default

end Fields

/-- A choice: the name of an alternative, and what is given with it. -/
def choice? : Json → Option (String × Option Json)
  | .string (some name) => some (name, none)
  | .object [(some name, value)] => some (name, some value)
  | _ => none

/-- True of what may be given with an alternative that holds nothing. In a document that
was kept whole an empty object counts as nothing. -/
def isNothing (retained : Bool) : Option Json → Bool
  | none | some .null => true
  | some (.object []) => retained
  | some _ => false

end ContractHost.Json
