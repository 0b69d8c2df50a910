/-
# JSON documents

A document as its grammar sees it. A number keeps its sign, digits and exponent, because
only a number without fraction and exponent is an integer here. A string is the text
that it denotes, or nothing when its octets or escapes denote no text; the members of
an object keep their order and their repetitions. What a document means is left to its
readers: they refuse strings without text and numbers out of range where they use them,
and nowhere else.
-/

import ContractHost.Bytes
import ContractHost.Text.Decimal

namespace ContractHost.Json

/-- A number as it is written: a sign, the digits before the point, those after it, and
a power of ten. -/
structure Number where
  negative : Bool := false
  whole : List Nat
  fraction : Option (List Nat) := none
  exponent : Option Int := none
deriving DecidableEq, Repr

namespace Number

/-- The number of a natural number. -/
def ofNat (n : Nat) : Number where
  whole := Decimal.digits n

/-- The number of an integer. -/
def ofInt : Int → Number
  | .ofNat n => ofNat n
  | .negSucc n => { negative := true, whole := Decimal.digits (n + 1) }

/-- Appends digits to a word. The first digit that no longer fits is left over, and so
are all after it. -/
def takeDigits : Nat → List Nat → Nat × List Nat
  | n, [] => (n, [])
  | n, d :: rest =>
    if n * 10 + d < UInt64.size then takeDigits (n * 10 + d) rest else (n, d :: rest)

/-- The integer that a number denotes, if it is written as one and a word of sixty-four
bits holds it. Minus zero is no integer. -/
def integer? (n : Number) : Option Int :=
  match n.fraction, n.exponent, takeDigits 0 n.whole with
  | none, none, (size, []) =>
    if n.negative then
      if 0 < size ∧ 2 * size ≤ UInt64.size then some (-(size : Int)) else none
    else some size
  | _, _, _ => none

/-- A natural number rounded to fifty-three significant bits, ties to even. -/
def roundSignificant (n : Nat) : Nat :=
  let unit := 1 <<< (n.log2 + 1 - 53)
  let rest := n % unit
  let down := n / unit
  let carry := if 2 * rest < unit then 0 else if unit < 2 * rest then 1 else down % 2
  (down + carry) * unit

/-- The leading digits of a number that one word holds, and the power of ten that they
are to be multiplied with. -/
def significand (n : Number) : Nat × Int :=
  let (leading, long) := takeDigits 0 n.whole
  let fraction := n.fraction.getD []
  let (digits, rest) := takeDigits leading fraction
  (digits, (long.length : Int) - ((fraction.length : Int) - rest.length) + n.exponent.getD 0)

/-- True of the numbers that a floating-point number of double precision can stand for:
the leading digits times the power of ten, rounded at each step, stay finite. -/
def isFinite (n : Number) : Bool :=
  let (digits, power) := n.significand
  digits == 0 || power ≤ 0 ||
    (power ≤ 308 &&
      roundSignificant (roundSignificant digits * roundSignificant (Nat.pow 10 power.toNat)) <
        1 <<< 1024)

end Number

end ContractHost.Json

namespace ContractHost

/-- A document. -/
inductive Json
  | null
  | bool (value : Bool)
  | number (value : Json.Number)
  | string (text : Option String)
  | array (items : List Json)
  | object (members : List (Option String × Json))
deriving Repr

namespace Json

instance : Inhabited Json := ⟨.null⟩

/-- The document of a text. -/
def text (s : String) : Json := .string (some s)

/-- The document of a natural number. -/
def natural (n : Nat) : Json := .number (.ofNat n)

/-- The document of an integer. -/
def integer (n : Int) : Json := .number (.ofInt n)

/-- The document of a byte string: the array of its octets. -/
def octets (bytes : Bytes) : Json := .array (bytes.map fun b => natural b.toNat)

/-- The document of a record, from its fields. -/
def record (fields : List (String × Json)) : Json :=
  .object (fields.map fun (name, value) => (some name, value))

/-- The document of an optional value. -/
def option : Option Json → Json
  | some value => value
  | none => .null

/-- True of the documents that can be kept whole for a later reading: arrays and objects
nest at most as deep as allowed, every string denotes a text, and every number is
finite. -/
def retainable : Nat → Json → Bool
  | _, .null | _, .bool _ => true
  | _, .number n => n.isFinite
  | _, .string text => text.isSome
  | 0, .array _ | 0, .object _ => false
  | room + 1, .array items => items.all (retainable room)
  | room + 1, .object members =>
    members.all fun (key, value) => key.isSome && retainable room value

end Json

end ContractHost
