/-
# Byte strings

Store keys, stored values, bytecode and call arguments are byte strings. They are kept
as lists, so that their order is the lexicographic order of lists and a key is built
by appending. Types whose values are told apart by a byte string serve as keys of the
ordered tables.
-/

namespace ContractHost

/-- A byte string. -/
abbrev Bytes := List UInt8

namespace Bytes

/-- The lowercase hexadecimal digit of a number below sixteen. -/
def hexDigit (n : Nat) : Char :=
  if n < 10 then Char.ofNat ('0'.toNat + n) else Char.ofNat ('a'.toNat + (n - 10))

/-- Two lowercase hexadecimal digits for each byte. -/
def toHex (bytes : Bytes) : String :=
  String.ofList (bytes.flatMap fun b => [hexDigit (b.toNat / 16), hexDigit (b.toNat % 16)])

/-- The value of a hexadecimal digit. -/
def hexValue? (c : Char) : Option Nat :=
  if '0' ≤ c ∧ c ≤ '9' then some (c.toNat - '0'.toNat)
  else if 'a' ≤ c ∧ c ≤ 'f' then some (c.toNat - 'a'.toNat + 10)
  else none

/-- The bytes of lowercase hexadecimal digits, two for each. -/
def ofHex? : List Char → Option Bytes
  | [] => some []
  | high :: low :: rest => do
    return UInt8.ofNat ((← hexValue? high) * 16 + (← hexValue? low)) :: (← ofHex? rest)
  | [_] => none

end Bytes

/-- Values that a byte string identifies. The order of the byte strings is the order
in which a table lists such keys. -/
class ByteKey (κ : Type) where
  bytes : κ → Bytes
  bytes_injective : ∀ {a b : κ}, bytes a = bytes b → a = b

instance : ByteKey Bytes where
  bytes := id
  bytes_injective h := h

end ContractHost
