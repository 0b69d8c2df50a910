/-
# JSON tokens

A document is read as a sequence of tokens. The scan goes octet by octet: it is between
tokens, inside a word, inside a number, or inside a string, and each octet ends the
token before it or extends it. Numbers and strings are taken apart once they are
complete.
-/

import ContractHost.Json.Basic
import ContractHost.Text.Utf8

namespace ContractHost.Json

/-- The smallest parts of a document. -/
inductive Token
  | openArray
  | closeArray
  | openObject
  | closeObject
  | colon
  | comma
  | null
  | bool (value : Bool)
  | number (value : Number)
  | string (text : Option String)
deriving DecidableEq, Repr

namespace Token

/-- The value of a decimal digit. -/
def digit? (b : UInt8) : Option Nat :=
  if 0x30 ≤ b ∧ b ≤ 0x39 then some (b.toNat - 0x30) else none

/-- The value of a hexadecimal digit. -/
def hexDigit? (b : UInt8) : Option Nat :=
  if 0x30 ≤ b ∧ b ≤ 0x39 then some (b.toNat - 0x30)
  else if 0x41 ≤ b ∧ b ≤ 0x46 then some (b.toNat - 0x37)
  else if 0x61 ≤ b ∧ b ≤ 0x66 then some (b.toNat - 0x57)
  else none

/-- Splits off the digits at the front. -/
def leadingDigits : Bytes → List Nat × Bytes
  | [] => ([], [])
  | b :: rest =>
    match digit? b with
    | some d =>
      let (digits, tail) := leadingDigits rest
      (d :: digits, tail)
    | none => ([], b :: rest)

/-- The exponent of a number, which ends it. -/
def exponent? : Bytes → Option (Option Int)
  | [] => some none
  | e :: rest =>
    if e = 0x65 ∨ e = 0x45 then
      let (negative, rest) := match rest with
        | 0x2D :: rest => (true, rest)
        | 0x2B :: rest => (false, rest)
        | rest => (false, rest)
      match leadingDigits rest with
      | ([], _) | (_, _ :: _) => none
      | (digits, []) =>
        let size : Int := Decimal.ofDigits digits
        some (some (if negative then -size else size))
    else none

/-- What follows the whole part of a number. -/
def fraction? : Bytes → Option (Option (List Nat) × Option Int)
  | 0x2E :: rest =>
    match leadingDigits rest with
    | ([], _) => none
    | (digits, tail) => (exponent? tail).map fun e => (some digits, e)
  | rest => (exponent? rest).map fun e => (none, e)

/-- Reads a number: no leading zeros, and digits on both sides of a point. -/
def number? (octets : Bytes) : Option Number :=
  let (negative, octets) := match octets with
    | 0x2D :: rest => (true, rest)
    | _ => (false, octets)
  match leadingDigits octets with
  | ([], _) | (0 :: _ :: _, _) => none
  | (digits, tail) => (fraction? tail).map fun (fraction, exponent) =>
    { negative, whole := digits, fraction, exponent }

/-- A part of a string between its quotes: an octet, or a code unit given by an escape. -/
inductive Unit
  | octet (b : UInt8)
  | escaped (unit : Nat)
deriving DecidableEq, Repr

/-- The octet of a one-letter escape. -/
def shortEscape? (b : UInt8) : Option UInt8 :=
  match b with
  | 0x22 | 0x5C | 0x2F => some b
  | 0x62 => some 0x08
  | 0x66 => some 0x0C
  | 0x6E => some 0x0A
  | 0x72 => some 0x0D
  | 0x74 => some 0x09
  | _ => none

/-- The parts of a string. An escape that the grammar does not know is a fault. -/
def units? : Bytes → Option (List Unit)
  | [] => some []
  | 0x5C :: 0x75 :: a :: b :: c :: d :: rest => do
    let a ← hexDigit? a
    let b ← hexDigit? b
    let c ← hexDigit? c
    let d ← hexDigit? d
    let units ← units? rest
    return .escaped (((a * 16 + b) * 16 + c) * 16 + d) :: units
  | 0x5C :: e :: rest => do
    let b ← shortEscape? e
    let units ← units? rest
    return .octet b :: units
  | [0x5C] => none
  | b :: rest => do
    let units ← units? rest
    return .octet b :: units

/-- The octets of a character given by its code point. -/
def octetsOf (code : Nat) : Bytes := Utf8.encode (Char.ofNat code).toString

/-- The octets that the parts of a string denote. Two escapes may give the halves of one
character; a half by itself denotes nothing. -/
def assemble : List Unit → Option Bytes
  | [] => some []
  | .octet b :: rest => (assemble rest).map (b :: ·)
  | .escaped high :: .escaped low :: rest =>
    if 0xD800 ≤ high ∧ high < 0xDC00 then
      if 0xDC00 ≤ low ∧ low < 0xE000 then
        let code := 0x10000 + (high - 0xD800) * 0x400 + (low - 0xDC00)
        (assemble rest).map (octetsOf code ++ ·)
      else none
    else if 0xDC00 ≤ high ∧ high < 0xE000 then none
    else (assemble (.escaped low :: rest)).map (octetsOf high ++ ·)
  | .escaped unit :: rest =>
    if 0xD800 ≤ unit ∧ unit < 0xE000 then none
    else (assemble rest).map (octetsOf unit ++ ·)

/-- Reads what stands between the quotes of a string. -/
def string? (octets : Bytes) : Option Token :=
  (units? octets).map fun units => .string ((assemble units).bind Utf8.decode?)

/-- The token of a word. -/
def word? (letters : Bytes) : Option Token :=
  if letters = Utf8.encode "null" then some .null
  else if letters = Utf8.encode "true" then some (.bool true)
  else if letters = Utf8.encode "false" then some (.bool false)
  else none

/-- The token of a punctuation mark. -/
def mark? (b : UInt8) : Option Token :=
  match b with
  | 0x5B => some .openArray
  | 0x5D => some .closeArray
  | 0x7B => some .openObject
  | 0x7D => some .closeObject
  | 0x3A => some .colon
  | 0x2C => some .comma
  | _ => none

/-- Where the scan is. The octets of an unfinished token are kept last first. -/
inductive Scan
  | between
  | word (letters : Bytes)
  | number (octets : Bytes)
  | string (octets : Bytes) (escaping : Bool)
deriving DecidableEq, Repr

/-- The four blanks of the grammar. -/
def isBlank (b : UInt8) : Bool := b == 0x20 || b == 0x09 || b == 0x0A || b == 0x0D

/-- Lowercase letters, of which words consist. -/
def isLetter (b : UInt8) : Bool := 0x61 ≤ b && b ≤ 0x7A

/-- The octets of numbers. -/
def isNumeral (b : UInt8) : Bool :=
  (digit? b).isSome || b == 0x2D || b == 0x2B || b == 0x2E || b == 0x65 || b == 0x45

/-- The octets that a number starts with. -/
def opensNumber (b : UInt8) : Bool := (digit? b).isSome || b == 0x2D

namespace Scan

/-- Reads an octet between tokens. -/
def start (b : UInt8) : Option (List Token × Scan) :=
  if isBlank b then some ([], .between)
  else if b = 0x22 then some ([], .string [] false)
  else if opensNumber b then some ([], .number [b])
  else if isLetter b then some ([], .word [b])
  else (mark? b).map fun token => ([token], .between)

/-- Reads an octet that ends a token and belongs to what follows. -/
def after (token : Option Token) (b : UInt8) : Option (List Token × Scan) := do
  let token ← token
  let (tokens, next) ← start b
  return (token :: tokens, next)

/-- Reads one octet. A raw control character inside a string is a fault. -/
def feed : Scan → UInt8 → Option (List Token × Scan)
  | .between, b => start b
  | .word letters, b =>
    if isLetter b then some ([], .word (b :: letters)) else after (word? letters.reverse) b
  | .number octets, b =>
    if isNumeral b then some ([], .number (b :: octets))
    else after ((number? octets.reverse).map .number) b
  | .string octets escaping, b =>
    if b < 0x20 then none
    else if escaping then some ([], .string (b :: octets) false)
    else if b = 0x5C then some ([], .string (b :: octets) true)
    else if b = 0x22 then (string? octets.reverse).map fun token => ([token], .between)
    else some ([], .string (b :: octets) false)

/-- What the end of the input completes. -/
def finish : Scan → Option (List Token)
  | .between => some []
  | .word letters => (word? letters.reverse).map ([·])
  | .number octets => (number? octets.reverse).map ([.number ·])
  | .string .. => none

/-- The tokens of the rest of the input. -/
def run : Scan → Bytes → Option (List Token)
  | scan, [] => scan.finish
  | scan, b :: rest => do
    let (tokens, next) ← scan.feed b
    let later ← run next rest
    return tokens ++ later

end Scan

/-- The tokens of a document. -/
def ofBytes? (octets : Bytes) : Option (List Token) := Scan.run .between octets

end Token

end ContractHost.Json
