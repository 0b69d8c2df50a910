/-
# Printing JSON documents

Documents are printed without blanks. A string escapes what the grammar requires: quotes,
backslashes and control characters, the common ones by a letter.
-/

import ContractHost.Json.Basic
import ContractHost.Text.Utf8
import ContractHost.Text.Quoted

namespace ContractHost.Json

/-- A character as it stands between the quotes of a string. -/
def escape (c : Char) : List Char :=
  match c with
  | '"' => ['\\', '"']
  | '\\' => ['\\', '\\']
  | '\x08' => ['\\', 'b']
  | '\t' => ['\\', 't']
  | '\n' => ['\\', 'n']
  | '\x0c' => ['\\', 'f']
  | '\r' => ['\\', 'r']
  | c =>
    if c.toNat < 0x20 then
      ['\\', 'u', '0', '0', Bytes.hexDigit (c.toNat / 16), Bytes.hexDigit (c.toNat % 16)]
    else [c]

/-- A text between quotes. -/
def quote (s : String) : Bytes :=
  0x22 :: (Utf8.encode (String.ofList (s.toList.flatMap escape)) ++ [0x22])

/-- A string without text, as an escaped half of a character. -/
def halfCharacter : Bytes := 0x22 :: (Utf8.encode "\\ud800" ++ [0x22])

/-- A string, with or without text. -/
def printString : Option String → Bytes
  | some s => quote s
  | none => halfCharacter

/-- The octets of decimal digits. -/
def printDigits (digits : List Nat) : Bytes := digits.map fun d => UInt8.ofNat (0x30 + d)

/-- A number in the form that it was read in. -/
def Number.print (n : Number) : Bytes :=
  let sign := if n.negative then [0x2D] else []
  let fraction := match n.fraction with
    | some digits => 0x2E :: printDigits digits
    | none => []
  let exponent := match n.exponent with
    | some e => 0x65 :: Utf8.encode (Decimal.printInt e)
    | none => []
  sign ++ printDigits n.whole ++ fraction ++ exponent

/-- Parts with a comma between every two. -/
def commaSeparated : List Bytes → Bytes
  | [] => []
  | [part] => part
  | part :: rest => part ++ 0x2C :: commaSeparated rest

mutual

/-- A document as octets. -/
def print : Json → Bytes
  | .null => Utf8.encode "null"
  | .bool true => Utf8.encode "true"
  | .bool false => Utf8.encode "false"
  | .number n => n.print
  | .string s => printString s
  | .array items => 0x5B :: (commaSeparated (printItems items) ++ [0x5D])
  | .object members => 0x7B :: (commaSeparated (printMembers members) ++ [0x7D])

/-- The items of an array, each printed. -/
def printItems : List Json → List Bytes
  | [] => []
  | item :: rest => item.print :: printItems rest

/-- The members of an object, each printed with its key. -/
def printMembers : List (Option String × Json) → List Bytes
  | [] => []
  | (key, value) :: rest => (printString key ++ 0x3A :: value.print) :: printMembers rest

end

end ContractHost.Json
