/-
# UTF-8

Text is written as UTF-8 and read back octet by octet. Reading splits any byte string
into characters and malformed pieces, where a malformed piece is as long as the octets
still agree with some well-formed character. From the pieces follow the three ways of
reading: strictly, with the position of the first fault, and leniently, where each
malformed piece counts as one replacement character.
-/

import ContractHost.Bytes
import ContractHost.Text.Decimal

namespace ContractHost.Utf8

/-- The octets of a text. -/
def encode (s : String) : Bytes := s.toByteArray.data.toList

theorem encode_injective {a b : String} (h : encode a = encode b) : a = b := by
  apply String.toByteArray_inj.1
  exact ByteArray.ext (Array.toList_inj.1 h)

instance : ByteKey String where
  bytes := encode
  bytes_injective := encode_injective

/-- The character that stands for a malformed piece. -/
def replacement : Char := '\uFFFD'

/-- What reading finds: a character, octets that the next octet rules out, or octets
that the end of the input cuts short. -/
inductive Piece
  | char (c : Char)
  | malformed (length : Nat)
  | truncated (length : Nat)
deriving DecidableEq, Repr

/-- Between characters, or inside one: how many octets were read, how many are owed,
the bounds of the next one, and the bits collected. -/
inductive State
  | start
  | inside (read owed : Nat) (low high : UInt8) (bits : Nat)
deriving DecidableEq, Repr

/-- Reads an octet where a character may begin. -/
def State.lead (b : UInt8) : List Piece × State :=
  if b < 0x80 then ([.char (Char.ofNat b.toNat)], .start)
  else if b < 0xC2 then ([.malformed 1], .start)
  else if b < 0xE0 then ([], .inside 1 1 0x80 0xBF (b.toNat - 0xC0))
  else if b < 0xF0 then
    let low := if b = 0xE0 then 0xA0 else 0x80
    let high := if b = 0xED then 0x9F else 0xBF
    ([], .inside 1 2 low high (b.toNat - 0xE0))
  else if b < 0xF5 then
    let low := if b = 0xF0 then 0x90 else 0x80
    let high := if b = 0xF4 then 0x8F else 0xBF
    ([], .inside 1 3 low high (b.toNat - 0xF0))
  else ([.malformed 1], .start)

/-- Reads one octet. An octet that cannot continue a character ends it as malformed
and is read again as the first of the next. -/
def State.feed : State → UInt8 → List Piece × State
  | .start, b => lead b
  | .inside read owed low high bits, b =>
    if low ≤ b ∧ b ≤ high then
      let bits := bits * 64 + (b.toNat - 0x80)
      if owed ≤ 1 then ([.char (Char.ofNat bits)], .start)
      else ([], .inside (read + 1) (owed - 1) 0x80 0xBF bits)
    else
      let (pieces, next) := lead b
      (.malformed read :: pieces, next)

/-- The pieces of the rest of the input. -/
def scan : State → Bytes → List Piece
  | .start, [] => []
  | .inside read _ _ _ _, [] => [.truncated read]
  | state, b :: rest =>
    let (pieces, next) := state.feed b
    pieces ++ scan next rest

/-- The pieces of a byte string. -/
def pieces (bytes : Bytes) : List Piece := scan .start bytes

/-- Reads a byte string where every malformed piece counts as one replacement character. -/
def lossy (bytes : Bytes) : String :=
  String.ofList ((pieces bytes).map fun
    | .char c => c
    | .malformed _ | .truncated _ => replacement)

/-- Where strict reading stops, and how long the malformed piece is if the input does
not end inside it. -/
structure Fault where
  offset : Nat
  length : Option Nat
deriving DecidableEq, Repr

/-- The wording of a fault. -/
def Fault.message (fault : Fault) : String :=
  match fault.length with
  | some n =>
    "invalid utf-8 sequence of " ++ Decimal.print n ++ " bytes from index "
      ++ Decimal.print fault.offset
  | none => "incomplete utf-8 byte sequence from index " ++ Decimal.print fault.offset

/-- The characters of the pieces, or the first fault counted from an offset. -/
def collect : Nat → List Piece → Except Fault (List Char)
  | _, [] => .ok []
  | offset, .char c :: rest => (collect (offset + c.utf8Size) rest).map (c :: ·)
  | offset, .malformed n :: _ => .error ⟨offset, some n⟩
  | offset, .truncated _ :: _ => .error ⟨offset, none⟩

/-- Reads a byte string as text, or says where it is none. -/
def decode (bytes : Bytes) : Except Fault String :=
  (collect 0 (pieces bytes)).map String.ofList

/-- The text of a byte string, if it is well-formed. -/
def decode? (bytes : Bytes) : Option String := (decode bytes).toOption

end ContractHost.Utf8
