/-
# Names and store keys

One store holds the code, the language and the data of every contract. Contract names
are restricted, so that the keys of different contracts and of different purposes never
meet: a data key starts with a name and a dash, which no name contains, and the keys of
code and description start with an octet that no name starts with.
-/

import ContractHost.Error

namespace ContractHost

namespace Naming

/-- ASCII letters. -/
def isLetter (b : UInt8) : Bool := (0x41 ≤ b && b ≤ 0x5A) || (0x61 ≤ b && b ≤ 0x7A)

/-- ASCII letters and digits. -/
def isAlphanumeric (b : UInt8) : Bool := isLetter b || (0x30 ≤ b && b ≤ 0x39)

/-- The underscore. -/
def underscore : UInt8 := 0x5F

/-- The dot. -/
def dot : UInt8 := 0x2E

/-- The dash between a contract's name and a key of its data. -/
def dash : UInt8 := 0x2D

/-- What a contract name may start with. -/
def canOpen (b : UInt8) : Bool := isLetter b || b == underscore

/-- What a contract name may end with. -/
def canClose (b : UInt8) : Bool := isAlphanumeric b || b == underscore

/-- What a contract name may hold between its ends. -/
def canStandInside (b : UInt8) : Bool := isAlphanumeric b || b == underscore || b == dot

/-- The fewest octets of a contract name. -/
def minLength : Nat := 4

/-- The most octets of a contract name. -/
def maxLength : Nat := 16

/-- True of the octets of a contract name. -/
def isName (octets : Bytes) : Bool :=
  minLength ≤ octets.length && octets.length ≤ maxLength &&
    octets.head?.any canOpen && octets.getLast?.any canClose &&
    octets.tail.dropLast.all canStandInside

/-- Accepts the names that a contract may have. -/
def validate (name : String) : Except HostError Unit :=
  if isName (Utf8.encode name) then .ok () else .error (.invalidName name)

end Naming

namespace StoreKey

/-- What the keys of code start with. -/
def codeMark : Bytes := 0x00 :: Utf8.encode "code" ++ [0x00]

/-- What the keys of descriptions start with. -/
def descriptionMark : Bytes := 0x00 :: Utf8.encode "desc" ++ [0x00]

/-- The key of a contract's bytecode. -/
def code (contract : String) : Bytes := codeMark ++ Utf8.encode contract

/-- The key of a contract's language tag. -/
def description (contract : String) : Bytes := descriptionMark ++ Utf8.encode contract

/-- The key of an object among a contract's data. -/
def object (contract : String) (key : Bytes) : Bytes :=
  Utf8.encode contract ++ Naming.dash :: key

/-- The physical key of a key inside a named logical store. -/
def logical (store : String) (key : Bytes) : Bytes := Utf8.encode store ++ 0x00 :: key

end StoreKey

end ContractHost
