/-
# Decimal numbers

Unsigned numbers as text: printed without leading zeros, and read from any run of
digits, leading zeros and one plus sign allowed, if the number stays below a bound.
-/

namespace ContractHost.Decimal

/-- The character of a digit. -/
def digitChar (d : Nat) : Char := Char.ofNat ('0'.toNat + d)

/-- The value of a digit character. -/
def digitValue? (c : Char) : Option Nat :=
  if '0' ≤ c ∧ c ≤ '9' then some (c.toNat - '0'.toNat) else none

/-- The decimal digits of a number, most significant first. -/
def digits (n : Nat) : List Nat :=
  if n < 10 then [n] else digits (n / 10) ++ [n % 10]

/-- The number that a list of decimal digits denotes. -/
def ofDigits (ds : List Nat) : Nat := ds.foldl (fun n d => n * 10 + d) 0

/-- A number as text. -/
def print (n : Nat) : String := String.ofList ((digits n).map digitChar)

/-- A signed number as text. -/
def printInt : Int → String
  | .ofNat n => print n
  | .negSucc n => "-" ++ print (n + 1)

/-- Reads digits after a number, as long as it stays below a bound. -/
def readDigits? (bound : Nat) : Nat → List Char → Option Nat
  | n, [] => some n
  | n, c :: rest => do
    let d ← digitValue? c
    if n * 10 + d < bound then readDigits? bound (n * 10 + d) rest else none

/-- Reads a number below a bound: digits, after at most one plus sign. -/
def read? (bound : Nat) (cs : List Char) : Option Nat :=
  let unsigned := match cs with
    | '+' :: rest => rest
    | _ => cs
  if unsigned.isEmpty then none else readDigits? bound 0 unsigned

end ContractHost.Decimal
