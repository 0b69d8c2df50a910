/-
# Templates

A template is a text with references to variables, each between a dollar sign with an
opening brace and the next closing brace. Filling a template in goes over it once: what
a variable holds is copied and never looked at again. Numbers in filled-in templates are
unsigned, fit into two words, and may stand between blanks.
-/

import ContractHost.Table
import ContractHost.Text.Blank
import ContractHost.Text.Decimal
import ContractHost.Text.Utf8
import ContractHost.Trap

namespace ContractHost.Script

/-- The variables of a running program. -/
abbrev Variables := Table String String

namespace Template

/-- What a template consists of. -/
inductive Part
  | literal (c : Char)
  | reference (name : List Char)
deriving DecidableEq, Repr

/-- Takes a template apart. Inside a reference, the characters of its name so far are
kept, last first. A reference without end is a fault. -/
def parts? : Option (List Char) → List Char → Option (List Part)
  | none, [] => some []
  | none, '$' :: '\x7b' :: rest => parts? (some []) rest
  | none, c :: rest => (parts? none rest).map (.literal c :: ·)
  | some _, [] => none
  | some name, '\x7d' :: rest => (parts? none rest).map (.reference name.reverse :: ·)
  | some name, c :: rest => parts? (some (c :: name)) rest

/-- The characters that a part stands for. -/
def Part.fill? (vars : Variables) : Part → Option (List Char)
  | .literal c => some [c]
  | .reference name => (vars.get? (String.ofList name)).map String.toList

/-- Fills a template in. A reference without end or to no variable is an invalid
argument. -/
def expand (vars : Variables) (template : String) : Except Trap String :=
  match (parts? none template.toList).bind fun parts => parts.mapM (Part.fill? vars) with
  | some filled => .ok (String.ofList filled.flatten)
  | none => .error .invalidArgument

/-- The bound of the numbers that programs compute with. -/
def numberBound : Nat := 1 <<< 128

/-- The number that a text denotes. -/
def number (text : String) : Except Trap Nat :=
  match Decimal.read? numberBound (Blank.trim text.toList) with
  | some n => .ok n
  | none => .error .invalidConversion

/-- The number that a filled-in template denotes. -/
def expandNumber (vars : Variables) (template : String) : Except Trap Nat :=
  (expand vars template).bind number

end Template

end ContractHost.Script
