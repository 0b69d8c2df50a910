/-
# Contract languages

The language of a contract, known by a tag that is stored beside its code, decides which
function a call enters and which arguments that function expects.
-/

import ContractHost.Error

namespace ContractHost

/-- The languages whose calling convention is known. -/
inductive Language
  | go
  | c
deriving DecidableEq, Repr

namespace Language

/-- The tag of a language. -/
def tag : Language → String
  | go => "go"
  | c => "c"

/-- The language of a tag. -/
def ofTag? (tag : String) : Option Language :=
  if tag = go.tag then some go else if tag = c.tag then some c else none

/-- The language of a tag, or the error that names the tag. -/
def ofTag (tag : String) : Except HostError Language :=
  match ofTag? tag with
  | some language => .ok language
  | none => .error (.unsupportedLanguage tag)

/-- The function that a call of a method enters. Go programs have a single one and tell
methods apart themselves; C programs export one for each method. -/
def entryPoint : Language → String → String
  | go, _ => "run"
  | c, method => "_" ++ method

/-- The arguments that the entered function expects: an argument count and vector for
Go, nothing for C. -/
def entryParams : Language → List Int
  | go => [0, 0]
  | c => []

end Language

/-- The method that a deployment calls. -/
def initMethod : String := "initialize"

end ContractHost
