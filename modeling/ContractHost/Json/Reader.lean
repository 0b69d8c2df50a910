/-
# Reading JSON documents

The tokens of a document are folded into its tree with an explicit stack of the arrays
and objects that are still open, so documents of any depth are read. The reader accepts
one document with nothing after it.
-/

import ContractHost.Json.Token

namespace ContractHost.Json

/-- An open array or object that waits for a value, with what it holds already, last
first. -/
inductive Frame
  | items (done : List Json)
  | members (done : List (Option String × Json)) (key : Option String)

/-- What may come next. Every state but the last carries the open frames, innermost
first. -/
inductive Reading
  | value (stack : List Frame)
  | firstItem (stack : List Frame)
  | afterItem (done : List Json) (stack : List Frame)
  | firstKey (stack : List Frame)
  | nextKey (done : List (Option String × Json)) (stack : List Frame)
  | colon (done : List (Option String × Json)) (key : Option String) (stack : List Frame)
  | afterMember (done : List (Option String × Json)) (stack : List Frame)
  | finished (document : Json)

namespace Reading

/-- Hands a complete value to the innermost open frame. -/
def complete (value : Json) : List Frame → Reading
  | [] => .finished value
  | .items done :: stack => .afterItem (value :: done) stack
  | .members done key :: stack => .afterMember ((key, value) :: done) stack

/-- Reads a token where a value is due. -/
def begin (stack : List Frame) : Token → Option Reading
  | .null => some (complete .null stack)
  | .bool b => some (complete (.bool b) stack)
  | .number n => some (complete (.number n) stack)
  | .string s => some (complete (.string s) stack)
  | .openArray => some (.firstItem stack)
  | .openObject => some (.firstKey stack)
  | .closeArray | .closeObject | .colon | .comma => none

/-- Reads one token. -/
def step : Reading → Token → Option Reading
  | .value stack, token => begin stack token
  | .firstItem stack, .closeArray => some (complete (.array []) stack)
  | .firstItem stack, token => begin (.items [] :: stack) token
  | .afterItem done stack, .comma => some (.value (.items done :: stack))
  | .afterItem done stack, .closeArray => some (complete (.array done.reverse) stack)
  | .firstKey stack, .closeObject => some (complete (.object []) stack)
  | .firstKey stack, .string key => some (.colon [] key stack)
  | .nextKey done stack, .string key => some (.colon done key stack)
  | .colon done key stack, .colon => some (.value (.members done key :: stack))
  | .afterMember done stack, .comma => some (.nextKey done stack)
  | .afterMember done stack, .closeObject => some (complete (.object done.reverse) stack)
  | _, _ => none

/-- Reads the rest of the tokens. -/
def run : Reading → List Token → Option Json
  | .finished document, [] => some document
  | _, [] => none
  | reading, token :: rest => (step reading token).bind fun next => run next rest

end Reading

/-- The document that a list of tokens spells. -/
def ofTokens? (tokens : List Token) : Option Json := Reading.run (.value []) tokens

/-- Reads a document. -/
def read? (octets : Bytes) : Option Json := (Token.ofBytes? octets).bind ofTokens?

end ContractHost.Json
