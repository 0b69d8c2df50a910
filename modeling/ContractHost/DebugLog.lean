/-
# Debug output

What a program writes for debugging is cut into lines: at every newline, and whenever
1024 octets have gathered without one. A line belongs to a contract and a context and is
shown as text, however it was cut.
-/

import ContractHost.Message

namespace ContractHost

/-- One line of debug output. -/
structure LogLine where
  contract : String
  context : ContextId
  octets : Bytes
deriving DecidableEq, Repr

/-- A line as text. -/
def LogLine.text (line : LogLine) : String := Utf8.lossy line.octets

namespace DebugWriter

/-- How many octets are gathered before they become a line without a newline. -/
def threshold : Nat := 1024

/-- The newline. -/
def newline : UInt8 := 0x0A

theorem length_nil_lt : ([] : Bytes).length < threshold := Nat.succ_pos 1023

end DebugWriter

/-- Gathers the debug output of one call. There is always room for one more octet. -/
structure DebugWriter where
  contract : String
  context : ContextId
  buffer : Bytes := []
  short : buffer.length < DebugWriter.threshold := by exact DebugWriter.length_nil_lt
deriving DecidableEq, Repr

namespace DebugWriter

/-- The line of what is gathered. -/
def line (w : DebugWriter) : LogLine := ⟨w.contract, w.context, w.buffer⟩

/-- The writer with nothing gathered. -/
def emptied (w : DebugWriter) : DebugWriter := { w with buffer := [], short := length_nil_lt }

/-- How many octets there is room for before what is gathered becomes a line. -/
def room (w : DebugWriter) : Nat := threshold - w.buffer.length

/-- The writer with more octets gathered. -/
def grown (w : DebugWriter) (octets : Bytes) (short : (w.buffer ++ octets).length < threshold) :
    DebugWriter := { w with buffer := w.buffer ++ octets, short }

/-- Gathers octets, and makes a line of what is gathered once there are enough. -/
def gather (w : DebugWriter) (octets : Bytes) : List LogLine × DebugWriter :=
  if short : (w.buffer ++ octets).length < threshold then ([], w.grown octets short)
  else ([⟨w.contract, w.context, w.buffer ++ octets⟩], w.emptied)

/-- Gathers octets among which there is no newline, at a time as many as there is room for. -/
def push (w : DebugWriter) (octets : Bytes) : List LogLine × DebugWriter :=
  if octets.isEmpty then ([], w)
  else
    let filled := w.gather (octets.take w.room)
    let rest := push filled.2 (octets.drop w.room)
    (filled.1 ++ rest.1, rest.2)
termination_by octets.length
decreasing_by
  have := w.short
  have : octets.length ≠ 0 := by simp_all
  simp only [List.length_drop, room]
  omega

/-- Writes octets, and says which lines they complete. -/
def write (w : DebugWriter) (octets : Bytes) : List LogLine × DebugWriter :=
  match _ : octets.idxOf? newline with
  | some place =>
    let gathered := w.push (octets.take place)
    let rest := write gathered.2.emptied (octets.drop (place + 1))
    (gathered.1 ++ gathered.2.line :: rest.1, rest.2)
  | none => w.push octets
termination_by octets.length
decreasing_by
  have some : octets ≠ [] := by
    rintro rfl
    contradiction
  have := List.length_pos_iff.2 some
  simp only [List.length_drop]
  omega

/-- Takes what is written to a stream: how many octets were taken, which are all of them, the
lines that they complete, and the writer after them. -/
def accept (w : DebugWriter) (octets : Bytes) : Nat × List LogLine × DebugWriter :=
  (octets.length, w.write octets)

/-- Makes a line of what is gathered, if anything is. -/
def flush (w : DebugWriter) : List LogLine × DebugWriter :=
  if w.buffer.isEmpty then ([], w) else ([w.line], w.emptied)

end DebugWriter

end ContractHost
