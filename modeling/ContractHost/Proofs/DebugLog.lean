/-
# What becomes of debug output

A writer looks for newlines and fills up what it has gathered, piece by piece. Seen one octet
at a time this is a small machine, and a machine that takes one octet at a time cannot know how
its input was divided into writes. So it is enough to say what becomes of a text that is written
at once between two flushes: its lines, put together, are the text without its newlines, and there
is one for each newline, one for each 1024 octets without one, and at most one for what is left.
-/

import ContractHost.DebugLog
import Mathlib.Algebra.GroupWithZero.Nat

namespace ContractHost

/-- A line is not too long, and is one line. -/
def LogLine.Fits (line : LogLine) : Prop :=
  line.octets.length ≤ DebugWriter.threshold ∧ DebugWriter.newline ∉ line.octets

namespace DebugWriter

@[simp]
theorem line_octets (w : DebugWriter) : w.line.octets = w.buffer := rfl

@[simp]
theorem emptied_buffer (w : DebugWriter) : w.emptied.buffer = [] := rfl

@[simp]
theorem grown_buffer (w : DebugWriter) (octets : Bytes)
    (short : (w.buffer ++ octets).length < threshold) :
    (w.grown octets short).buffer = w.buffer ++ octets := rfl

/-! ## One octet at a time -/

/-- Takes one octet. -/
def absorb (w : DebugWriter) (b : UInt8) : List LogLine × DebugWriter :=
  if b = newline then ([w.line], w.emptied) else w.gather [b]

/-- An octet ends a line, or is gathered, or is gathered and leaves no more room. -/
theorem absorb_cases (w : DebugWriter) (b : UInt8) :
    (newline = b ∧ w.absorb b = ([w.line], w.emptied)) ∨
      (newline ≠ b ∧ ∃ short, w.absorb b = ([], w.grown [b] short)) ∨
      (newline ≠ b ∧ (w.buffer ++ [b]).length = threshold ∧
        w.absorb b = ([⟨w.contract, w.context, w.buffer ++ [b]⟩], w.emptied)) := by
  by_cases ends : b = newline
  · exact .inl ⟨ends.symm, if_pos ends⟩
  · rw [absorb, if_neg ends]
    by_cases short : (w.buffer ++ [b]).length < threshold
    · exact .inr (.inl ⟨Ne.symm ends, short, dif_pos short⟩)
    · have size : (w.buffer ++ [b]).length = threshold := by
        have := w.short
        simp at short ⊢
        omega
      exact .inr (.inr ⟨Ne.symm ends, size, dif_neg short⟩)

/-- Takes octets one after the other. -/
def feed (w : DebugWriter) : Bytes → List LogLine × DebugWriter
  | [] => ([], w)
  | b :: rest => ((w.absorb b).1 ++ (feed (w.absorb b).2 rest).1, (feed (w.absorb b).2 rest).2)

theorem feed_append (w : DebugWriter) (octets later : Bytes) :
    w.feed (octets ++ later) =
      ((w.feed octets).1 ++ ((w.feed octets).2.feed later).1, ((w.feed octets).2.feed later).2) := by
  induction octets generalizing w with
  | nil => simp [feed]
  | cons b rest ih => simp [feed, ih]

@[simp]
theorem feed_newline (w : DebugWriter) : w.feed [newline] = ([w.line], w.emptied) := by
  simp [feed, absorb]

/-- Octets without a newline, for which there is room, are gathered at once. -/
theorem feed_eq_gather {w : DebugWriter} {octets : Bytes} (plain : newline ∉ octets)
    (some : octets ≠ []) (room : octets.length ≤ w.room) : w.feed octets = w.gather octets := by
  induction octets generalizing w with
  | nil => exact absurd rfl some
  | cons b rest ih =>
      rw [List.mem_cons, not_or] at plain
      obtain ⟨other, plain⟩ := plain
      cases rest with
      | nil => simp [feed, absorb, Ne.symm other]
      | cons c rest =>
          -- the first octet leaves room for the others
          have short : (w.buffer ++ [b]).length < threshold := by
            simp [DebugWriter.room] at room ⊢
            omega
          have first : w.absorb b = ([], w.grown [b] short) := by
            rw [absorb, if_neg (Ne.symm other), gather, dif_pos short]
          have fits : (c :: rest).length ≤ (w.grown [b] short).room := by
            simp [DebugWriter.room] at room ⊢
            omega
          rw [feed, first, ih plain (by simp) fits]
          simp [gather, grown, emptied]

/-- Filling up a writer is taking one octet at a time. -/
theorem push_eq_feed {w : DebugWriter} {octets : Bytes} (plain : newline ∉ octets) :
    w.push octets = w.feed octets := by
  fun_induction push w octets with
  | case1 w octets none => simp [List.isEmpty_iff.1 none, feed]
  | case2 w octets some filled rest ih =>
      have room : 0 < w.room := Nat.sub_pos_of_lt w.short
      have gathered : w.feed (octets.take w.room) = filled := by
        apply feed_eq_gather
        · exact fun mem => plain (List.mem_of_mem_take mem)
        · simpa [Nat.pos_iff_ne_zero.1 room] using some
        · exact List.length_take_le _ _
      have later := ih fun mem => plain (List.mem_of_mem_drop mem)
      conv => rhs; rw [← List.take_append_drop w.room octets, feed_append, gathered, ← later]

/-- What comes before the first newline is followed by it. -/
theorem split_at_newline {octets : Bytes} {place : Nat}
    (found : octets.idxOf? newline = some place) :
    octets = octets.take place ++ newline :: octets.drop (place + 1) ∧
      newline ∉ octets.take place := by
  obtain ⟨bound, here, before⟩ := List.idxOf?_eq_some_iff.1 found
  constructor
  · conv => lhs; rw [← List.take_append_drop place octets, List.drop_eq_getElem_cons bound]
    rw [here]
  · intro mem
    obtain ⟨i, early, same⟩ := List.mem_take_iff_getElem.1 mem
    have := before i (by omega)
    simp_all

/-- Writing is taking one octet at a time. -/
theorem write_eq_feed (w : DebugWriter) (octets : Bytes) : w.write octets = w.feed octets := by
  fun_induction write w octets with
  | case1 w octets place found gathered rest ih =>
      obtain ⟨split, plain⟩ := split_at_newline found
      have taken : w.feed (octets.take place) = gathered := (push_eq_feed plain).symm
      conv => rhs; rw [split, feed_append, taken, ← List.singleton_append, feed_append]
      simp [rest, ih]
  | case2 w octets absent =>
      apply push_eq_feed
      simpa using absent

/-! ## The lines of a text -/

/-- Nothing is lost: the octets are in the lines, in their order, or still gathered. -/
theorem feed_octets (w : DebugWriter) (octets : Bytes) :
    (w.feed octets).1.flatMap (·.octets) ++ (w.feed octets).2.buffer =
      w.buffer ++ octets.filter (· ≠ newline) := by
  induction octets generalizing w with
  | nil => simp [feed]
  | cons b rest ih =>
      rcases w.absorb_cases b with ⟨rfl, taken⟩ | ⟨plain, _, taken⟩ | ⟨plain, _, taken⟩
      · simp [feed, taken, ih]
      · simp [feed, taken, ih, Ne.symm plain]
      · simp [feed, taken, ih, Ne.symm plain]

/-- No newline is gathered. -/
def Unbroken (w : DebugWriter) : Prop := newline ∉ w.buffer

theorem unbroken_emptied (w : DebugWriter) : w.emptied.Unbroken := by
  simp [Unbroken]

namespace Unbroken

variable {w : DebugWriter} (unbroken : w.Unbroken)

include unbroken

theorem append {b : UInt8} (plain : newline ≠ b) : newline ∉ w.buffer ++ [b] := by
  simpa [Unbroken, plain] using unbroken

theorem fits_line : w.line.Fits := ⟨Nat.le_of_lt w.short, unbroken⟩

/-- All lines fit, and no newline is gathered in the end. -/
theorem feed (octets : Bytes) :
    (w.feed octets).2.Unbroken ∧ ∀ line ∈ (w.feed octets).1, line.Fits := by
  induction octets generalizing w with
  | nil => simpa [DebugWriter.feed] using unbroken
  | cons b rest ih =>
      rcases w.absorb_cases b with ⟨_, taken⟩ | ⟨plain, short, taken⟩ | ⟨plain, size, taken⟩
      · simpa [DebugWriter.feed, taken, unbroken.fits_line] using ih w.unbroken_emptied
      · have grown : (w.grown [b] short).Unbroken := unbroken.append plain
        simpa [DebugWriter.feed, taken] using ih grown
      · have full : LogLine.Fits ⟨w.contract, w.context, w.buffer ++ [b]⟩ :=
          ⟨Nat.le_of_eq size, unbroken.append plain⟩
        simpa [DebugWriter.feed, taken, full] using ih w.unbroken_emptied

end Unbroken

/-- How often 1024 octets come together in a text without a newline among them. -/
def fills (text : Bytes) : Nat := ((text.splitOn newline).map (·.length / threshold)).sum

theorem fills_of_plain {piece : Bytes} (plain : newline ∉ piece) :
    fills piece = piece.length / threshold := by
  simp [fills, List.splitOn_eq_singleton plain]

/-- The pieces between newlines are filled one by one. -/
theorem fills_line {piece : Bytes} (plain : newline ∉ piece) (text : Bytes) :
    fills (piece ++ newline :: text) = piece.length / threshold + fills text := by
  simp [fills, List.splitOn_append_cons_self_of_not_mem plain]

/-- A text is a piece without a newline, or begins with one and a newline. -/
theorem piece_cases (text : Bytes) :
    newline ∉ text ∨ ∃ piece rest, newline ∉ piece ∧ text = piece ++ newline :: rest := by
  by_cases found : newline ∈ text
  · obtain ⟨piece, rest, split, plain⟩ := List.eq_append_cons_of_mem found
    exact .inr ⟨piece, rest, plain, split⟩
  · exact .inl found

/-- A piece that is just enough for a line fills it, whatever comes after it. -/
theorem fills_full {full : Bytes} (plain : newline ∉ full) (size : full.length = threshold)
    (text : Bytes) : fills (full ++ text) = fills text + 1 := by
  have positive : 0 < threshold := by decide
  rcases piece_cases text with plain' | ⟨piece, rest, plain', rfl⟩
  · rw [fills_of_plain plain', fills_of_plain (by simp [plain, plain']), List.length_append, size,
      Nat.add_div_left _ positive]
  · rw [← List.append_assoc, fills_line (by simp [plain, plain']), fills_line plain',
      List.length_append, size, Nat.add_div_left _ positive]
    omega

/-- There is a line for each newline and for each filling. -/
theorem Unbroken.length_feed {w : DebugWriter} (unbroken : w.Unbroken) (octets : Bytes) :
    (w.feed octets).1.length = octets.count newline + fills (w.buffer ++ octets) := by
  induction octets generalizing w with
  | nil => simp [DebugWriter.feed, fills_of_plain unbroken, Nat.div_eq_of_lt w.short]
  | cons b rest ih =>
      rcases w.absorb_cases b with ⟨rfl, taken⟩ | ⟨plain, short, taken⟩ | ⟨plain, size, taken⟩
      · have unfilled : w.buffer.length / threshold = 0 := Nat.div_eq_of_lt w.short
        simp [DebugWriter.feed, taken, ih w.unbroken_emptied, fills_line unbroken, unfilled]
        omega
      · have grown : (w.grown [b] short).Unbroken := unbroken.append plain
        simp [DebugWriter.feed, taken, ih grown, Ne.symm plain]
      · rw [List.append_cons, fills_full (unbroken.append plain) size]
        simp [DebugWriter.feed, taken, ih w.unbroken_emptied, Ne.symm plain]
        omega

/-! ## Writes and flushes -/

/-- A flush makes a line of what is gathered, unless nothing is. -/
theorem flush_eq (w : DebugWriter) :
    w.flush = (if w.buffer = [] then [] else [w.line], w.emptied) := by
  rcases w with ⟨contract, context, _ | ⟨b, rest⟩, short⟩ <;> rfl

/-- A writer that is emptied is as it was when it was made. -/
theorem emptied_feed (w : DebugWriter) (octets : Bytes) :
    (w.feed octets).2.emptied = w.emptied := by
  induction octets generalizing w with
  | nil => rfl
  | cons b rest ih =>
      rcases w.absorb_cases b with ⟨_, taken⟩ | ⟨_, _, taken⟩ | ⟨_, _, taken⟩
      all_goals
        rw [feed, taken, ih]
        rfl

/-- All that becomes of a text that is followed by a flush: its lines, and one of what is left. -/
def linesOf (w : DebugWriter) (text : Bytes) : List LogLine :=
  (w.feed text).1 ++ (w.feed text).2.flush.1

end DebugWriter

/-- What is done with a writer. -/
inductive DebugStep
  | write (octets : Bytes)
  | flush

namespace DebugStep

/-- The octets that are written in a step. -/
def written : DebugStep → Bytes
  | write octets => octets
  | flush => []

/-- True of a flush. -/
def isFlush : DebugStep → Bool
  | write _ => false
  | flush => true

/-- What is written between one flush and the next, given what was written since the last one. -/
def texts (text : Bytes) : List DebugStep → List Bytes
  | [] => [text]
  | write octets :: rest => texts (text ++ octets) rest
  | flush :: rest => text :: texts [] rest

theorem flatten_texts (text : Bytes) (steps : List DebugStep) :
    (texts text steps).flatten = text ++ steps.flatMap written := by
  induction steps generalizing text with
  | nil => simp [texts]
  | cons step rest ih =>
      cases step with
      | write octets => simp [texts, ih, written]
      | flush => simp [texts, ih, written]

theorem length_texts (text : Bytes) (steps : List DebugStep) :
    (texts text steps).length = steps.countP isFlush + 1 := by
  induction steps generalizing text with
  | nil => simp [texts]
  | cons step rest ih =>
      cases step with
      | write octets => rw [texts, ih, List.countP_cons_of_neg (by simp [isFlush])]
      | flush => rw [texts, List.length_cons, ih, List.countP_cons_of_pos (by simp [isFlush])]

end DebugStep

namespace DebugWriter

/-- Takes a step: what it reports, the lines that it completes, and the writer after it. A flush
has taken nothing. -/
def step (w : DebugWriter) : DebugStep → Nat × List LogLine × DebugWriter
  | .write octets => w.accept octets
  | .flush => (0, w.flush)

/-- Takes steps in turn: what each reports, all lines, and the writer after them. -/
def run (w : DebugWriter) : List DebugStep → List Nat × List LogLine × DebugWriter
  | [] => ([], [], w)
  | step :: rest =>
    let p := w.step step
    let q := run p.2.2 rest
    (p.1 :: q.1, p.2.1 ++ q.2.1, q.2.2)

/-- Writes in turn are one write of all that is written. -/
theorem run_writes (w : DebugWriter) (chunks : List Bytes) :
    w.run (chunks.map .write) = (chunks.map (·.length), w.write chunks.flatten) := by
  induction chunks generalizing w with
  | nil => simp [run, write_eq_feed, feed]
  | cons chunk rest ih => simp [run, step, accept, ih, write_eq_feed, feed_append]

/-- The lines of each text between flushes are those that become of it by itself. -/
theorem run_lines (w : DebugWriter) (text : Bytes) (steps : List DebugStep) :
    let p := (w.emptied.feed text).2.run steps
    (w.emptied.feed text).1 ++ (p.2.1 ++ p.2.2.flush.1) =
      (DebugStep.texts text steps).flatMap w.emptied.linesOf := by
  induction steps generalizing text with
  | nil => simp [run, DebugStep.texts, linesOf]
  | cons step rest ih =>
      cases step with
      | write octets =>
          have later := ih (text ++ octets)
          rw [feed_append] at later
          simpa [run, step, accept, DebugStep.texts, write_eq_feed] using later
      | flush =>
          have fresh : (w.emptied.feed text).2.emptied = w.emptied := w.emptied.emptied_feed text
          have later : (w.emptied.run rest).2.1 ++ (w.emptied.run rest).2.2.flush.1 =
              (DebugStep.texts [] rest).flatMap w.emptied.linesOf := ih []
          simp [run, step, DebugStep.texts, flush_eq (w.emptied.feed text).2, fresh, later, linesOf]

section LinesOf

variable (w : DebugWriter) (text : Bytes)

/-- Put together, the lines of a text are the text without its newlines. -/
theorem linesOf_octets :
    (w.emptied.linesOf text).flatMap (·.octets) = text.filter (· ≠ newline) := by
  have kept := w.emptied.feed_octets text
  rw [emptied_buffer, List.nil_append] at kept
  rw [← kept, linesOf, List.flatMap_append, flush_eq]
  by_cases none : (w.emptied.feed text).2.buffer = [] <;> simp [none]

theorem linesOf_fit : ∀ line ∈ w.emptied.linesOf text, line.Fits := by
  obtain ⟨unbroken, lines⟩ := w.unbroken_emptied.feed text
  rw [linesOf, flush_eq]
  by_cases none : (w.emptied.feed text).2.buffer = []
  · simpa [none] using lines
  · simpa [none, or_imp, forall_and, unbroken.fits_line] using lines

/-- There is a line for each newline, one for each filling, and at most one more. -/
theorem length_linesOf : ∃ left ≤ 1,
    (w.emptied.linesOf text).length = text.count newline + fills text + left := by
  have lines := w.unbroken_emptied.length_feed text
  rw [emptied_buffer, List.nil_append] at lines
  refine ⟨(w.emptied.feed text).2.flush.1.length, ?_, by rw [linesOf, List.length_append, lines]⟩
  rw [flush_eq]
  split <;> simp

end LinesOf

/-- No newline is ever gathered. -/
theorem Unbroken.run {w : DebugWriter} (unbroken : w.Unbroken) (steps : List DebugStep) :
    (w.run steps).2.2.Unbroken := by
  induction steps generalizing w with
  | nil => exact unbroken
  | cons step rest ih =>
      apply ih
      cases step with
      | write octets =>
          show (w.write octets).2.Unbroken
          rw [write_eq_feed]
          exact (unbroken.feed octets).1
      | flush =>
          show w.flush.2.Unbroken
          rw [flush_eq]
          exact w.unbroken_emptied

/-- How many lines become of texts: one for each newline and for each filling, and at most one
more for each text. -/
theorem length_flatMap_linesOf (w : DebugWriter) (texts : List Bytes) : ∃ left ≤ texts.length,
    (texts.flatMap w.emptied.linesOf).length =
      texts.flatten.count newline + (texts.map fills).sum + left := by
  induction texts with
  | nil => exact ⟨0, by simp⟩
  | cons text rest ih =>
      obtain ⟨left, bound, size⟩ := w.length_linesOf text
      obtain ⟨lefts, bounds, sizes⟩ := ih
      refine ⟨left + lefts, by rw [List.length_cons]; omega, ?_⟩
      simp [size, sizes]
      omega

/-- What becomes of debug output, for every history of writes and flushes.

After it, all ways to divide a text into writes lead to the same lines and to the same writer, and
each write takes all that it is given. What is gathered is short and holds no newline. Nor does
any line that was made up to now or is made when the writer is flushed or dropped at last; put
together these lines are all that was written without its newlines. There is one of them for each
newline, one for each 1024 octets that came together without a newline or a flush among them, and
at most one for each flush and for the end. -/
theorem run_keeps_text (contract : String) (context : ContextId) (history : List DebugStep) :
    let p := (DebugWriter.run { contract, context } history).2
    let w := p.2
    let lines := p.1 ++ w.flush.1
    (∀ chunks chunks' : List Bytes, chunks.flatten = chunks'.flatten →
      (w.run (chunks.map .write)).2 = (w.run (chunks'.map .write)).2) ∧
    (∀ chunks : List Bytes, (w.run (chunks.map .write)).1 = chunks.map (·.length)) ∧
    (w.buffer.length < threshold ∧ newline ∉ w.buffer) ∧
    (∀ line ∈ lines, line.octets.length ≤ threshold ∧ newline ∉ line.octets) ∧
    lines.flatMap (·.octets) =
      (history.flatMap DebugStep.written).filter (· ≠ newline) ∧
    ∃ flushed ≤ history.countP DebugStep.isFlush + 1,
      lines.length = (history.flatMap DebugStep.written).count newline +
        ((DebugStep.texts [] history).map fills).sum + flushed := by
  intro p w lines
  let start : DebugWriter := { contract, context }
  have split : lines = (DebugStep.texts [] history).flatMap start.emptied.linesOf :=
    start.run_lines [] history
  have written := DebugStep.flatten_texts [] history
  have unbroken : w.Unbroken := start.unbroken_emptied.run history
  refine ⟨fun chunks chunks' same => ?_, fun chunks => ?_, ⟨w.short, unbroken⟩, ?_, ?_, ?_⟩
  · rw [run_writes, run_writes, same]
  · rw [run_writes]
  · intro line mem
    rw [split] at mem
    obtain ⟨text, _, mem⟩ := List.mem_flatMap.1 mem
    exact start.linesOf_fit text line mem
  · rw [split, List.flatMap_assoc, ← List.nil_append (history.flatMap _), ← written,
      List.filter_flatten, ← List.flatMap_def]
    simp only [linesOf_octets]
  · obtain ⟨flushed, bound, size⟩ :=
      start.length_flatMap_linesOf (DebugStep.texts [] history)
    rw [DebugStep.length_texts] at bound
    rw [written, List.nil_append] at size
    exact ⟨flushed, bound, split ▸ size⟩

end DebugWriter

end ContractHost
