/-
# Debug output as text

Lines are cut by their octets and shown as text one by one. A newline is an octet by itself and
never part of another character, so at a newline no harm is done. But a line that is full may end
inside a character. What it has of that character is then shown as one replacement, and every
octet of it that is left for the next line as one more. Nothing else is lost: a text is shown as it
is, without its newlines, just when no character of it is cut.
-/

import ContractHost.Proofs.DebugLog
import ContractHost.Proofs.Text.Utf8
import Mathlib.Data.List.TakeWhile

namespace ContractHost.DebugWriter

/-- Where in its line a character begins, by the characters before it: the octets since the last
newline, less those of the lines that they filled. -/
def column (before : List Char) : Nat :=
  ((before.reverse.takeWhile (· ≠ '\n')).map Char.utf8Size).sum % threshold

/-- A character is cut if its line is full before it ends. -/
def IsCut (before : List Char) (c : Char) : Prop :=
  c ≠ '\n' ∧ threshold < column before + c.utf8Size

/-- What is shown of a character after others. -/
def shownOf (before : List Char) (c : Char) : List Char :=
  if c = '\n' then []
  else if column before + c.utf8Size ≤ threshold then [c]
  else Utf8.replacement ::
    List.replicate (column before + c.utf8Size - threshold) Utf8.replacement

/-- What is shown of a text after another, character by character. -/
def shown (before : List Char) : List Char → List Char
  | [] => []
  | c :: rest => shownOf before c ++ shown (before ++ [c]) rest

/-! ## Columns -/

section Columns

variable {before : List Char} {c : Char}

theorem column_lt (before : List Char) : column before < threshold :=
  Nat.mod_lt _ (by decide)

theorem column_newline (before : List Char) : column (before ++ ['\n']) = 0 := by
  simp [column]

theorem column_append (before : List Char) (other : c ≠ '\n') :
    column (before ++ [c]) = (column before + c.utf8Size) % threshold := by
  simp [column, other, Nat.add_comm]

/-- On the first line, only the lines that were filled count. -/
theorem column_of_plain {before : List Char} (plain : '\n' ∉ before) :
    column before = (before.map Char.utf8Size).sum % threshold := by
  have all : before.reverse.takeWhile (· ≠ '\n') = before.reverse := by
    refine List.takeWhile_eq_self_iff.2 fun c mem => decide_eq_true ?_
    rintro rfl
    exact plain (List.mem_reverse.1 mem)
  rw [column, all, List.map_reverse, List.sum_reverse]

end Columns

/-! ## One character at a time -/

theorem gather_short {w : DebugWriter} {octets : Bytes}
    (short : (w.buffer ++ octets).length < threshold) :
    w.gather octets = ([], w.grown octets short) :=
  dif_pos short

theorem gather_full {w : DebugWriter} {octets : Bytes}
    (full : (w.buffer ++ octets).length = threshold) :
    w.gather octets = ([⟨w.contract, w.context, w.buffer ++ octets⟩], w.emptied) :=
  dif_neg (Nat.not_lt.2 (Nat.le_of_eq full.symm))

/-- Octets without a newline, for which there is too little room, fill one line. What is left of
them is gathered again. -/
theorem feed_beyond {w : DebugWriter} {octets : Bytes} (plain : newline ∉ octets)
    (beyond : w.room < octets.length) (once : octets.length < w.room + threshold) :
    ∃ short, w.feed octets = ([⟨w.contract, w.context, w.buffer ++ octets.take w.room⟩],
      w.emptied.grown (octets.drop w.room) short) := by
  have room : 0 < w.room := Nat.sub_pos_of_lt w.short
  have taken : (octets.take w.room).length = w.room := List.length_take_of_le (Nat.le_of_lt beyond)
  have left : (octets.drop w.room).length = octets.length - w.room := List.length_drop
  have full : (w.buffer ++ octets.take w.room).length = threshold := by
    have := w.short
    rw [List.length_append, taken, DebugWriter.room]
    omega
  have short : (w.emptied.buffer ++ octets.drop w.room).length < threshold := by
    rw [emptied_buffer, List.nil_append, left]
    omega
  have front : w.feed (octets.take w.room) = w.gather (octets.take w.room) :=
    feed_eq_gather (fun mem => plain (List.mem_of_mem_take mem))
      (List.ne_nil_of_length_pos (by omega)) (Nat.le_of_eq taken)
  have back : w.emptied.feed (octets.drop w.room) = w.emptied.gather (octets.drop w.room) := by
    apply feed_eq_gather (fun mem => plain (List.mem_of_mem_drop mem))
      (List.ne_nil_of_length_pos (by omega))
    have roomy : w.emptied.room = threshold := rfl
    omega
  refine ⟨short, ?_⟩
  conv => lhs; rw [← List.take_append_drop w.room octets]
  rw [feed_append, front, gather_full full, back, gather_short short, List.append_nil]

/-- A newline is the only character that has its octet. -/
theorem newline_not_mem {c : Char} (other : c ≠ '\n') : newline ∉ String.utf8EncodeChar c := by
  intro mem
  rcases Utf8.toNat_of_mem mem with code | beyond
  · exact other (Char.toNat_inj.1 code.symm)
  · exact absurd beyond (by decide)

/-- What a writer has gathered of a text up to some character, and how it would be shown. -/
structure Gathers (w : DebugWriter) (before held : List Char) : Prop where
  size : w.buffer.length = column before
  shows : Utf8.Shows w.buffer held

/-- A writer takes octets that go on with a text. What it had gathered is shown in the lines that
are completed, or with what is gathered then, and after it come the given characters. -/
def Renders (w : DebugWriter) (held : List Char) (octets : Bytes) (after cs : List Char) : Prop :=
  ∃ held', (w.feed octets).1.flatMap (·.text.toList) ++ held' = held ++ cs ∧
    (w.feed octets).2.Gathers after held'

namespace Gathers

variable {w : DebugWriter} {before held : List Char} {c : Char}

/-- A newline ends the line, whatever was gathered. -/
theorem renders_newline (gathers : w.Gathers before held) :
    w.Renders held [newline] (before ++ ['\n']) [] := by
  rw [Renders, feed_newline]
  refine ⟨[], ?_, (column_newline before).symm, .nil⟩
  rw [List.flatMap_singleton, List.append_nil, List.append_nil]
  exact gathers.shows.toList_lossy

/-- A character for which there is room is gathered, and may fill the line just so. -/
theorem renders_whole (gathers : w.Gathers before held) (other : c ≠ '\n')
    (room : column before + c.utf8Size ≤ threshold) :
    w.Renders held (String.utf8EncodeChar c) (before ++ [c]) [c] := by
  have size := gathers.size
  have length : (w.buffer ++ String.utf8EncodeChar c).length = column before + c.utf8Size := by
    rw [List.length_append, String.length_utf8EncodeChar, size]
  have shows := gathers.shows.append (.char c)
  have next := column_append before other
  rw [Renders, feed_eq_gather (newline_not_mem other) (List.ne_nil_of_length_pos ?_) ?_]
  · by_cases short : column before + c.utf8Size < threshold
    · rw [gather_short (length ▸ short)]
      refine ⟨held ++ [c], rfl, ?_, shows⟩
      rw [next, Nat.mod_eq_of_lt short]
      exact length
    · have full : column before + c.utf8Size = threshold :=
        Nat.le_antisymm room (Nat.not_lt.1 short)
      rw [gather_full (length.trans full)]
      refine ⟨[], ?_, ?_, .nil⟩
      · rw [List.flatMap_singleton, List.append_nil]
        exact shows.toList_lossy
      · rw [next, full, Nat.mod_self]
        rfl
  · rw [String.length_utf8EncodeChar]
    exact c.utf8Size_pos
  · rw [String.length_utf8EncodeChar, DebugWriter.room, size]
    omega

/-- A character for which there is too little room is cut: the line ends inside it, and the next
one begins with what is left. -/
theorem renders_cut (gathers : w.Gathers before held) (cut : IsCut before c) :
    w.Renders held (String.utf8EncodeChar c) (before ++ [c]) (Utf8.replacement ::
      List.replicate (column before + c.utf8Size - threshold) Utf8.replacement) := by
  obtain ⟨other, beyond⟩ := cut
  have below := column_lt before
  have most := c.utf8Size_le_four
  have wide : 4 < threshold := by decide
  have length := String.length_utf8EncodeChar c
  have room : w.room = threshold - column before := by rw [DebugWriter.room, gathers.size]
  obtain ⟨short, fed⟩ := feed_beyond (newline_not_mem other) (w := w) (by omega) (by omega)
  have left : ((String.utf8EncodeChar c).drop w.room).length =
      column before + c.utf8Size - threshold := by
    rw [List.length_drop, length]
    omega
  have wrapped : (column before + c.utf8Size) % threshold =
      column before + c.utf8Size - threshold := by
    rw [Nat.mod_eq_sub_mod (Nat.le_of_lt beyond), Nat.mod_eq_of_lt (by omega)]
  have line := gathers.shows.toList_lossy_take c (k := w.room) (by omega) (by omega)
  have continues := (Utf8.encodes_utf8EncodeChar c).continues_of_mem_drop (k := w.room) (by omega)
  rw [Renders, fed]
  refine ⟨List.replicate (column before + c.utf8Size - threshold) Utf8.replacement, ?_, ?_, ?_⟩
  · rw [List.flatMap_singleton, LogLine.text, line, List.append_assoc, List.singleton_append]
  · rw [grown_buffer, emptied_buffer, List.nil_append, left, column_append before other, wrapped]
  · rw [grown_buffer, emptied_buffer, List.nil_append, ← left]
    exact .of_continues continues

/-- What is shown of a character does not depend on what was gathered before. -/
theorem renders_char (gathers : w.Gathers before held) (c : Char) :
    w.Renders held (String.utf8EncodeChar c) (before ++ [c]) (shownOf before c) := by
  by_cases ends : c = '\n'
  · rw [shownOf, if_pos ends]
    subst ends
    exact gathers.renders_newline
  · rw [shownOf, if_neg ends]
    by_cases room : column before + c.utf8Size ≤ threshold
    · rw [if_pos room]
      exact gathers.renders_whole ends room
    · rw [if_neg room]
      exact gathers.renders_cut ⟨ends, Nat.not_le.1 room⟩

/-- The characters of a text are shown one by one. -/
theorem renders_text (gathers : w.Gathers before held) (cs : List Char) :
    w.Renders held (cs.flatMap String.utf8EncodeChar) (before ++ cs) (shown before cs) := by
  induction cs generalizing w before held with
  | nil => exact ⟨held, by simp [feed, shown], by simpa [feed] using gathers⟩
  | cons c rest ih =>
      obtain ⟨between, first, next⟩ := gathers.renders_char c
      obtain ⟨held', later, last⟩ := ih next
      rw [Renders, List.flatMap_cons, feed_append, shown, List.append_cons before c rest]
      refine ⟨held', ?_, last⟩
      rw [List.flatMap_append, List.append_assoc, later, ← List.append_assoc, first,
        List.append_assoc]

end Gathers

/-- What is shown of a text that is followed by a flush. -/
theorem text_linesOf (w : DebugWriter) (text : String) :
    (w.emptied.linesOf (Utf8.encode text)).flatMap (·.text.toList) = shown [] text.toList := by
  have start : w.emptied.Gathers [] [] := ⟨rfl, .nil⟩
  obtain ⟨held, lines, gathers⟩ := start.renders_text text.toList
  rw [Utf8.encode_eq, ← List.nil_append (shown _ _), ← lines, linesOf, List.flatMap_append,
    flush_eq]
  congr 1
  have last := gathers.shows.toList_lossy
  split
  · next none =>
    rw [none] at last
    exact last
  · rw [List.flatMap_singleton]
    exact last

/-- What is shown of a text does not depend on how it was divided into writes. -/
theorem text_run (w : DebugWriter) {text : String} {chunks : List Bytes}
    (whole : chunks.flatten = Utf8.encode text) :
    let p := (w.emptied.run (chunks.map .write)).2
    (p.1 ++ p.2.flush.1).flatMap (·.text.toList) = shown [] text.toList := by
  rw [run_writes, whole, write_eq_feed]
  exact w.text_linesOf text

/-! ## Texts that are shown as they are -/

section Exact

variable {before : List Char} {c : Char}

theorem shown_append (before cs later : List Char) :
    shown before (cs ++ later) = shown before cs ++ shown (before ++ cs) later := by
  induction cs generalizing before with
  | nil => simp [shown]
  | cons c rest ih => simp [shown, ih]

theorem shownOf_of_not_isCut (whole : ¬ IsCut before c) :
    shownOf before c = [c].filter (· ≠ '\n') := by
  by_cases ends : c = '\n'
  · simp [shownOf, ends]
  · have room : column before + c.utf8Size ≤ threshold :=
      Nat.not_lt.1 fun beyond => whole ⟨ends, beyond⟩
    simp [shownOf, ends, room]

/-- A character that is cut is shown as two replacements or more. -/
theorem exists_shownOf_of_isCut (cut : IsCut before c) :
    ∃ more, shownOf before c = Utf8.replacement :: Utf8.replacement :: more := by
  obtain ⟨other, beyond⟩ := cut
  obtain ⟨n, left⟩ := Nat.exists_eq_add_of_lt beyond
  refine ⟨List.replicate n Utf8.replacement, ?_⟩
  have some : column before + c.utf8Size - threshold = n + 1 := by omega
  rw [shownOf, if_neg other, if_neg (Nat.not_le.2 beyond), some, List.replicate_succ]

/-- As many characters are shown as there are, or more. -/
theorem length_le_length_shown (before cs : List Char) :
    (cs.filter (· ≠ '\n')).length ≤ (shown before cs).length := by
  induction cs generalizing before with
  | nil => exact Nat.le_refl 0
  | cons c rest ih =>
      have first : ([c].filter (· ≠ '\n')).length ≤ (shownOf before c).length := by
        by_cases cut : IsCut before c
        · obtain ⟨more, shape⟩ := exists_shownOf_of_isCut cut
          exact Nat.le_trans (List.length_filter_le _ _) (by simp [shape])
        · rw [shownOf_of_not_isCut cut]
      rw [← List.singleton_append, List.filter_append, List.singleton_append, shown,
        List.length_append, List.length_append]
      exact Nat.add_le_add first (ih _)

/-- A text is shown as it is just when no character of it is cut. -/
theorem shown_eq_iff (before cs : List Char) :
    shown before cs = cs.filter (· ≠ '\n') ↔
      ¬ ∃ front c back, cs = front ++ c :: back ∧ IsCut (before ++ front) c := by
  constructor
  · rintro same ⟨front, c, back, rfl, cut⟩
    obtain ⟨more, shape⟩ := exists_shownOf_of_isCut cut
    have sizes := congrArg List.length same
    have front' := length_le_length_shown before front
    have back' := length_le_length_shown (before ++ front ++ [c]) back
    have one : ([c].filter (· ≠ '\n')).length ≤ 1 := List.length_filter_le _ _
    rw [shown_append, shown, shape, List.append_cons front c back, List.filter_append,
      List.filter_append] at sizes
    simp only [List.length_append, List.length_cons] at sizes
    omega
  · intro whole
    induction cs generalizing before with
    | nil => rfl
    | cons c rest ih =>
        have first : ¬ IsCut before c := fun cut => whole ⟨[], c, rest, rfl, by simpa using cut⟩
        rw [shown, shownOf_of_not_isCut first, ih, ← List.filter_append, List.singleton_append]
        rintro ⟨front, d, back, rfl, cut⟩
        exact whole ⟨c :: front, d, back, rfl, by simpa using cut⟩

/-- Characters of one octet are never cut. -/
theorem shown_of_single {cs : List Char} (single : ∀ c ∈ cs, c.utf8Size = 1) (before : List Char) :
    shown before cs = cs.filter (· ≠ '\n') := by
  refine (shown_eq_iff before cs).2 ?_
  rintro ⟨front, c, back, rfl, -, beyond⟩
  have below := column_lt (before ++ front)
  rw [single c (by simp)] at beyond
  omega

end Exact

/-- What becomes of text that is written as debug output, however it is divided into writes.

When the writer is flushed or dropped at last, its lines, as text and put together, show the text
character by character. Newlines are left out. A character is shown as it is, unless its line is
full before it ends: then one replacement stands for its octets in the full line, and one for each
octet that is left for the next. So the lines show the text without its newlines just when no
character is cut, and where the text itself has no replacements, they have one just when one is. -/
theorem run_shows_text (contract : String) (context : ContextId) (text : String)
    (chunks : List Bytes) (whole : chunks.flatten = Utf8.encode text) :
    let p := (run { contract, context } (chunks.map .write)).2
    let lines := p.1 ++ p.2.flush.1
    let cut := ∃ before c after, text.toList = before ++ c :: after ∧ IsCut before c
    lines.flatMap (·.text.toList) = shown [] text.toList ∧
    (lines.flatMap (·.text.toList) = text.toList.filter (· ≠ '\n') ↔ ¬ cut) ∧
    (Utf8.replacement ∉ text.toList →
      ((∃ line ∈ lines, Utf8.replacement ∈ line.text.toList) ↔ cut)) := by
  intro p lines cut
  have all : lines.flatMap (·.text.toList) = shown [] text.toList :=
    text_run { contract, context } whole
  have exact' : lines.flatMap (·.text.toList) = text.toList.filter (· ≠ '\n') ↔ ¬ cut := by
    rw [all]
    exact shown_eq_iff [] text.toList
  refine ⟨all, exact', fun absent => ?_⟩
  rw [← List.mem_flatMap]
  constructor
  · intro mem
    by_contra none
    rw [exact'.2 none] at mem
    exact absent (List.mem_filter.1 mem).1
  · rintro ⟨before, c, after, split, cut⟩
    obtain ⟨more, shape⟩ := exists_shownOf_of_isCut cut
    rw [all, split, shown_append, shown, List.nil_append, shape]
    simp

/-- Where a write ends makes no difference: here it ends inside a character. -/
theorem run_shows_divided_character :
    [[0xC3], [0xA9]].flatten = Utf8.encode "é" ∧
    let p := (run { contract := "erc20", context := ⟨1⟩ } ([[0xC3], [0xA9]].map .write)).2
    (p.1 ++ p.2.flush.1).flatMap (·.text.toList) = ['é'] := by
  have whole : [[0xC3], [0xA9]].flatten = Utf8.encode "é" := by decide
  exact ⟨whole, (run_shows_text "erc20" ⟨1⟩ "é" [[0xC3], [0xA9]] whole).1⟩

/-- A character that comes after 1023 octets is cut, and what is shown is not what was written. -/
theorem run_corrupts_cut_character :
    let front := List.replicate 1023 'x'
    let written := [Utf8.encode (String.ofList front), Utf8.encode "é"]
    let p := (run { contract := "c", context := ⟨1⟩ } (written.map .write)).2
    let lines := p.1 ++ p.2.flush.1
    written.flatten = Utf8.encode (String.ofList (front ++ ['é'])) ∧
    lines.flatMap (·.text.toList) = front ++ [Utf8.replacement, Utf8.replacement] ∧
    lines.flatMap (·.text.toList) ≠ (front ++ ['é']).filter (· ≠ '\n') := by
  intro front written p lines
  have letters : ∀ c ∈ front, c = 'x' := fun c => List.eq_of_mem_replicate
  have plain : '\n' ∉ front := fun mem => absurd (letters _ mem) (by decide)
  have kept : front.filter (· ≠ '\n') = front := by
    refine List.filter_eq_self.2 fun c mem => decide_eq_true ?_
    rintro rfl
    exact plain mem
  have place : column front = 1023 := by
    rw [column_of_plain plain, List.map_replicate, List.sum_replicate_nat]
    rfl
  have size : 'é'.utf8Size = 2 := rfl
  have cut : IsCut front 'é' := by
    refine ⟨by decide, ?_⟩
    rw [place, size]
    decide
  have whole : written.flatten = Utf8.encode (String.ofList (front ++ ['é'])) := by
    rw [Utf8.encode_ofList, List.flatMap_append, ← Utf8.encode_ofList]
    rfl
  have all : lines.flatMap (·.text.toList) = shown [] (front ++ ['é']) := by
    have run := text_run { contract := "c", context := ⟨1⟩ } whole
    rw [String.toList_ofList] at run
    exact run
  refine ⟨whole, ?_, ?_⟩
  · have single : shown [] front = front :=
      (shown_of_single (fun c mem => letters c mem ▸ rfl) []).trans kept
    rw [all, shown_append, single, List.nil_append, shown, shown, shownOf, place, size]
    rfl
  · rw [all]
    exact fun same => (shown_eq_iff [] _).1 same ⟨front, 'é', [], rfl, cut⟩

end ContractHost.DebugWriter
