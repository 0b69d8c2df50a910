/-
# UTF-8, written and read

Every character is written as one to four octets, and reading them finds the character again:
the first octet says how many are to come and how far the second may range, and every octet adds
six bits. So reading what was written of a text gives the text back.
-/

import ContractHost.Text.Utf8
import Mathlib.Data.Nat.Basic

namespace ContractHost.Utf8

/-! ## Writing -/

theorem encode_ofList (cs : List Char) :
    encode (String.ofList cs) = cs.flatMap String.utf8EncodeChar := by
  rw [encode, String.toByteArray_ofList, List.utf8Encode, List.data_toByteArray]

/-- A text is written character by character. -/
theorem encode_eq (s : String) : encode s = s.toList.flatMap String.utf8EncodeChar := by
  rw [← encode_ofList, String.ofList_toList]

theorem encode_toString (c : Char) : encode c.toString = String.utf8EncodeChar c := by
  rw [encode_eq, Char.toString, String.toList_singleton, List.flatMap_singleton]

/-- A character is written as the octet with its code, or with octets that are no characters by
themselves. -/
theorem toNat_of_mem {c : Char} {b : UInt8} (mem : b ∈ String.utf8EncodeChar c) :
    b.toNat = c.toNat ∨ 0x80 ≤ b.toNat := by
  have code : c.val.toNat = c.toNat := rfl
  have valid : c.toNat < 0x110000 := by
    rcases c.valid with small | ⟨-, small⟩
    · exact Nat.lt_trans small (by decide)
    · exact small
  have octet {n : Nat} (small : n < 256) : (UInt8.ofNat n).toNat = n :=
    UInt8.toNat_ofNat_of_lt' small
  simp only [String.utf8EncodeChar, code] at mem
  split at mem
  · rw [List.mem_singleton.1 mem, octet (by omega)]
    exact .inl rfl
  right
  split at mem
  · simp only [List.mem_cons, List.not_mem_nil, or_false] at mem
    rcases mem with rfl | rfl <;> rw [octet (by omega)] <;> omega
  split at mem
  · simp only [List.mem_cons, List.not_mem_nil, or_false] at mem
    rcases mem with rfl | rfl | rfl <;> rw [octet (by omega)] <;> omega
  · simp only [List.mem_cons, List.not_mem_nil, or_false] at mem
    rcases mem with rfl | rfl | rfl | rfl <;> rw [octet (by omega)] <;> omega

/-! ## Reading -/

theorem scan_cons (state : State) (b : UInt8) (rest : Bytes) :
    scan state (b :: rest) = (state.feed b).1 ++ scan (state.feed b).2 rest := by
  cases state <;> rfl

namespace State

theorem feed_start (b : UInt8) : start.feed b = lead b := rfl

variable {read owed bits : Nat} {b low high : UInt8}

/-- An octet that is a character by itself. -/
theorem lead_one (most : b.toNat < 0x80) : lead b = ([.char (Char.ofNat b.toNat)], .start) :=
  if_pos (UInt8.lt_iff_toNat_lt.2 most)

/-- An octet that goes on with a character, where none was begun. -/
theorem lead_stray (least : 0x80 ≤ b.toNat) (most : b.toNat < 0xC2) :
    lead b = ([.malformed 1], .start) := by
  have one : ¬ b.toNat < 0x80 := by omega
  simp [lead, UInt8.lt_iff_toNat_lt, one, most]

/-- The first of two octets. -/
theorem lead_two (least : 0xC2 ≤ b.toNat) (most : b.toNat < 0xE0) :
    lead b = ([], .inside 1 1 0x80 0xBF (b.toNat - 0xC0)) := by
  have one : ¬ b.toNat < 0x80 := by omega
  have stray : ¬ b.toNat < 0xC2 := by omega
  simp [lead, UInt8.lt_iff_toNat_lt, one, stray, most]

/-- The first of three octets. -/
theorem lead_three (least : 0xE0 ≤ b.toNat) (most : b.toNat < 0xF0) :
    lead b = ([], .inside 1 2 (if b.toNat = 0xE0 then 0xA0 else 0x80)
      (if b.toNat = 0xED then 0x9F else 0xBF) (b.toNat - 0xE0)) := by
  have one : ¬ b.toNat < 0x80 := by omega
  have stray : ¬ b.toNat < 0xC2 := by omega
  have two : ¬ b.toNat < 0xE0 := by omega
  simp [lead, UInt8.lt_iff_toNat_lt, ← UInt8.toNat_inj, one, stray, two, most]

/-- The first of four octets. -/
theorem lead_four (least : 0xF0 ≤ b.toNat) (most : b.toNat < 0xF5) :
    lead b = ([], .inside 1 3 (if b.toNat = 0xF0 then 0x90 else 0x80)
      (if b.toNat = 0xF4 then 0x8F else 0xBF) (b.toNat - 0xF0)) := by
  have one : ¬ b.toNat < 0x80 := by omega
  have stray : ¬ b.toNat < 0xC2 := by omega
  have two : ¬ b.toNat < 0xE0 := by omega
  have three : ¬ b.toNat < 0xF0 := by omega
  simp [lead, UInt8.lt_iff_toNat_lt, ← UInt8.toNat_inj, one, stray, two, three, most]

/-- An octet in the middle of a character adds six bits. -/
theorem feed_more (least : low.toNat ≤ b.toNat) (most : b.toNat ≤ high.toNat)
    (more : 1 < owed) :
    (inside read owed low high bits).feed b =
      ([], .inside (read + 1) (owed - 1) 0x80 0xBF (bits * 64 + (b.toNat - 0x80))) := by
  have within : low ≤ b ∧ b ≤ high :=
    ⟨UInt8.le_iff_toNat_le.2 least, UInt8.le_iff_toNat_le.2 most⟩
  rw [feed, if_pos within, if_neg (Nat.not_le.2 more)]

/-- The last octet of a character. -/
theorem feed_last (least : low.toNat ≤ b.toNat) (most : b.toNat ≤ high.toNat) :
    (inside read 1 low high bits).feed b =
      ([.char (Char.ofNat (bits * 64 + (b.toNat - 0x80)))], .start) := by
  have within : low ≤ b ∧ b ≤ high :=
    ⟨UInt8.le_iff_toNat_le.2 least, UInt8.le_iff_toNat_le.2 most⟩
  rw [feed, if_pos within, if_pos (Nat.le_refl 1)]

/-- True of the octets that go on with a character wherever no other bounds are set. -/
def Continues (b : UInt8) : Prop := 0x80 ≤ b.toNat ∧ b.toNat ≤ 0xBF

theorem Continues.feed_more (continues : Continues b) (more : 1 < owed) :
    (inside read owed 0x80 0xBF bits).feed b =
      ([], .inside (read + 1) (owed - 1) 0x80 0xBF (bits * 64 + (b.toNat - 0x80))) :=
  State.feed_more continues.1 continues.2 more

theorem Continues.feed_last (continues : Continues b) :
    (inside read 1 0x80 0xBF bits).feed b =
      ([.char (Char.ofNat (bits * 64 + (b.toNat - 0x80)))], .start) :=
  State.feed_last continues.1 continues.2

end State

section Characters

open State (Continues)

/-- Octets that are read as one character with the given code: one to four of them, where the
first tells how many there are, and sets bounds for the second. -/
inductive Encodes : Nat → Bytes → Prop
  | one {a : UInt8} (most : a.toNat < 0x80) : Encodes a.toNat [a]
  | two {a b : UInt8} (least : 0xC2 ≤ a.toNat) (most : a.toNat < 0xE0) (second : Continues b) :
    Encodes ((a.toNat - 0xC0) * 64 + (b.toNat - 0x80)) [a, b]
  | three {a b c : UInt8} (least : 0xE0 ≤ a.toNat) (most : a.toNat < 0xF0) (second : Continues b)
    (long : a.toNat = 0xE0 → 0xA0 ≤ b.toNat) (half : a.toNat = 0xED → b.toNat ≤ 0x9F)
    (third : Continues c) :
    Encodes (((a.toNat - 0xE0) * 64 + (b.toNat - 0x80)) * 64 + (c.toNat - 0x80)) [a, b, c]
  | four {a b c d : UInt8} (least : 0xF0 ≤ a.toNat) (most : a.toNat < 0xF5) (second : Continues b)
    (long : a.toNat = 0xF0 → 0x90 ≤ b.toNat) (last : a.toNat = 0xF4 → b.toNat ≤ 0x8F)
    (third : Continues c) (fourth : Continues d) :
    Encodes ((((a.toNat - 0xF0) * 64 + (b.toNat - 0x80)) * 64 + (c.toNat - 0x80)) * 64 +
      (d.toNat - 0x80)) [a, b, c, d]

namespace Encodes

section Second

variable {a b : UInt8} {bits : Nat}

/-- The second of three octets. -/
theorem feed_second_of_three (second : Continues b) (long : a.toNat = 0xE0 → 0xA0 ≤ b.toNat)
    (half : a.toNat = 0xED → b.toNat ≤ 0x9F) :
    (State.inside 1 2 (if a.toNat = 0xE0 then 0xA0 else 0x80)
      (if a.toNat = 0xED then 0x9F else 0xBF) bits).feed b =
        ([], .inside 2 1 0x80 0xBF (bits * 64 + (b.toNat - 0x80))) := by
  refine State.feed_more ?_ ?_ Nat.one_lt_two
  · split
    · next same => exact long same
    · exact second.1
  · split
    · next same => exact half same
    · exact second.2

/-- The second of four octets. -/
theorem feed_second_of_four (second : Continues b) (long : a.toNat = 0xF0 → 0x90 ≤ b.toNat)
    (last : a.toNat = 0xF4 → b.toNat ≤ 0x8F) :
    (State.inside 1 3 (if a.toNat = 0xF0 then 0x90 else 0x80)
      (if a.toNat = 0xF4 then 0x8F else 0xBF) bits).feed b =
        ([], .inside 2 2 0x80 0xBF (bits * 64 + (b.toNat - 0x80))) := by
  refine State.feed_more ?_ ?_ (by decide)
  · split
    · next same => exact long same
    · exact second.1
  · split
    · next same => exact last same
    · exact second.2

end Second

variable {code : Nat} {octets : Bytes}

/-- They are read as that character, whatever follows. -/
theorem scan (encodes : Encodes code octets) (rest : Bytes) :
    Utf8.scan .start (octets ++ rest) = .char (Char.ofNat code) :: Utf8.scan .start rest := by
  cases encodes with
  | one most =>
      rw [List.singleton_append, scan_cons, State.feed_start, State.lead_one most]
      rfl
  | two least most second =>
      simp only [List.cons_append, List.nil_append]
      rw [scan_cons, State.feed_start, State.lead_two least most, scan_cons, second.feed_last]
      rfl
  | three least most second long half third =>
      simp only [List.cons_append, List.nil_append]
      rw [scan_cons, State.feed_start, State.lead_three least most, scan_cons,
        feed_second_of_three second long half, scan_cons, third.feed_last]
      rfl
  | four least most second long last third fourth =>
      simp only [List.cons_append, List.nil_append]
      rw [scan_cons, State.feed_start, State.lead_four least most, scan_cons,
        feed_second_of_four second long last, scan_cons, third.feed_more Nat.one_lt_two,
        scan_cons, fourth.feed_last]
      rfl

/-- After the first, all octets go on with a character. -/
theorem continues_of_mem_drop (encodes : Encodes code octets) {k : Nat} (inside : 0 < k) :
    ∀ b ∈ octets.drop k, Continues b := by
  have tail : ∀ b ∈ octets.drop 1, Continues b := by
    cases encodes <;> simp [*]
  intro b mem
  have later : octets.drop k = (octets.drop 1).drop (k - 1) := by
    rw [List.drop_drop, Nat.add_sub_cancel' inside]
  rw [later] at mem
  exact tail b (List.mem_of_mem_drop mem)

/-- Where the input ends before they do, they are read as one piece that is cut short. -/
theorem scan_take (encodes : Encodes code octets) {k : Nat} (inside : 0 < k)
    (short : k < octets.length) : Utf8.scan .start (octets.take k) = [.truncated k] := by
  cases encodes with
  | one most => exact absurd inside (Nat.not_lt.2 (Nat.le_of_lt_succ short))
  | two least most second =>
      obtain rfl : k = 1 := Nat.le_antisymm (Nat.le_of_lt_succ short) inside
      rw [List.take_succ_cons, List.take_zero, scan_cons, State.feed_start,
        State.lead_two least most]
      rfl
  | three least most second long half third =>
      have first := State.lead_three least most
      obtain rfl | rfl : k = 1 ∨ k = 2 := by
        simp at short
        omega
      · rw [List.take_succ_cons, List.take_zero, scan_cons, State.feed_start, first]
        rfl
      · rw [List.take_succ_cons, List.take_succ_cons, List.take_zero, scan_cons, State.feed_start,
          first, scan_cons, feed_second_of_three second long half]
        rfl
  | four least most second long last third fourth =>
      have first := State.lead_four least most
      obtain rfl | rfl | rfl : k = 1 ∨ k = 2 ∨ k = 3 := by
        simp at short
        omega
      · rw [List.take_succ_cons, List.take_zero, scan_cons, State.feed_start, first]
        rfl
      · rw [List.take_succ_cons, List.take_succ_cons, List.take_zero, scan_cons, State.feed_start,
          first, scan_cons, feed_second_of_four second long last]
        rfl
      · rw [List.take_succ_cons, List.take_succ_cons, List.take_succ_cons, List.take_zero,
          scan_cons, State.feed_start, first, scan_cons, feed_second_of_four second long last,
          scan_cons, third.feed_more Nat.one_lt_two]
        rfl

end Encodes

/-- What is written of a character encodes it. -/
theorem encodes_utf8EncodeChar (c : Char) : Encodes c.toNat (String.utf8EncodeChar c) := by
  have valid : c.toNat < 0xD800 ∨ 0xDFFF < c.toNat ∧ c.toNat < 0x110000 := c.valid
  have octet {n : Nat} (small : n < 256) : (UInt8.ofNat n).toNat = n :=
    UInt8.toNat_ofNat_of_lt' small
  have continues (n : Nat) : Continues (UInt8.ofNat (n % 64 + 128)) := by
    rw [Continues, octet (by omega)]
    omega
  have code : c.val.toNat = c.toNat := rfl
  simp only [String.utf8EncodeChar, code]
  split
  · next one =>
    have first := octet (n := c.toNat) (by omega)
    have encodes := Encodes.one (a := UInt8.ofNat c.toNat) (by omega)
    rwa [first] at encodes
  have last := octet (n := c.toNat % 64 + 128) (by omega)
  split
  · next two =>
    have first := octet (n := c.toNat / 64 % 32 + 192) (by omega)
    have value : (c.toNat / 64 % 32 + 192 - 0xC0) * 64 + (c.toNat % 64 + 128 - 0x80) = c.toNat := by
      omega
    have encodes := Encodes.two (a := UInt8.ofNat (c.toNat / 64 % 32 + 192)) (by omega) (by omega)
      (continues c.toNat)
    rwa [first, last, value] at encodes
  have middle := octet (n := c.toNat / 64 % 64 + 128) (by omega)
  split
  · next three =>
    have first := octet (n := c.toNat / 4096 % 16 + 224) (by omega)
    have value : ((c.toNat / 4096 % 16 + 224 - 0xE0) * 64 + (c.toNat / 64 % 64 + 128 - 0x80)) * 64
        + (c.toNat % 64 + 128 - 0x80) = c.toNat := by
      omega
    have encodes := Encodes.three (a := UInt8.ofNat (c.toNat / 4096 % 16 + 224)) (by omega)
      (by omega) (continues (c.toNat / 64)) (by omega) (by omega) (continues c.toNat)
    rwa [first, middle, last, value] at encodes
  · have first := octet (n := c.toNat / 262144 % 8 + 240) (by omega)
    have second := octet (n := c.toNat / 4096 % 64 + 128) (by omega)
    have value : (((c.toNat / 262144 % 8 + 240 - 0xF0) * 64 + (c.toNat / 4096 % 64 + 128 - 0x80))
        * 64 + (c.toNat / 64 % 64 + 128 - 0x80)) * 64 + (c.toNat % 64 + 128 - 0x80) = c.toNat := by
      omega
    have encodes := Encodes.four (a := UInt8.ofNat (c.toNat / 262144 % 8 + 240)) (by omega)
      (by omega) (continues (c.toNat / 4096)) (by omega) (by omega) (continues (c.toNat / 64))
      (continues c.toNat)
    rwa [first, second, middle, last, value] at encodes

/-- What was written of a character is read as that character. -/
theorem scan_utf8EncodeChar (c : Char) (rest : Bytes) :
    scan .start (String.utf8EncodeChar c ++ rest) = .char c :: scan .start rest := by
  rw [(encodes_utf8EncodeChar c).scan, Char.ofNat_toNat]

end Characters

/-- What was written of a text is read as its characters. -/
theorem pieces_encode (s : String) : pieces (encode s) = s.toList.map .char := by
  rw [pieces, encode_eq]
  induction s.toList with
  | nil => rfl
  | cons c rest ih => rw [List.flatMap_cons, scan_utf8EncodeChar, ih, List.map_cons]

theorem collect_chars (offset : Nat) (cs : List Char) :
    collect offset (cs.map .char) = .ok cs := by
  induction cs generalizing offset with
  | nil => rfl
  | cons c rest ih =>
      rw [List.map_cons, collect, ih]
      rfl

/-- A text that is written and read again is the same. -/
theorem decode?_encode (s : String) : decode? (encode s) = some s := by
  rw [decode?, decode, pieces_encode, collect_chars]
  exact congrArg some String.ofList_toList

/-! ## Lenient reading -/

/-- A piece as it is shown. -/
def Piece.shown : Piece → Char
  | .char c => c
  | .malformed _ | .truncated _ => replacement

/-- The characters that a byte string is shown as. -/
theorem toList_lossy (octets : Bytes) : (lossy octets).toList = (pieces octets).map Piece.shown :=
  String.toList_ofList

/-- Octets are shown as characters, whatever follows them. -/
def Shows (octets : Bytes) (cs : List Char) : Prop :=
  ∃ shown : List Piece, shown.map Piece.shown = cs ∧
    ∀ rest, scan .start (octets ++ rest) = shown ++ scan .start rest

namespace Shows

variable {octets later : Bytes} {cs ds : List Char}

theorem nil : Shows [] [] := ⟨[], rfl, fun _ => rfl⟩

theorem char (c : Char) : Shows (String.utf8EncodeChar c) [c] :=
  ⟨[.char c], rfl, scan_utf8EncodeChar c⟩

theorem append (shows : Shows octets cs) (shows' : Shows later ds) :
    Shows (octets ++ later) (cs ++ ds) := by
  obtain ⟨shown, rfl, read⟩ := shows
  obtain ⟨shown', rfl, read'⟩ := shows'
  refine ⟨shown ++ shown', List.map_append, fun rest => ?_⟩
  rw [List.append_assoc, read, read', List.append_assoc]

/-- Octets that could only go on with a character are shown each by itself. -/
theorem of_continues (all : ∀ b ∈ octets, State.Continues b) :
    Shows octets (List.replicate octets.length replacement) := by
  induction octets with
  | nil => exact nil
  | cons b rest ih =>
      obtain ⟨⟨least, most⟩, others⟩ := List.forall_mem_cons.1 all
      have first : Shows [b] [replacement] := by
        refine ⟨[.malformed 1], rfl, fun rest => ?_⟩
        rw [List.singleton_append, scan_cons, State.feed_start, State.lead_stray least (by omega)]
      exact first.append (ih others)

theorem toList_lossy (shows : Shows octets cs) : (lossy octets).toList = cs := by
  obtain ⟨shown, rfl, read⟩ := shows
  have whole := read []
  rw [List.append_nil, scan, List.append_nil] at whole
  rw [Utf8.toList_lossy, pieces, whole]

/-- Where they end inside a character, what there is of it is shown as one replacement. -/
theorem toList_lossy_take (shows : Shows octets cs) (c : Char) {k : Nat} (inside : 0 < k)
    (short : k < c.utf8Size) :
    (lossy (octets ++ (String.utf8EncodeChar c).take k)).toList = cs ++ [replacement] := by
  obtain ⟨shown, rfl, read⟩ := shows
  rw [← String.length_utf8EncodeChar] at short
  rw [Utf8.toList_lossy, pieces, read, (encodes_utf8EncodeChar c).scan_take inside short,
    List.map_append]
  rfl

end Shows

end ContractHost.Utf8
