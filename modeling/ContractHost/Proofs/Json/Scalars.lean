/-
# Numbers and strings of JSON documents

A number that keeps the grammar is read from its print as it was, with its digits and its
exponent. A string is read from its print as the text it denotes: every escape stands for the
character that it was made for, and all other characters stand for themselves.
-/

import ContractHost.Json.Printer
import ContractHost.Json.Token
import ContractHost.Proofs.Text.Decimal
import ContractHost.Proofs.Text.Utf8

namespace ContractHost.Json

/-- Digits as the grammar has them before a point: at least one, and no zero in front of
others. -/
structure IsWhole (digits : List Nat) : Prop where
  nonempty : digits ≠ []
  digit : ∀ d ∈ digits, d < 10
  unpadded : ∀ rest, digits = 0 :: rest → rest = []

/-- A number that keeps the grammar: an integral part without padding, and at least one digit
behind a point. -/
structure Number.WellFormed (n : Number) : Prop where
  whole : IsWhole n.whole
  fraction : ∀ digits, n.fraction = some digits → digits ≠ [] ∧ ∀ d ∈ digits, d < 10

theorem isWhole_digits (n : Nat) : IsWhole (Decimal.digits n) where
  nonempty := Decimal.digits_ne_nil n
  digit := fun _ mem => Decimal.lt_of_mem_digits mem
  unpadded := by
    rintro rest shape
    rcases Nat.eq_zero_or_pos n with rfl | positive
    · rw [Decimal.digits, if_pos (by decide)] at shape
      exact (List.cons.inj shape).2.symm
    · obtain ⟨d, others, shape', nonzero⟩ := Decimal.head_digits positive
      exact absurd (List.cons.inj (shape'.symm.trans shape)).1 nonzero

theorem Number.wellFormed_ofNat (n : Nat) : (Number.ofNat n).WellFormed where
  whole := isWhole_digits n
  fraction := by rintro digits ⟨⟩

/-! ## Digits -/

section Digits

variable {ds : List Nat} {rest : Bytes}

/-- The octet of a digit. -/
def digitOctet (d : Nat) : UInt8 := UInt8.ofNat (0x30 + d)

theorem digit?_digitOctet {d : Nat} (digit : d < 10) : Token.digit? (digitOctet d) = some d := by
  have all : ∀ d < 10, Token.digit? (digitOctet d) = some d := by decide
  exact all d digit

/-- The digits at the front are read up to the first other octet. -/
theorem leadingDigits_printDigits (digit : ∀ d ∈ ds, d < 10)
    (ends : ∀ b ∈ rest.head?, Token.digit? b = none) :
    Token.leadingDigits (printDigits ds ++ rest) = (ds, rest) := by
  induction ds with
  | nil =>
      cases rest with
      | nil => rfl
      | cons b rest =>
          have other : Token.digit? b = none := ends b rfl
          simp only [printDigits, List.map_nil, List.nil_append, Token.leadingDigits, other]
  | cons d ds ih =>
      obtain ⟨first, others⟩ := List.forall_mem_cons.1 digit
      have value : Token.digit? (UInt8.ofNat (0x30 + d)) = some d := digit?_digitOctet first
      have later := ih others
      simp only [printDigits] at later
      simp only [printDigits, List.map_cons, List.cons_append, Token.leadingDigits, value, later]

/-- A number is written with the octets of its digits. -/
theorem encode_print (n : Nat) :
    Utf8.encode (Decimal.print n) = printDigits (Decimal.digits n) := by
  have single : ∀ d < 10, String.utf8EncodeChar (Decimal.digitChar d) = [digitOctet d] := by
    decide
  rw [Decimal.print, Utf8.encode_ofList, List.flatMap_map, printDigits, List.map_eq_flatMap,
    List.flatMap_def, List.flatMap_def]
  exact congrArg List.flatten
    (List.map_congr_left fun d mem => single d (Decimal.lt_of_mem_digits mem))

theorem encode_printInt_negSucc (n : Nat) :
    Utf8.encode (Decimal.printInt (.negSucc n)) = 0x2D :: printDigits (Decimal.digits (n + 1)) := by
  have minus : ("-" ++ Decimal.print (n + 1)).toList = '-' :: (Decimal.print (n + 1)).toList :=
    String.toList_append
  rw [← encode_print, Decimal.printInt, Utf8.encode_eq, Utf8.encode_eq, minus]
  rfl

end Digits

/-! ## Numbers -/

section Numbers

variable {ds : List Nat}

/-- Digits that are written start with the octet of a digit. -/
theorem exists_printDigits (some : ds ≠ []) (digit : ∀ d ∈ ds, d < 10) :
    ∃ d rest, d < 10 ∧ printDigits ds = digitOctet d :: printDigits rest := by
  obtain ⟨d, rest, rfl⟩ := List.exists_cons_of_ne_nil some
  exact ⟨d, rest, digit d List.mem_cons_self, rfl⟩

theorem leadingDigits_all (digit : ∀ d ∈ ds, d < 10) :
    Token.leadingDigits (printDigits ds) = (ds, []) := by
  have whole : Token.leadingDigits (printDigits ds ++ []) = (ds, []) :=
    leadingDigits_printDigits digit (by simp)
  rwa [List.append_nil] at whole

/-- The exponent of a number, as it is written. -/
def printExponent (exponent : Option Int) : Bytes :=
  match exponent with
  | some e => 0x65 :: Utf8.encode (Decimal.printInt e)
  | none => []

/-- The fraction of a number, as it is written. -/
def printFraction (fraction : Option (List Nat)) : Bytes :=
  match fraction with
  | some digits => 0x2E :: printDigits digits
  | none => []

theorem exponent?_printExponent (exponent : Option Int) :
    Token.exponent? (printExponent exponent) = some exponent := by
  have digit {m : Nat} : ∀ d ∈ Decimal.digits m, d < 10 := fun _ => Decimal.lt_of_mem_digits
  have read (m : Nat) : Token.leadingDigits (printDigits (Decimal.digits m)) =
      (Decimal.digits m, []) := leadingDigits_all digit
  rcases exponent with - | n | n
  · rfl
  · have plain : ∀ d < 10, digitOctet d ≠ 0x2D ∧ digitOctet d ≠ 0x2B := by decide
    have some := Decimal.digits_ne_nil n
    obtain ⟨d, rest, small, shape⟩ := exists_printDigits some digit
    obtain ⟨unsigned, unsigned'⟩ := plain d small
    have whole := read n
    rw [shape] at whole
    simp only [printExponent, Decimal.printInt, encode_print, shape, Token.exponent?, true_or,
      if_true]
    simp [unsigned, unsigned', whole, Decimal.ofDigits_digits]
  · have some := Decimal.digits_ne_nil (n + 1)
    simp only [printExponent, encode_printInt_negSucc, Token.exponent?, true_or, if_true, read]
    rw [Decimal.ofDigits_digits]
    rfl

theorem head_printExponent (exponent : Option Int) :
    ∀ b ∈ (printExponent exponent).head?, b = 0x65 := by
  cases exponent with
  | none => simp [printExponent]
  | some e => simp [printExponent]

theorem fraction?_printFraction {fraction : Option (List Nat)} (exponent : Option Int)
    (digits : ∀ ds, fraction = some ds → ds ≠ [] ∧ ∀ d ∈ ds, d < 10) :
    Token.fraction? (printFraction fraction ++ printExponent exponent) =
      some (fraction, exponent) := by
  have read := exponent?_printExponent exponent
  have ends := head_printExponent exponent
  cases fraction with
  | none =>
      rw [printFraction, List.nil_append]
      generalize printExponent exponent = octets at read ends
      unfold Token.fraction?
      split
      · cases ends _ rfl
      · rw [read]
        rfl
  | some ds =>
      obtain ⟨some, digit⟩ := digits ds rfl
      have front : Token.leadingDigits (printDigits ds ++ printExponent exponent) =
          (ds, printExponent exponent) := by
        apply leadingDigits_printDigits digit
        intro b mem
        rw [ends b mem]
        decide
      rw [printFraction, List.cons_append]
      simp only [Token.fraction?, front, read]
      rfl

theorem head_printFraction (fraction : Option (List Nat)) (exponent : Option Int) :
    ∀ b ∈ (printFraction fraction ++ printExponent exponent).head?, b = 0x2E ∨ b = 0x65 := by
  cases fraction with
  | none => exact fun b mem => .inr (head_printExponent exponent b mem)
  | some ds => simp [printFraction]

theorem Number.print_eq (n : Number) :
    n.print = (if n.negative then [0x2D] else []) ++
      (printDigits n.whole ++ (printFraction n.fraction ++ printExponent n.exponent)) := by
  unfold Number.print
  rw [List.append_assoc, List.append_assoc]
  rfl

/-- Without its sign, a number is read from what is written of its digits. -/
theorem number?_unsigned {n : Number} (wellFormed : n.WellFormed) (octets : Bytes)
    (shape : octets = printDigits n.whole ++ (printFraction n.fraction ++
      printExponent n.exponent)) :
    (match Token.leadingDigits octets with
      | ([], _) | (0 :: _ :: _, _) => none
      | (digits, tail) => (Token.fraction? tail).map fun (fraction, exponent) =>
        ({ negative := n.negative, whole := digits, fraction, exponent } : Number)) =
      some n := by
  have front : Token.leadingDigits octets =
      (n.whole, printFraction n.fraction ++ printExponent n.exponent) := by
    rw [shape]
    apply leadingDigits_printDigits wellFormed.whole.digit
    intro b mem
    rcases head_printFraction n.fraction n.exponent b mem with rfl | rfl <;> decide
  have nonempty := wellFormed.whole.nonempty
  have unpadded := wellFormed.whole.unpadded
  rw [front]
  split
  · next shape =>
    exact absurd (Prod.ext_iff.1 shape).1 nonempty
  · next shape =>
    cases unpadded _ (Prod.ext_iff.1 shape).1
  · next shape =>
    cases shape
    rw [fraction?_printFraction n.exponent wellFormed.fraction]
    rfl

/-- A number is read from its print as it was. -/
theorem number?_print {n : Number} (wellFormed : n.WellFormed) :
    Token.number? n.print = some n := by
  have unsigned := number?_unsigned wellFormed _ rfl
  have plain : ∀ d < 10, digitOctet d ≠ 0x2D := by decide
  obtain ⟨d, rest, small, first⟩ :=
    exists_printDigits wellFormed.whole.nonempty wellFormed.whole.digit
  rw [Number.print_eq]
  cases sign : n.negative with
  | true =>
      rw [sign] at unsigned
      exact unsigned
  | false =>
      rw [sign, first] at unsigned
      rw [first, if_neg Bool.false_ne_true, List.nil_append, Token.number?]
      · exact unsigned
      · exact fun rest minus => plain d small (List.cons.inj minus).1

theorem isNumeral_printDigits (digit : ∀ d ∈ ds, d < 10) :
    ∀ b ∈ printDigits ds, Token.isNumeral b := by
  have all : ∀ d < 10, Token.isNumeral (digitOctet d) := by decide
  intro b mem
  obtain ⟨d, inside, rfl⟩ := List.mem_map.1 mem
  exact all d (digit d inside)

theorem isNumeral_printExponent (exponent : Option Int) :
    ∀ b ∈ printExponent exponent, Token.isNumeral b := by
  have digits (m : Nat) : ∀ b ∈ printDigits (Decimal.digits m), Token.isNumeral b :=
    isNumeral_printDigits fun _ => Decimal.lt_of_mem_digits
  rcases exponent with - | n | n
  · simp [printExponent]
  · rw [printExponent, Decimal.printInt, encode_print]
    exact List.forall_mem_cons.2 ⟨by decide, digits n⟩
  · rw [printExponent, encode_printInt_negSucc]
    exact List.forall_mem_cons.2 ⟨by decide, List.forall_mem_cons.2 ⟨by decide, digits (n + 1)⟩⟩

theorem isNumeral_printFraction {fraction : Option (List Nat)}
    (digits : ∀ ds, fraction = some ds → ds ≠ [] ∧ ∀ d ∈ ds, d < 10) :
    ∀ b ∈ printFraction fraction, Token.isNumeral b := by
  cases fraction with
  | none => simp [printFraction]
  | some ds =>
      exact List.forall_mem_cons.2 ⟨by decide, isNumeral_printDigits (digits ds rfl).2⟩

/-- A number is written with octets of numbers only, and the first opens one. -/
theorem exists_print {n : Number} (wellFormed : n.WellFormed) :
    ∃ b rest, n.print = b :: rest ∧ Token.opensNumber b ∧ ∀ b ∈ rest, Token.isNumeral b := by
  have opens : ∀ d < 10, Token.opensNumber (digitOctet d) := by decide
  obtain ⟨d, others, small, first⟩ :=
    exists_printDigits wellFormed.whole.nonempty wellFormed.whole.digit
  have whole := isNumeral_printDigits wellFormed.whole.digit
  have behind : ∀ b ∈ printFraction n.fraction ++ printExponent n.exponent, Token.isNumeral b :=
    List.forall_mem_append.2
      ⟨isNumeral_printFraction wellFormed.fraction, isNumeral_printExponent n.exponent⟩
  rw [Number.print_eq]
  cases n.negative with
  | true =>
      refine ⟨0x2D, printDigits n.whole ++ _, rfl, by decide, ?_⟩
      exact List.forall_mem_append.2 ⟨whole, behind⟩
  | false =>
      rw [first] at whole ⊢
      exact ⟨digitOctet d, _, rfl, opens d small,
        List.forall_mem_append.2 ⟨(List.forall_mem_cons.1 whole).2, behind⟩⟩

end Numbers

/-! ## Strings -/

section Strings

/-- What is written of a character between the quotes of a string. -/
def escapeOctets (c : Char) : Bytes := (escape c).flatMap String.utf8EncodeChar

/-- Octets that stand for themselves between the quotes of a string. -/
def IsPlain (b : UInt8) : Prop := 0x20 ≤ b ∧ b ≠ 0x22 ∧ b ≠ 0x5C

instance : DecidablePred IsPlain := fun b =>
  inferInstanceAs (Decidable (0x20 ≤ b ∧ b ≠ 0x22 ∧ b ≠ 0x5C))

/-- The octet of a lowercase hexadecimal digit. -/
def hexOctet (n : Nat) : UInt8 := UInt8.ofNat (if n < 10 then 0x30 + n else 0x57 + n)

theorem hexDigit?_hexOctet {n : Nat} (digit : n < 16) :
    Token.hexDigit? (hexOctet n) = some n := by
  have all : ∀ n < 16, Token.hexDigit? (hexOctet n) = some n := by decide
  exact all n digit

theorem isPlain_hexOctet {n : Nat} (digit : n < 16) : IsPlain (hexOctet n) := by
  have all : ∀ n < 16, IsPlain (hexOctet n) := by decide
  exact all n digit

theorem utf8EncodeChar_hexDigit {n : Nat} (digit : n < 16) :
    String.utf8EncodeChar (Bytes.hexDigit n) = [hexOctet n] := by
  have all : ∀ n < 16, String.utf8EncodeChar (Bytes.hexDigit n) = [hexOctet n] := by decide
  exact all n digit

/-- How a character is written between the quotes of a string: by an escape of one letter, by an
escape of four digits, or as it is. -/
inductive Escaped (c : Char) : Bytes → Prop
  | letter (e b : UInt8) (control : 0x20 ≤ e) (other : e ≠ 0x75)
    (known : Token.shortEscape? e = some b) (code : String.utf8EncodeChar c = [b]) :
    Escaped c [0x5C, e]
  | digits (control : c.toNat < 0x20) :
    Escaped c [0x5C, 0x75, 0x30, 0x30, hexOctet (c.toNat / 16), hexOctet (c.toNat % 16)]
  | plain (all : ∀ b ∈ String.utf8EncodeChar c, IsPlain b) :
    Escaped c (String.utf8EncodeChar c)

theorem escaped_escapeOctets (c : Char) : Escaped c (escapeOctets c) := by
  unfold escapeOctets escape
  split
  · exact .letter 0x22 0x22 (by decide) (by decide) (by decide) (by decide)
  · exact .letter 0x5C 0x5C (by decide) (by decide) (by decide) (by decide)
  · exact .letter 0x62 0x08 (by decide) (by decide) (by decide) (by decide)
  · exact .letter 0x74 0x09 (by decide) (by decide) (by decide) (by decide)
  · exact .letter 0x6E 0x0A (by decide) (by decide) (by decide) (by decide)
  · exact .letter 0x66 0x0C (by decide) (by decide) (by decide) (by decide)
  · exact .letter 0x72 0x0D (by decide) (by decide) (by decide) (by decide)
  · next quote backslash _ _ _ _ _ =>
    split
    · next control =>
      have high := utf8EncodeChar_hexDigit (n := c.toNat / 16) (by omega)
      have low := utf8EncodeChar_hexDigit (n := c.toNat % 16) (by omega)
      have written := Escaped.digits control
      rw [List.flatMap_cons, List.flatMap_cons, List.flatMap_cons, List.flatMap_cons,
        List.flatMap_cons, List.flatMap_singleton, high, low]
      exact written
    · next large =>
      rw [List.flatMap_singleton]
      refine .plain fun b mem => ?_
      rcases Utf8.toNat_of_mem mem with code | beyond
      · have ne {d : Char} (other : c ≠ d) : b.toNat ≠ d.toNat := fun same =>
          other (Char.toNat_inj.1 (code.symm.trans same))
        refine ⟨UInt8.le_iff_toNat_le.2 (by rw [code]; exact Nat.not_lt.1 large), ?_, ?_⟩
        · rintro rfl
          exact ne quote rfl
        · rintro rfl
          exact ne backslash rfl
      · refine ⟨UInt8.le_iff_toNat_le.2 (Nat.le_trans (by decide) beyond), ?_, ?_⟩
        · rintro rfl
          exact absurd beyond (by decide)
        · rintro rfl
          exact absurd beyond (by decide)

/-! ### What the parts of a string denote -/

section Parts

variable {rest : Bytes} {c : Char} {written : Bytes}

theorem units?_plain {b : UInt8} (plain : IsPlain b) :
    Token.units? (b :: rest) = (Token.units? rest).map (.octet b :: ·) := by
  obtain ⟨-, -, other⟩ := plain
  rw [Token.units?]
  · cases Token.units? rest <;> rfl
  · exact fun _ _ _ _ _ here _ => other here
  · exact fun _ _ here _ => other here
  · exact fun here _ => other here

theorem units?_allPlain {bytes : Bytes} (plain : ∀ b ∈ bytes, IsPlain b) :
    Token.units? (bytes ++ rest) = (Token.units? rest).map (bytes.map .octet ++ ·) := by
  induction bytes with
  | nil => simp
  | cons b bytes ih =>
      obtain ⟨first, others⟩ := List.forall_mem_cons.1 plain
      rw [List.cons_append, units?_plain first, ih others, Option.map_map]
      rfl

theorem units?_letter {e b : UInt8} (other : e ≠ 0x75) (known : Token.shortEscape? e = some b) :
    Token.units? (0x5C :: e :: rest) = (Token.units? rest).map (.octet b :: ·) := by
  rw [Token.units?, known]
  · cases Token.units? rest <;> rfl
  · exact fun _ _ _ _ _ here _ => other here

theorem units?_digits {high low : Nat} (small : high < 16) (small' : low < 16) :
    Token.units? (0x5C :: 0x75 :: 0x30 :: 0x30 :: hexOctet high :: hexOctet low :: rest) =
      (Token.units? rest).map (.escaped (high * 16 + low) :: ·) := by
  have zero : Token.hexDigit? 0x30 = some 0 := by decide
  rw [Token.units?, zero, hexDigit?_hexOctet small, hexDigit?_hexOctet small']
  cases Token.units? rest with
  | none => rfl
  | some units => simp

theorem assemble_octets (bytes : Bytes) (later : List Token.Unit) :
    Token.assemble (bytes.map .octet ++ later) = (Token.assemble later).map (bytes ++ ·) := by
  induction bytes with
  | nil => simp
  | cons b bytes ih =>
      rw [List.map_cons, List.cons_append, Token.assemble, ih, Option.map_map]
      rfl

/-- An escape that is no half of a character denotes a character, whatever follows. -/
theorem assemble_escaped {unit : Nat} (whole : unit < 0xD800) (later : List Token.Unit) :
    Token.assemble (.escaped unit :: later) =
      (Token.assemble later).map (Token.octetsOf unit ++ ·) := by
  have high : ¬ (0xD800 ≤ unit ∧ unit < 0xDC00) := by omega
  have low : ¬ (0xDC00 ≤ unit ∧ unit < 0xE000) := by omega
  have half : ¬ (0xD800 ≤ unit ∧ unit < 0xE000) := by omega
  cases later with
  | nil => simp only [Token.assemble, if_neg half]
  | cons part later =>
      cases part with
      | octet b => simp only [Token.assemble, if_neg half]
      | escaped next => rw [Token.assemble, if_neg high, if_neg low]

/-- What is written of a character is read in parts that denote it. -/
theorem Escaped.read (escaped : Escaped c written) :
    ∃ units, (∀ rest, Token.units? (written ++ rest) = (Token.units? rest).map (units ++ ·)) ∧
      ∀ later, Token.assemble (units ++ later) =
        (Token.assemble later).map (String.utf8EncodeChar c ++ ·) := by
  cases escaped with
  | letter e b control other known code =>
      refine ⟨[.octet b], fun rest => units?_letter other known, fun later => ?_⟩
      rw [code]
      exact assemble_octets [b] later
  | digits control =>
      have value : c.toNat / 16 * 16 + c.toNat % 16 = c.toNat := by omega
      have octets : Token.octetsOf c.toNat = String.utf8EncodeChar c := by
        rw [Token.octetsOf, Char.ofNat_toNat, Utf8.encode_toString]
      refine ⟨[.escaped c.toNat], fun rest => ?_, fun later => ?_⟩
      · refine (units?_digits ?_ ?_).trans ?_
        · omega
        · omega
        · rw [value]
          rfl
      · rw [List.singleton_append, assemble_escaped (by omega), octets]
  | plain all =>
      exact ⟨_, fun rest => units?_allPlain all, assemble_octets _⟩

end Parts

/-- What is written of characters between quotes is read as the text of them. -/
theorem string?_escapeOctets (cs : List Char) :
    Token.string? (cs.flatMap escapeOctets) = some (.string (some (String.ofList cs))) := by
  have parts : ∃ units, Token.units? (cs.flatMap escapeOctets) = some units ∧
      Token.assemble units = some (cs.flatMap String.utf8EncodeChar) := by
    induction cs with
    | nil => exact ⟨[], rfl, rfl⟩
    | cons c rest ih =>
        obtain ⟨later, read, denoted⟩ := ih
        obtain ⟨units, front, char⟩ := (escaped_escapeOctets c).read
        refine ⟨units ++ later, ?_, ?_⟩
        · rw [List.flatMap_cons, front, read]
          rfl
        · rw [char, denoted, List.flatMap_cons]
          rfl
  obtain ⟨units, read, denoted⟩ := parts
  rw [Token.string?, read, Option.map_some, denoted, ← Utf8.encode_ofList, Option.bind_some,
    Utf8.decode?_encode]

end Strings

end ContractHost.Json
