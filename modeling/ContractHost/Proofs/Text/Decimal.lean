/-
# Decimal numbers, printed and read

A number has many spellings: leading zeros and a plus sign may stand before its digits. Reading
accepts all spellings of the numbers below a bound, and nothing else. Printing gives one of
them, the one without anything in front, so a number that is printed and read again is the same.
-/

import ContractHost.Text.Blank
import ContractHost.Text.Decimal
import Mathlib.Data.List.Induction
import Mathlib.Data.List.TakeWhile
import Mathlib.Data.Nat.Digits.Defs

namespace ContractHost.Decimal

/-- Characters spell a number: its decimal digits, most significant first, after any number of
zeros, and after at most one plus sign. -/
def Spells (cs : List Char) (n : Nat) : Prop :=
  ∃ sign ds, (sign = [] ∨ sign = ['+']) ∧ ds ≠ [] ∧ (∀ d ∈ ds, d < 10) ∧
    cs = sign ++ ds.map digitChar ∧ n = Nat.ofDigits 10 ds.reverse

/-! ## Digits -/

theorem digitValue?_digitChar {d : Nat} (digit : d < 10) : digitValue? (digitChar d) = some d := by
  have all : ∀ d < 10, digitValue? (digitChar d) = some d := by decide
  exact all d digit

/-- Only the ten digits have a value. -/
theorem eq_digitChar_of_digitValue? {c : Char} {d : Nat} (value : digitValue? c = some d) :
    d < 10 ∧ c = digitChar d := by
  unfold digitValue? at value
  split at value
  · next range =>
    cases value
    have low : '0'.toNat ≤ c.toNat := range.1
    have high : c.toNat ≤ '9'.toNat := range.2
    refine ⟨?_, ?_⟩
    · have ten : '9'.toNat = '0'.toNat + 9 := rfl
      omega
    · rw [digitChar, Nat.add_sub_cancel' low, Char.ofNat_toNat]
  · cases value

theorem digitChar_ne_plus {d : Nat} (digit : d < 10) : digitChar d ≠ '+' := by
  have all : ∀ d < 10, digitChar d ≠ '+' := by decide
  exact all d digit

theorem isBlank_digitChar {d : Nat} (digit : d < 10) : Blank.isBlank (digitChar d) = false := by
  have all : ∀ d < 10, Blank.isBlank (digitChar d) = false := by decide
  exact all d digit

/-- One more digit at the end is one more step of the fold. -/
theorem ofDigits_append (ds : List Nat) (d : Nat) :
    ofDigits (ds ++ [d]) = ofDigits ds * 10 + d := by
  rw [ofDigits, List.foldl_append]
  rfl

theorem ofDigits_eq (ds : List Nat) : ofDigits ds = Nat.ofDigits 10 ds.reverse := by
  induction ds using List.reverseRecOn with
  | nil => rfl
  | append_singleton ds d ih =>
      rw [ofDigits_append, ih, List.reverse_append, List.reverse_singleton, List.singleton_append,
        Nat.ofDigits_cons]
      omega

theorem digits_ne_nil (n : Nat) : digits n ≠ [] := by
  rw [digits]
  split <;> simp

theorem lt_of_mem_digits {n d : Nat} (mem : d ∈ digits n) : d < 10 := by
  induction n using digits.induct with
  | case1 n small =>
      rw [digits, if_pos small, List.mem_singleton] at mem
      omega
  | case2 n large ih =>
      rw [digits, if_neg large] at mem
      rcases List.mem_append.1 mem with mem | mem
      · exact ih mem
      · rw [List.mem_singleton] at mem
        omega

/-- The digits of a number denote it. -/
theorem ofDigits_digits (n : Nat) : ofDigits (digits n) = n := by
  induction n using digits.induct with
  | case1 n small =>
      rw [digits, if_pos small]
      exact Nat.zero_add n
  | case2 n large ih =>
      rw [digits, if_neg large, ofDigits_append, ih]
      omega

/-- The first digit of a number is no zero, unless the number is. -/
theorem head_digits {n : Nat} (positive : 0 < n) :
    ∃ d rest, digits n = d :: rest ∧ d ≠ 0 := by
  induction n using digits.induct with
  | case1 n small =>
      refine ⟨n, [], ?_, Nat.ne_of_gt positive⟩
      rw [digits, if_pos small]
  | case2 n large ih =>
      obtain ⟨d, rest, shape, nonzero⟩ := ih (by omega)
      refine ⟨d, rest ++ [n % 10], ?_, nonzero⟩
      rw [digits, if_neg large, shape, List.cons_append]

/-! ## Reading -/

/-- What digits add to a number that was read so far. -/
theorem foldl_digits (n : Nat) (ds : List Nat) :
    ds.foldl (fun n d => n * 10 + d) n = n * 10 ^ ds.length + ofDigits ds := by
  induction ds using List.reverseRecOn with
  | nil => simp [ofDigits]
  | append_singleton ds d ih =>
      rw [List.foldl_append, ih, ofDigits_append, List.length_append, List.length_singleton,
        Nat.pow_succ, List.foldl_cons, List.foldl_nil, ← Nat.mul_assoc, Nat.add_mul]
      omega

theorem le_foldl_digits (n : Nat) (ds : List Nat) :
    n ≤ ds.foldl (fun n d => n * 10 + d) n := by
  rw [foldl_digits]
  exact Nat.le_add_right_of_le (Nat.le_mul_of_pos_right n (Nat.pow_pos (by decide)))

/-- Digits are read to the end if the number stays below the bound. Numbers only grow on the
way, so it is enough to look at the last one. -/
theorem readDigits?_eq_some_iff {bound n m : Nat} (small : n < bound) (cs : List Char) :
    readDigits? bound n cs = some m ↔
      ∃ ds : List Nat, (∀ d ∈ ds, d < 10) ∧ cs = ds.map digitChar ∧
        m = ds.foldl (fun n d => n * 10 + d) n ∧ m < bound := by
  induction cs generalizing n with
  | nil =>
      rw [readDigits?]
      constructor
      · rintro ⟨⟩
        exact ⟨[], by simp, rfl, rfl, small⟩
      · rintro ⟨ds, -, none, rfl, -⟩
        rw [List.map_eq_nil_iff.1 none.symm]
        rfl
  | cons c rest ih =>
      rw [readDigits?]
      constructor
      · intro read
        obtain ⟨d, value, read'⟩ := Option.bind_eq_some_iff.1 read
        clear read
        obtain ⟨digit, rfl⟩ := eq_digitChar_of_digitValue? value
        split at read'
        · next below =>
          obtain ⟨ds, digits, rfl, rfl, less⟩ := (ih below).1 read'
          exact ⟨d :: ds, List.forall_mem_cons.2 ⟨digit, digits⟩, rfl, rfl, less⟩
        · cases read'
      · rintro ⟨ds, digits, spelled, rfl, less⟩
        obtain ⟨d, ds, rfl, rfl, rfl⟩ := List.map_eq_cons_iff.1 spelled.symm
        obtain ⟨digit, digits⟩ := List.forall_mem_cons.1 digits
        have below : n * 10 + d < bound := Nat.lt_of_le_of_lt (le_foldl_digits _ ds) less
        show ((digitValue? (digitChar d)).bind fun d =>
          if n * 10 + d < bound then readDigits? bound (n * 10 + d) (ds.map digitChar)
          else none) = _
        rw [digitValue?_digitChar digit, Option.bind_some, if_pos below]
        exact (ih below).2 ⟨ds, digits, rfl, rfl, less⟩

/-- Digits without a sign are read to the end if they denote a number below the bound. -/
theorem readUnsigned_eq_some_iff {bound n : Nat} (positive : 0 < bound) (cs : List Char) :
    (if cs.isEmpty then none else readDigits? bound 0 cs) = some n ↔
      ∃ ds : List Nat, ds ≠ [] ∧ (∀ d ∈ ds, d < 10) ∧ cs = ds.map digitChar ∧
        n = Nat.ofDigits 10 ds.reverse ∧ n < bound := by
  cases cs with
  | nil =>
      constructor
      · rintro ⟨⟩
      · rintro ⟨ds, some, -, none, -⟩
        exact absurd (List.map_eq_nil_iff.1 none.symm) some
  | cons c rest =>
      rw [List.isEmpty_cons, if_neg Bool.false_ne_true, readDigits?_eq_some_iff positive]
      constructor
      · rintro ⟨ds, digits, spelled, rfl, less⟩
        refine ⟨ds, ?_, digits, spelled, ofDigits_eq ds, less⟩
        rintro rfl
        cases spelled
      · rintro ⟨ds, -, digits, spelled, rfl, less⟩
        exact ⟨ds, digits, spelled, (ofDigits_eq ds).symm, less⟩

/-- Reading accepts the spellings of the numbers below the bound. -/
theorem read?_eq_some_iff {bound n : Nat} (positive : 0 < bound) {cs : List Char} :
    read? bound cs = some n ↔ Spells cs n ∧ n < bound := by
  unfold read?
  rw [readUnsigned_eq_some_iff positive]
  constructor
  · rintro ⟨ds, some, digits, spelled, value, less⟩
    refine ⟨?_, less⟩
    split at spelled
    · exact ⟨['+'], ds, .inr rfl, some, digits, by rw [spelled]; rfl, value⟩
    · exact ⟨[], ds, .inl rfl, some, digits, spelled, value⟩
  · rintro ⟨⟨sign, ds, signed, some, digits, rfl, value⟩, less⟩
    refine ⟨ds, some, digits, ?_, value, less⟩
    rcases signed with rfl | rfl
    · obtain ⟨d, rest, rfl⟩ := List.exists_cons_of_ne_nil some
      have plain := digitChar_ne_plus (digits d List.mem_cons_self)
      rw [List.nil_append, List.map_cons]
      split
      · next same => exact absurd (List.cons.inj same).1 plain
      · rfl
    · rfl

/-! ## Printing -/

theorem toList_print (n : Nat) : (print n).toList = (digits n).map digitChar :=
  String.toList_ofList

/-- What is printed spells the number. -/
theorem spells_print (n : Nat) : Spells (print n).toList n := by
  refine ⟨[], digits n, .inl rfl, digits_ne_nil n, fun d mem => lt_of_mem_digits mem,
    toList_print n, ?_⟩
  rw [← ofDigits_eq, ofDigits_digits]

/-- No spelling has blanks in it, and none is empty. -/
theorem Spells.unblank {cs : List Char} {n : Nat} (spells : Spells cs n) :
    cs ≠ [] ∧ ∀ c ∈ cs, Blank.isBlank c = false := by
  obtain ⟨sign, ds, signed, some, digits, rfl, -⟩ := spells
  constructor
  · intro none
    exact some (List.map_eq_nil_iff.1 (List.append_eq_nil_iff.1 none).2)
  · intro c mem
    rcases List.mem_append.1 mem with mem | mem
    · rcases signed with rfl | rfl
      · cases mem
      · rw [List.mem_singleton.1 mem]
        decide
    · obtain ⟨d, inside, rfl⟩ := List.mem_map.1 mem
      exact isBlank_digitChar (digits d inside)

end ContractHost.Decimal

namespace ContractHost.Blank

/-- Trimming takes blanks away, from both ends. -/
theorem exists_eq_append_trim (cs : List Char) :
    ∃ front back, cs = front ++ trim cs ++ back ∧ ∀ c ∈ front ++ back, isBlank c := by
  let rest := cs.dropWhile isBlank
  refine ⟨cs.takeWhile isBlank, (rest.reverse.takeWhile isBlank).reverse, ?_, ?_⟩
  · have inner : rest = trim cs ++ (rest.reverse.takeWhile isBlank).reverse := by
      rw [trim, ← List.reverse_append, List.takeWhile_append_dropWhile, List.reverse_reverse]
    rw [List.append_assoc, ← inner]
    exact List.takeWhile_append_dropWhile.symm
  · intro c mem
    rcases List.mem_append.1 mem with mem | mem
    · exact List.mem_takeWhile_imp mem
    · exact List.mem_takeWhile_imp (List.mem_reverse.1 mem)

theorem dropWhile_blanks {front rest : List Char} (blank : ∀ c ∈ front, isBlank c)
    (some : rest ≠ []) (plain : ∀ c ∈ rest.head?, isBlank c = false) :
    (front ++ rest).dropWhile isBlank = rest := by
  rw [List.dropWhile_append_of_pos blank]
  cases rest with
  | nil => exact absurd rfl some
  | cons c rest =>
      have here : isBlank c = false := plain c rfl
      rw [List.dropWhile_cons_of_neg (by simp [here])]

/-- Blanks around a text without any are all that trimming takes away. -/
theorem trim_append {front middle back : List Char} (blank : ∀ c ∈ front ++ back, isBlank c)
    (some : middle ≠ []) (plain : ∀ c ∈ middle, isBlank c = false) :
    trim (front ++ middle ++ back) = middle := by
  have before : ∀ c ∈ front, isBlank c := fun c mem => blank c (List.mem_append_left _ mem)
  have behind : ∀ c ∈ back.reverse, isBlank c := fun c mem =>
    blank c (List.mem_append_right _ (List.mem_reverse.1 mem))
  have first : (front ++ (middle ++ back)).dropWhile isBlank = middle ++ back := by
    apply dropWhile_blanks before
    · exact fun none => some (List.append_eq_nil_iff.1 none).1
    · intro c mem
      obtain ⟨d, rest, rfl⟩ := List.exists_cons_of_ne_nil some
      cases mem
      exact plain c List.mem_cons_self
  have last : (back.reverse ++ middle.reverse).dropWhile isBlank = middle.reverse := by
    apply dropWhile_blanks behind
    · exact fun none => some (List.reverse_eq_nil_iff.1 none)
    · intro c mem
      exact plain c (List.mem_reverse.1 (List.mem_of_mem_head? mem))
  rw [trim, List.append_assoc, first, List.reverse_append, last, List.reverse_reverse]

end ContractHost.Blank
