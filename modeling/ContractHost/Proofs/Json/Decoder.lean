/-
# What decoders accept

A decoder takes every item of an array or none, so what it accepts are the lists of what it
accepts of items. A number counts as a natural number if it is written as one, and minus zero
is not. The members of an object are taken in their order, with the texts of their keys.
-/

import ContractHost.Json.Decoder
import ContractHost.Proofs.Table
import ContractHost.Proofs.Text.Decimal
import Mathlib.Data.List.Forall2

namespace ContractHost.Json

/-- All items are decoded, or there is no result. -/
theorem mapM_eq_some_iff {α β : Type} {decode : α → Option β} {items : List α}
    {values : List β} :
    items.mapM decode = some values ↔
      List.Forall₂ (fun item value => decode item = some value) items values := by
  induction items generalizing values with
  | nil =>
      rw [List.forall₂_nil_left_iff]
      exact ⟨fun same => (Option.some.inj same).symm, fun same => congrArg some same.symm⟩
  | cons item items ih =>
      rw [List.mapM_cons, List.forall₂_cons_left_iff]
      constructor
      · intro read
        obtain ⟨value, first, read⟩ := Option.bind_eq_some_iff.1 read
        obtain ⟨others, later, same⟩ := Option.bind_eq_some_iff.1 read
        exact ⟨value, others, first, ih.1 later, (Option.some.inj same).symm⟩
      · rintro ⟨value, others, first, later, rfl⟩
        rw [first, ih.2 later]
        rfl

/-! ## Numbers -/

/-- Digits are appended to a word to the end if the word holds the number. -/
theorem takeDigits_eq_iff {n m : Nat} {ds : List Nat} (small : n < UInt64.size) :
    Number.takeDigits n ds = (m, []) ↔
      m = ds.foldl (fun n d => n * 10 + d) n ∧ m < UInt64.size := by
  induction ds generalizing n with
  | nil =>
      rw [Number.takeDigits, Prod.mk.injEq, List.foldl_nil]
      constructor
      · rintro ⟨rfl, -⟩
        exact ⟨rfl, small⟩
      · rintro ⟨rfl, -⟩
        exact ⟨rfl, rfl⟩
  | cons d ds ih =>
      rw [Number.takeDigits, List.foldl_cons]
      split
      · next fits => exact ih fits
      · next long =>
        constructor
        · rintro ⟨⟩
        · rintro ⟨rfl, less⟩
          exact absurd (Nat.lt_of_le_of_lt (Decimal.le_foldl_digits _ ds) less) long

/-- The integers are the numbers without fraction and exponent that a word can hold, with the
range of signed words below zero. Minus zero is none. -/
theorem integer?_eq_some_iff {n : Number} {i : Int} :
    n.integer? = some i ↔ n.fraction = none ∧ n.exponent = none ∧
      if n.negative then 0 < Decimal.ofDigits n.whole ∧
        2 * Decimal.ofDigits n.whole ≤ UInt64.size ∧ i = -(Decimal.ofDigits n.whole : Int)
      else Decimal.ofDigits n.whole < UInt64.size ∧ i = (Decimal.ofDigits n.whole : Int) := by
  obtain ⟨negative, whole, fraction, exponent⟩ := n
  have taken (m : Nat) : Number.takeDigits 0 whole = (m, []) ↔
      m = Decimal.ofDigits whole ∧ m < UInt64.size := takeDigits_eq_iff (by decide)
  cases fraction with
  | some digits => simp [Number.integer?]
  | none =>
    cases exponent with
    | some e => simp [Number.integer?]
    | none =>
      simp only [Number.integer?, true_and]
      split
      · next size _ _ fits =>
        obtain ⟨rfl, less⟩ := (taken _).1 fits
        cases negative with
        | false => simp [less, eq_comm]
        | true =>
            rw [if_pos rfl, if_pos rfl, ite_eq_iff]
            simp [and_assoc, eq_comm]
      · next long =>
        have long : ¬ Decimal.ofDigits whole < UInt64.size := fun less =>
          long _ rfl rfl ((taken _).2 ⟨rfl, less⟩)
        cases negative with
        | false => simp [long]
        | true =>
            rw [if_pos rfl]
            constructor
            · rintro ⟨⟩
            · rintro ⟨positive, bound, -⟩
              omega

/-- A document is a natural number: a number that is written with neither sign nor fraction nor
exponent. -/
def IsNatural (j : Json) (k : Nat) : Prop :=
  ∃ digits, j = .number { negative := false, whole := digits, fraction := none, exponent := none }
    ∧ Decimal.ofDigits digits = k

/-- The natural numbers below a bound that a word can hold are those that are written as such.
A number with a sign is negative, or else minus zero, which is none. -/
theorem naturalBelow?_eq_some_iff {bound k : Nat} {j : Json} (word : bound ≤ UInt64.size) :
    naturalBelow? bound j = some k ↔ IsNatural j k ∧ k < bound := by
  constructor
  · intro read
    obtain ⟨i, within, rfl⟩ := Option.map_eq_some_iff.1 read
    cases j with
    | number n =>
        obtain ⟨integer, range⟩ := Option.filter_eq_some_iff.1 within
        have ⟨least, most⟩ := Bool.and_eq_true_iff.1 range
        have positive := of_decide_eq_true least
        have less := of_decide_eq_true most
        obtain ⟨fraction, exponent, sign⟩ := integer?_eq_some_iff.1 integer
        obtain ⟨negative, whole, _, _⟩ := n
        cases fraction
        cases exponent
        cases negative with
        | true =>
            obtain ⟨nonzero, -, rfl⟩ := sign
            simp only at nonzero positive
            omega
        | false =>
            obtain ⟨-, rfl⟩ := sign
            exact ⟨⟨whole, rfl, rfl⟩, by simp only at less ⊢; omega⟩
    | _ => cases within
  · rintro ⟨⟨digits, rfl, rfl⟩, less⟩
    have integer : Number.integer? ⟨false, digits, none, none⟩ =
        some (Decimal.ofDigits digits : Int) :=
      integer?_eq_some_iff.2 ⟨rfl, rfl, Nat.lt_of_lt_of_le less word, rfl⟩
    have range : (decide ((0 : Int) ≤ Decimal.ofDigits digits) &&
        decide ((Decimal.ofDigits digits : Int) ≤ (bound : Int) - 1)) = true := by
      rw [Bool.and_eq_true_iff, decide_eq_true_iff, decide_eq_true_iff]
      omega
    rw [naturalBelow?, integerIn?, integer, Option.filter_some, if_pos range]
    rfl

theorem isNatural_natural (k : Nat) : IsNatural (natural k) k :=
  ⟨Decimal.digits k, rfl, Decimal.ofDigits_digits k⟩

/-! ## Octets -/

theorem octet?_eq_some_iff {j : Json} {b : UInt8} :
    (naturalBelow? 256 j).map UInt8.ofNat = some b ↔ IsNatural j b.toNat := by
  rw [Option.map_eq_some_iff]
  constructor
  · rintro ⟨k, read, rfl⟩
    obtain ⟨natural, less⟩ := (naturalBelow?_eq_some_iff (by decide)).1 read
    rw [UInt8.toNat_ofNat_of_lt' less]
    exact natural
  · intro natural
    exact ⟨b.toNat, (naturalBelow?_eq_some_iff (by decide)).2 ⟨natural, b.toNat_lt⟩,
      UInt8.ofNat_toNat⟩

/-- A byte string is an array of natural numbers that octets can hold. -/
theorem octets?_eq_some_iff {j : Json} {bytes : Bytes} :
    octets? j = some bytes ↔ ∃ items, j = .array items ∧
      List.Forall₂ (fun item b => IsNatural item b.toNat) items bytes := by
  cases j with
  | array items =>
      rw [octets?, items?, mapM_eq_some_iff]
      simp only [octet?_eq_some_iff]
      constructor
      · exact fun all => ⟨items, rfl, all⟩
      · rintro ⟨_, ⟨⟩, all⟩
        exact all
  | _ =>
      constructor
      · rintro ⟨⟩
      · rintro ⟨_, ⟨⟩, _⟩

theorem octets?_octets (bytes : Bytes) : octets? (octets bytes) = some bytes := by
  refine octets?_eq_some_iff.2 ⟨_, rfl, List.forall₂_map_left_iff.2 ?_⟩
  exact List.forall₂_same.2 fun b _ => isNatural_natural b.toNat

/-! ## Objects -/

/-- An object whose keys are texts is the record of its members. -/
theorem members?_eq_some_iff {j : Json} {members : List (String × Json)} :
    members? j = some members ↔ j = record members := by
  cases j with
  | object items =>
      rw [members?, mapM_eq_some_iff, record, object.injEq]
      constructor
      · intro all
        induction all with
        | nil => rfl
        | @cons item member _ _ named _ ih =>
            obtain ⟨key, found, rfl⟩ := Option.map_eq_some_iff.1 named
            obtain ⟨_, value⟩ := item
            cases found
            rw [List.map_cons, ih]
      · rintro rfl
        exact List.forall₂_map_left_iff.2 (List.forall₂_same.2 fun _ _ => rfl)
  | _ =>
      constructor
      · rintro ⟨⟩
      · rintro ⟨⟩

/-- A table is made from an object of which every member can be decoded. -/
theorem table?_eq_some_iff {α : Type} {decode : Json → Option α} {j : Json}
    {t : Table String α} :
    table? decode j = some t ↔ ∃ members values, j = record members ∧
      List.Forall₂ (fun member value => member.1 = value.1 ∧ decode member.2 = some value.2)
        members values ∧ t = Table.ofList values := by
  have named {member : String × Json} {value : String × α} :
      (decode member.2).map (fun content => (member.1, content)) = some value ↔
        member.1 = value.1 ∧ decode member.2 = some value.2 := by
    rw [Option.map_eq_some_iff]
    constructor
    · rintro ⟨content, read, rfl⟩
      exact ⟨rfl, read⟩
    · rintro ⟨same, read⟩
      exact ⟨value.2, read, by rw [same]⟩
  constructor
  · intro read
    obtain ⟨members, listed, read⟩ := Option.bind_eq_some_iff.1 read
    obtain ⟨values, all, made⟩ := Option.bind_eq_some_iff.1 read
    exact ⟨members, values, members?_eq_some_iff.1 listed,
      (mapM_eq_some_iff.1 all).imp fun _ _ => named.1, (Option.some.inj made).symm⟩
  · rintro ⟨members, values, rfl, all, rfl⟩
    have read := mapM_eq_some_iff.2 (all.imp fun _ _ => named.2)
    exact Option.bind_eq_some_iff.2 ⟨members, members?_eq_some_iff.2 rfl,
      Option.bind_eq_some_iff.2 ⟨values, read, rfl⟩⟩

end ContractHost.Json
