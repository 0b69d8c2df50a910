/-
# Records, written and decoded

What a document stands for is a matter of its decoder. Scalars, byte strings, lists and optional
values are each decoded from the document that is made of them, and a record is decoded field by
field from the record that lists its fields. So the documents of a type are known to be faithful
once those of its parts are, and as they are printed and read without a change, no two values are
written alike.
-/

import ContractHost.Proofs.Json.Decoder
import ContractHost.Proofs.Json.Printing
import Mathlib.Data.Set.Function

namespace ContractHost.Json

variable {α : Type} {decode : Json → Option α}

/-- A document stands for a value: the decoder makes the value of it, and printing keeps it. -/
structure StandsFor (decode : Json → Option α) (j : Json) (value : α) : Prop where
  decoded : decode j = some value
  wellFormed : WellFormed j

/-- Values survive as documents: each is decoded from the document that is made of it, also after
that was printed and read again, and no two are printed alike. -/
structure Survives (values : Set α) (write : α → Json) (decode : Json → Option α) : Prop where
  decoded : ∀ value ∈ values, decode (write value) = some value
  read : ∀ value ∈ values, (read? (print (write value))).bind decode = some value
  apart : Set.InjOn (fun value => print (write value)) values

theorem Survives.of_standsFor {values : Set α} {write : α → Json}
    (all : ∀ value ∈ values, StandsFor decode (write value) value) :
    Survives values write decode := by
  have read : ∀ value ∈ values, (read? (print (write value))).bind decode = some value := by
    intro value mem
    rw [read?_print (all value mem).wellFormed]
    exact (all value mem).decoded
  refine ⟨fun value mem => (all value mem).decoded, read, fun a here b there same => ?_⟩
  have alike : print (write a) = print (write b) := same
  apply Option.some.inj
  rw [← read a here, ← read b there, alike]

/-! ## Numbers -/

theorem Number.wellFormed_ofInt (i : Int) : (Number.ofInt i).WellFormed := by
  cases i with
  | ofNat n => exact wellFormed_ofNat n
  | negSucc n => exact ⟨isWhole_digits (n + 1), by rintro digits ⟨⟩⟩

/-- The integers that a word of either kind can hold are read as they are written. -/
theorem integer?_ofInt {i : Int} (least : -(2 ^ 63) ≤ i) (most : i < 2 ^ 64) :
    (Number.ofInt i).integer? = some i := by
  have size : UInt64.size = 2 ^ 64 := rfl
  cases i with
  | ofNat n =>
      have most : (n : Int) < 2 ^ 64 := most
      refine integer?_eq_some_iff.2 ⟨rfl, rfl, ?_⟩
      simp only [Number.ofInt, Number.ofNat, Decimal.ofDigits_digits]
      rw [if_neg Bool.false_ne_true]
      exact ⟨by omega, rfl⟩
  | negSucc n =>
      refine integer?_eq_some_iff.2 ⟨rfl, rfl, ?_⟩
      simp only [Number.ofInt, Decimal.ofDigits_digits]
      rw [if_pos trivial]
      exact ⟨by omega, by omega, by omega⟩

theorem integerIn?_integer {low high i : Int} (least : -(2 ^ 63) ≤ low) (most : high < 2 ^ 64)
    (within : low ≤ i ∧ i ≤ high) : integerIn? low high (integer i) = some i := by
  have read : (Number.ofInt i).integer? = some i := integer?_ofInt (by omega) (by omega)
  rw [integer, integerIn?, read, Option.filter_some, decide_eq_true within.1,
    decide_eq_true within.2]
  rfl

theorem naturalBelow?_natural {bound n : Nat} (word : bound ≤ UInt64.size) (below : n < bound) :
    naturalBelow? bound (natural n) = some n :=
  (naturalBelow?_eq_some_iff word).2 ⟨isNatural_natural n, below⟩

@[simp]
theorem word?_natural (w : UInt64) : word? (natural w.toNat) = some w := by
  rw [word?, naturalBelow?_natural (Nat.le_refl _) w.toNat_lt, Option.map_some, UInt64.ofNat_toNat]

@[simp]
theorem halfWord?_natural (w : UInt32) : halfWord? (natural w.toNat) = some w := by
  rw [halfWord?, naturalBelow?_natural (by decide) w.toNat_lt, Option.map_some, UInt32.ofNat_toNat]

@[simp]
theorem status?_integer (s : Int32) : status? (integer s.toInt) = some s := by
  have within := And.intro s.minValue_le_toInt s.toInt_le
  rw [status?, integerIn?_integer (by decide) (by decide) within, Option.map_some,
    Int32.ofInt_toInt]

@[simp]
theorem wellFormed_natural (n : Nat) : WellFormed (natural n) :=
  .number (Number.wellFormed_ofNat n)

@[simp]
theorem wellFormed_integer (i : Int) : WellFormed (integer i) :=
  .number (Number.wellFormed_ofInt i)

/-! ## Texts, byte strings, lists and optional values -/

@[simp]
theorem text?_text (s : String) : text? (text s) = some s := rfl

@[simp]
theorem wellFormed_text (s : String) : WellFormed (text s) := .string (some s)

attribute [simp] octets?_octets WellFormed.octets

namespace StandsFor

theorem octets (bytes : Bytes) : StandsFor octets? (.octets bytes) bytes :=
  ⟨octets?_octets bytes, .octets bytes⟩

/-- Every item stands for itself. -/
theorem items {write : α → Json} (each : ∀ value, StandsFor decode (write value) value)
    (values : List α) : StandsFor (items? decode) (.array (values.map write)) values where
  decoded := by
    refine mapM_eq_some_iff.2 (List.forall₂_map_left_iff.2 ?_)
    exact List.forall₂_same.2 fun value _ => (each value).decoded
  wellFormed := by
    refine .array fun item mem => ?_
    obtain ⟨value, -, rfl⟩ := List.mem_map.1 mem
    exact (each value).wellFormed

/-- No value is null, and what is written of a value is never null. -/
theorem option {write : α → Json} (each : ∀ value, StandsFor decode (write value) value)
    (given : ∀ value, write value ≠ .null) (value? : Option α) :
    StandsFor (nullable? decode) (.option (value?.map write)) value? := by
  cases value? with
  | none => exact ⟨rfl, .null⟩
  | some value =>
      refine ⟨?_, (each value).wellFormed⟩
      rw [Option.map_some, Json.option, nullable?]
      · rw [(each value).decoded, Option.map_some]
      · exact given value

end StandsFor

/-! ## Records -/

theorem wellFormed_record_iff {fields : List (String × Json)} :
    WellFormed (.record fields) ↔ ∀ field ∈ fields, WellFormed field.2 := by
  constructor
  · rintro (_ | _ | _ | _ | _ | all) field mem
    exact all _ (List.mem_map_of_mem mem)
  · intro all
    refine .object fun member mem => ?_
    obtain ⟨field, inside, rfl⟩ := List.mem_map.1 mem
    exact all field inside

namespace Fields

variable {names : List String} {fields members : List (String × Json)} {name : String}

/-- A record gives the fields of the type that it has, if it has none of them twice. -/
theorem ofJson?_record_eq_some_iff {given : Fields} :
    ofJson? names (record members) = some given ↔
      ((members.filter fun field => names.contains field.1).map (·.1)).Nodup ∧
        given = .named (members.filter fun field => names.contains field.1) := by
  have listed : members? (record members) = some members := members?_eq_some_iff.2 rfl
  have read : ofJson? names (record members) =
      (members? (record members)).bind fun members =>
        let known := members.filter fun field => names.contains field.1
        if (known.map (·.1)).Nodup then some (.named known) else none := rfl
  rw [read, listed, Option.bind_some, Option.ite_none_right_eq_some, Option.some.injEq]
  exact and_congr_right fun _ => eq_comm

/-- A record that lists fields of the type, each once, gives just these. -/
theorem ofJson?_record (known : ∀ field ∈ fields, field.1 ∈ names)
    (distinct : (fields.map (·.1)).Nodup) :
    ofJson? names (record fields) = some (.named fields) := by
  have all : fields.filter (fun field => names.contains field.1) = fields :=
    List.filter_eq_self.2 fun field mem => List.contains_iff_mem.2 (known field mem)
  refine ofJson?_record_eq_some_iff.2 ⟨?_, ?_⟩
  · rw [all]
    exact distinct
  · rw [all]

section Named

variable {β : Type} {first : String} {j : Json} (decode : Json → Option β)

theorem get?_cons_self : (named ((name, j) :: fields)).get? name = some j :=
  List.lookup_cons_self

theorem get?_cons_of_ne (other : name ≠ first) :
    (named ((first, j) :: fields)).get? name = (named fields).get? name := by
  rw [get?, List.lookup_cons, beq_false_of_ne other, get?]

@[simp]
theorem required_cons_self : (named ((name, j) :: fields)).required name decode = decode j := by
  rw [required, get?_cons_self, Option.bind_some]

@[simp]
theorem required_cons_of_ne (other : name ≠ first) :
    (named ((first, j) :: fields)).required name decode =
      (named fields).required name decode := by
  rw [required, get?_cons_of_ne other, required]

@[simp]
theorem optional_cons_self :
    (named ((name, j) :: fields)).optional name decode = nullable? decode j := by
  simp only [optional, get?_cons_self]

@[simp]
theorem optional_cons_of_ne (other : name ≠ first) :
    (named ((first, j) :: fields)).optional name decode =
      (named fields).optional name decode := by
  simp only [optional, get?_cons_of_ne other]
  cases (named fields).get? name <;> rfl

@[simp]
theorem defaulted_cons_self (default : β) :
    (named ((name, j) :: fields)).defaulted name default decode = decode j := by
  simp only [defaulted, get?_cons_self]

@[simp]
theorem defaulted_cons_of_ne (other : name ≠ first) (default : β) :
    (named ((first, j) :: fields)).defaulted name default decode =
      (named fields).defaulted name default decode := by
  simp only [defaulted, get?_cons_of_ne other]

end Named

/-! ### Leaving fields out -/

/-- What is found among the fields that are kept is what was found among all. -/
theorem lookup_filter (keep : String → Bool) (members : List (String × Json)) (name : String) :
    (members.filter fun field => keep field.1).lookup name =
      if keep name then members.lookup name else none := by
  induction members with
  | nil => simp
  | cons member members ih =>
      obtain ⟨key, value⟩ := member
      by_cases same : name = key
      · subst same
        cases kept : keep name with
        | true => simp [kept]
        | false => simpa [kept] using ih
      · have apart : (name == key) = false := beq_false_of_ne same
        cases kept : keep key with
        | true => simp [kept, List.lookup_cons, apart, ih]
        | false => simp [kept, List.lookup_cons, apart, ih]

/-- A record from which fields were left out gives those that were kept. -/
theorem get?_of_kept (keep : String → Bool) {given : Fields}
    (whole : ofJson? names (record members) = some given) :
    ∃ kept, ofJson? names (record (members.filter fun field => keep field.1)) = some kept ∧
      ∀ name, kept.get? name = if keep name then given.get? name else none := by
  obtain ⟨distinct, rfl⟩ := ofJson?_record_eq_some_iff.1 whole
  have swap : (members.filter fun field => keep field.1).filter
      (fun field => names.contains field.1) =
      (members.filter fun field => names.contains field.1).filter fun field => keep field.1 :=
    List.filter_comm ..
  refine ⟨_, ofJson?_record_eq_some_iff.2 ⟨?_, rfl⟩, fun name => ?_⟩
  · rw [swap]
    exact distinct.sublist (List.filter_sublist.map _)
  · rw [swap]
    exact lookup_filter keep _ name

/-- A field that was left out takes its default. -/
theorem defaulted_of_kept {β : Type} {keep : String → Bool} {given kept : Fields}
    {decode : Json → Option β} {default value : β}
    (found : ∀ name, kept.get? name = if keep name then given.get? name else none)
    (decoded : given.defaulted name default decode = some value) :
    kept.defaulted name default decode = some (if keep name then value else default) := by
  rw [defaulted, found]
  cases keep name with
  | true => exact decoded
  | false => rfl

end Fields

/-! ## Alternatives -/

@[simp]
theorem choice?_text (name : String) : choice? (text name) = some (name, none) := rfl

@[simp]
theorem choice?_record (name : String) (j : Json) :
    choice? (record [(name, j)]) = some (name, some j) := rfl

theorem WellFormed.choice {name : String} {j : Json} (wellFormed : WellFormed j) :
    WellFormed (.record [(name, j)]) :=
  wellFormed_record_iff.2 (by simp [wellFormed])

end ContractHost.Json
