/-
# Keys that never meet

The keys of code and of descriptions start with an octet that no contract name starts
with, and differ from each other in the next one. So no data of a contract is ever
written where code or a description is kept.

No contract name contains the dash that ends it in the keys of data. So a key of data tells
its contract, whatever follows the dash, and no two contracts have a key in common.
-/

import ContractHost.Naming

namespace ContractHost

namespace StoreKey

theorem code_injective {contract other : String} (same : code contract = code other) :
    contract = other :=
  Utf8.encode_injective (List.append_cancel_left same)

theorem description_ne_code (contract other : String) : description contract ≠ code other := by
  intro same
  have marks : descriptionMark = codeMark := List.append_inj_left same (by decide)
  exact absurd marks (by decide)

theorem description_injective {contract other : String}
    (same : description contract = description other) : contract = other :=
  Utf8.encode_injective (List.append_cancel_left same)

theorem isName_of_validate {contract : String} (valid : Naming.validate contract = .ok ()) :
    Naming.isName (Utf8.encode contract) = true := by
  unfold Naming.validate at valid
  split at valid
  · assumption
  · cases valid

/-- No valid name starts with the octet that code starts with. -/
theorem head?_object_ne {contract : String} (valid : Naming.validate contract = .ok ())
    (key : Bytes) : (object contract key).head? ≠ some 0x00 := by
  have named := isName_of_validate valid
  unfold object
  cases octets : Utf8.encode contract with
  | nil =>
      rw [octets] at named
      cases named
  | cons octet rest =>
      have opening : Naming.canOpen octet = true := by
        simp only [Naming.isName, octets, Bool.and_eq_true, List.head?_cons, Option.any_some]
          at named
        exact named.1.1.2
      intro starts
      have zero : octet = 0x00 := Option.some.inj starts
      rw [zero] at opening
      revert opening
      decide

theorem object_ne_code {contract : String} (valid : Naming.validate contract = .ok ())
    (key : Bytes) (other : String) : object contract key ≠ code other :=
  fun same => head?_object_ne valid key (congrArg List.head? same)

theorem object_ne_description {contract : String} (valid : Naming.validate contract = .ok ())
    (key : Bytes) (other : String) : object contract key ≠ description other :=
  fun same => head?_object_ne valid key (congrArg List.head? same)

/-- A name may hold no dash at either end, and none between. -/
theorem dash_notMem_of_isName {octets : Bytes} (named : Naming.isName octets = true) :
    Naming.dash ∉ octets := by
  simp only [Naming.isName, Bool.and_eq_true, List.all_eq_true] at named
  obtain ⟨⟨⟨_, opening⟩, closing⟩, inside⟩ := named
  cases octets with
  | nil => exact List.not_mem_nil
  | cons first rest =>
      have notFirst : Naming.dash ≠ first := by
        rintro rfl
        revert opening
        simp only [List.head?_cons, Option.any_some]
        decide
      refine List.not_mem_cons_of_ne_of_not_mem notFirst fun mem => ?_
      have filled : rest ≠ [] := List.ne_nil_of_mem mem
      rw [← List.dropLast_concat_getLast filled] at mem
      rcases List.mem_append.1 mem with mem | mem
      · have standing := inside _ mem
        revert standing
        decide
      · rw [List.getLast?_cons, List.getLast?_eq_some_getLast filled, ← List.mem_singleton.1 mem]
          at closing
        revert closing
        simp only [Option.getD_some, Option.any_some]
        decide

/-- A key of data tells its contract. -/
theorem object_injective {contract other : String} (valid : Naming.validate contract = .ok ())
    (valid' : Naming.validate other = .ok ()) {key key' : Bytes}
    (same : object contract key = object other key') : contract = other ∧ key = key' := by
  have undashed := dash_notMem_of_isName (isName_of_validate valid)
  have undashed' := dash_notMem_of_isName (isName_of_validate valid')
  unfold object at same
  -- if one name were longer, the dash after the other one would be in it
  rcases List.append_eq_append_iff.1 same with ⟨more, longer, rest⟩ | ⟨more, longer, rest⟩
  · cases more with
    | nil =>
        rw [List.append_nil] at longer
        exact ⟨(Utf8.encode_injective longer).symm, (List.cons.inj rest).2⟩
    | cons octet more =>
        rw [longer, ← (List.cons.inj rest).1] at undashed'
        exact absurd (List.mem_append_right _ List.mem_cons_self) undashed'
  · cases more with
    | nil =>
        rw [List.append_nil] at longer
        exact ⟨Utf8.encode_injective longer, (List.cons.inj rest).2.symm⟩
    | cons octet more =>
        rw [longer, ← (List.cons.inj rest).1] at undashed
        exact absurd (List.mem_append_right _ List.mem_cons_self) undashed

/-! ## The keys of a contract -/

/-- The keys of a contract: those of its code, of its description and of its data. -/
def IsOf (contract : String) (key : Bytes) : Prop :=
  key = code contract ∨ key = description contract ∨ ∃ rest, key = object contract rest

section Others

variable {contract other : String} (valid : Naming.validate contract = .ok ())
  (apart : other ≠ contract)

include valid apart

/-- The keys of one contract are none of another. -/
theorem not_isOf_code : ¬ IsOf contract (code other) := by
  rintro (same | same | ⟨rest, same⟩)
  · exact apart (code_injective same)
  · exact description_ne_code contract other same.symm
  · exact object_ne_code valid rest other same.symm

theorem not_isOf_description : ¬ IsOf contract (description other) := by
  rintro (same | same | ⟨rest, same⟩)
  · exact description_ne_code other contract same
  · exact apart (description_injective same)
  · exact object_ne_description valid rest other same.symm

theorem not_isOf_object (valid' : Naming.validate other = .ok ()) (key : Bytes) :
    ¬ IsOf contract (object other key) := by
  rintro (same | same | ⟨rest, same⟩)
  · exact object_ne_code valid' key contract same
  · exact object_ne_description valid' key contract same
  · exact apart (object_injective valid' valid same).1

end Others

end StoreKey

end ContractHost
