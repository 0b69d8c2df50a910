/-
# Call arguments in their order

What a program learns of its arguments is a list without repetitions, in strictly ascending
order of the keys. There is only one such list for given arguments, so it does not matter in
which order they were collected or given. And because the list ascends, a search by halves
finds every argument.
-/

import ContractHost.Message
import ContractHost.Proofs.Table

namespace ContractHost

/-- The value of the last pair with a key. -/
def ArgPair.last? (key : String) (pairs : List ArgPair) : Option Bytes :=
  ((pairs.filter fun pair => pair.key = key).getLast?).map (·.value)

/-- Of pairs that a program gives, the last one of a key counts. -/
theorem Arguments.get?_ofPairs (pairs : List ArgPair) (key : String) :
    (ofPairs pairs).get? key = ArgPair.last? key pairs := by
  rw [ofPairs, Table.get?_ofList]
  unfold lastValue? ArgPair.last?
  rw [List.filter_map, List.getLast?_map, Option.map_map]
  rfl

/-- Pairs that agree on the last value of every key give the same arguments. -/
theorem Arguments.ofPairs_eq {pairs pairs' : List ArgPair}
    (agree : ∀ key, ArgPair.last? key pairs = ArgPair.last? key pairs') :
    ofPairs pairs = ofPairs pairs' :=
  Table.eq_of_get? fun key => by rw [get?_ofPairs, get?_ofPairs, agree]

namespace CallArgs

/-- Pairs stand in strictly ascending order of the octets of their keys. -/
def Ascending (pairs : List ArgPair) : Prop :=
  pairs.Pairwise fun a b => Utf8.encode a.key < Utf8.encode b.key

variable {pairs listed : List ArgPair} {key : String} {value : Bytes}

/-! ## The only order -/

/-- No two pairs have the same key. -/
theorem Ascending.eq_of_key (ascending : Ascending pairs) {a b : ArgPair} (mem : a ∈ pairs)
    (mem' : b ∈ pairs) (same : Utf8.encode a.key = Utf8.encode b.key) : a = b := by
  induction pairs with
  | nil => cases mem
  | cons pair rest ih =>
      obtain ⟨above, ascending⟩ := List.pairwise_cons.1 ascending
      rcases List.mem_cons.1 mem with here | inside <;>
        rcases List.mem_cons.1 mem' with here' | inside'
      · rw [here, here']
      · exact absurd (same ▸ here ▸ above b inside') (List.lt_irrefl _)
      · exact absurd (same ▸ here' ▸ above a inside) (List.lt_irrefl _)
      · exact ih ascending inside inside'

/-- Of pairs with different keys, sorting makes the list of the same pairs that ascends. -/
theorem sortByKey_eq (perm : pairs.Perm listed) (ascending : Ascending listed) :
    sortByKey pairs = listed := by
  have sorted : (sortByKey pairs).Pairwise fun a b => Utf8.encode a.key ≤ Utf8.encode b.key := by
    apply (List.pairwise_mergeSort _ _ pairs).imp
    · exact fun le => of_decide_eq_true le
    · intro a b c first second
      exact decide_eq_true (List.le_trans (of_decide_eq_true first) (of_decide_eq_true second))
    · intro a b
      rw [Bool.or_eq_true, decide_eq_true_iff, decide_eq_true_iff]
      exact List.le_total _ _
  apply ((List.mergeSort_perm pairs _).trans perm).eq_of_pairwise _ sorted
    (ascending.imp fun less => List.le_of_lt less)
  intro a b mem mem' le ge
  exact ascending.eq_of_key (perm.subset (List.mem_mergeSort.1 mem)) mem' (List.le_antisymm le ge)

/-! ## Search -/

/-- What has the lesser key stands first. -/
theorem Ascending.place_lt (ascending : Ascending pairs) {i j : Nat} {a b : ArgPair}
    (first : pairs[i]? = some a) (second : pairs[j]? = some b)
    (less : Utf8.encode a.key < Utf8.encode b.key) : i < j := by
  obtain ⟨inside, rfl⟩ := List.getElem?_eq_some_iff.1 first
  obtain ⟨inside', rfl⟩ := List.getElem?_eq_some_iff.1 second
  rcases Nat.lt_trichotomy i j with before | rfl | after
  · exact before
  · exact absurd less (List.lt_irrefl _)
  · have more := List.pairwise_iff_getElem.1 ascending j i inside' inside after
    exact absurd (List.lt_trans less more) (List.lt_irrefl _)

/-- One look of the search, at a pair in the middle. -/
theorem search?_eq {low high : Nat} {pair : ArgPair} (less : low < high)
    (found : pairs[(low + high) / 2]? = some pair) :
    search? pairs key low high =
      if pair.key = key then some pair.value
      else if ByteKey.bytes pair.key < ByteKey.bytes key then
        search? pairs key ((low + high) / 2 + 1) high
      else search? pairs key low ((low + high) / 2) := by
  rw [search?, if_pos less]
  simp only [found]

/-- The search finds what stands in a stretch of pairs that ascend. -/
theorem search?_eq_some_iff (ascending : Ascending pairs) {low high : Nat}
    (bound : high ≤ pairs.length) :
    search? pairs key low high = some value ↔
      ∃ i, low ≤ i ∧ i < high ∧ pairs[i]? = some ⟨key, value⟩ := by
  induction low, high using search?.induct pairs key with
  | case1 low high less middle outside =>
      have : pairs.length ≤ (low + high) / 2 := List.getElem?_eq_none_iff.1 outside
      omega
  | case2 low high less middle pair found same =>
      rw [search?_eq less found, if_pos same, Option.some.injEq]
      constructor
      · rintro rfl
        refine ⟨(low + high) / 2, by omega, by omega, ?_⟩
        rw [← same]
        exact found
      · rintro ⟨i, -, -, here⟩
        have same := ascending.eq_of_key (List.mem_of_getElem? found)
          (List.mem_of_getElem? here) (by rw [same])
        rw [same]
  | case3 low high less middle pair found other below ih =>
      rw [search?_eq less found, if_neg other, if_pos below, ih bound]
      constructor
      · rintro ⟨i, above, under, here⟩
        exact ⟨i, by omega, under, here⟩
      · rintro ⟨i, -, under, here⟩
        exact ⟨i, ascending.place_lt found here below, under, here⟩
  | case4 low high less middle pair found other notBelow ih =>
      have above : Utf8.encode key < Utf8.encode pair.key := by
        rcases List.le_iff_lt_or_eq.1 (List.not_lt.1 notBelow) with above | same
        · exact above
        · exact absurd (ByteKey.bytes_injective same.symm) other
      rw [search?_eq less found, if_neg other, if_neg notBelow, ih (by omega)]
      constructor
      · rintro ⟨i, above, under, here⟩
        exact ⟨i, above, by omega, here⟩
      · rintro ⟨i, low_le, -, here⟩
        exact ⟨i, low_le, ascending.place_lt here found above, here⟩
  | case5 low high notLess =>
      rw [search?, if_neg notLess]
      simp only [reduceCtorEq, false_iff]
      rintro ⟨i, above, under, -⟩
      omega

/-- Of arguments that ascend, a lookup finds what is listed. -/
theorem get?_eq_some_iff {call : CallArgs} (ascending : Ascending call.args) :
    call.get? key = some value ↔ ⟨key, value⟩ ∈ call.args := by
  rw [get?, search?_eq_some_iff ascending (Nat.le_refl _), List.mem_iff_getElem?]
  constructor
  · rintro ⟨i, -, -, here⟩
    exact ⟨i, here⟩
  · rintro ⟨i, here⟩
    exact ⟨i, Nat.zero_le i, (List.getElem?_eq_some_iff.1 here).1, here⟩

/-! ## The arguments of a call -/

section OfEntries

variable (method : String) (args : Arguments) (caller : String)

/-- The entries of given arguments in the order of the table that they are kept in. -/
theorem ascending_entries :
    Ascending (args.entries.map fun (key, value) => ⟨key, value⟩) :=
  List.pairwise_map.2 args.ascending

/-- In whatever order the entries of arguments come, a call is told the same. -/
theorem ofEntries_perm {entries : List (String × Bytes)} (perm : entries.Perm args.entries) :
    ofEntries method entries caller = ofArguments method args caller := by
  have sorted := sortByKey_eq (perm.map fun (key, value) => ArgPair.mk key value)
    (ascending_entries args)
  have sorted' := sortByKey_eq (.refl _) (ascending_entries args)
  rw [ofArguments, ofEntries, ofEntries, sorted, sorted']

theorem args_ofArguments :
    (ofArguments method args caller).args = args.entries.map fun (key, value) => ⟨key, value⟩ :=
  sortByKey_eq (.refl _) (ascending_entries args)

theorem ascending_ofArguments : Ascending (ofArguments method args caller).args := by
  rw [args_ofArguments]
  exact ascending_entries args

theorem mem_ofArguments :
    ⟨key, value⟩ ∈ (ofArguments method args caller).args ↔ args.get? key = some value := by
  rw [args_ofArguments, Table.get?_eq_some_iff]
  constructor
  · intro mem
    obtain ⟨⟨other, content⟩, inside, same⟩ := List.mem_map.1 mem
    cases same
    exact inside
  · exact fun inside => List.mem_map.2 ⟨_, inside, rfl⟩

/-- Looking an argument up is looking it up among the arguments that the call was made with. -/
theorem get?_ofArguments (key : String) :
    (ofArguments method args caller).get? key = args.get? key := by
  refine Option.ext fun value => ?_
  rw [get?_eq_some_iff (ascending_ofArguments method args caller)]
  exact mem_ofArguments method args caller

end OfEntries

end CallArgs

end ContractHost
