/-
# Arguments as documents

The arguments of a call come as a document: an object whose members are texts or lists of octets.
No other documents are accepted, and the last member of a key counts. So every way to write given
arguments down is read as these arguments: the members may come in any order, and a value may be
given by its text if it has one.
-/

import ContractHost.Request
import ContractHost.Proofs.Json.Printing
import ContractHost.Proofs.Json.Decoder

namespace ContractHost

/-- A document gives the value of an argument: a string gives the octets of its text, and an
array of natural numbers gives the octets that they are. -/
inductive Json.GivesArgument : Json → Bytes → Prop
  | text (s : String) : GivesArgument (.text s) (Utf8.encode s)
  | octets {items : List Json} {bytes : Bytes}
    (all : List.Forall₂ (fun item b => IsNatural item b.toNat) items bytes) :
    GivesArgument (.array items) bytes

/-- Members of an object give named values. -/
def Json.GiveArguments (members : List (String × Json)) (values : List (String × Bytes)) : Prop :=
  List.Forall₂ (fun member value => member.1 = value.1 ∧ member.2.GivesArgument value.2)
    members values

theorem Json.GiveArguments.keys {members : List (String × Json)}
    {values : List (String × Bytes)} (give : GiveArguments members values) :
    values.map (·.1) = members.map (·.1) := by
  induction give with
  | nil => rfl
  | cons first _ ih => rw [List.map_cons, List.map_cons, ih, first.1]

/-- Members that all give something give values together. -/
theorem Json.exists_giveArguments_iff {members : List (String × Json)} :
    (∃ values, GiveArguments members values) ↔
      ∀ member ∈ members, ∃ bytes, member.2.GivesArgument bytes := by
  induction members with
  | nil => exact ⟨fun _ => by simp, fun _ => ⟨[], .nil⟩⟩
  | cons member members ih =>
      rw [List.forall_mem_cons, ← ih]
      constructor
      · rintro ⟨_, _ | ⟨first, others⟩⟩
        exact ⟨⟨_, first.2⟩, _, others⟩
      · rintro ⟨⟨bytes, first⟩, values, others⟩
        exact ⟨(member.1, bytes) :: values, .cons ⟨rfl, first⟩ others⟩

/-- Members of an object write arguments down: in any order, and every value as the list of its
octets, or by its text if it has one. -/
def Json.WriteArguments (members : List (String × Json)) (args : Arguments) : Prop :=
  ∃ entries : List (String × Bytes), entries.Perm args.entries ∧
    List.Forall₂ (fun member entry => member.1 = entry.1 ∧
      (member.2 = .octets entry.2 ∨ ∃ s, entry.2 = Utf8.encode s ∧ member.2 = .text s))
      members entries

namespace CallRequest

open Json (GivesArgument GiveArguments WriteArguments)

variable {octets : Bytes} {args : Arguments} {members : List (String × Json)}

theorem argument?_eq_some_iff {j : Json} {bytes : Bytes} :
    argument? j = some bytes ↔ j.GivesArgument bytes := by
  constructor
  · intro read
    cases j with
    | string text =>
        obtain ⟨s, rfl, rfl⟩ := Option.map_eq_some_iff.1 read
        exact .text s
    | array items =>
        obtain ⟨_, ⟨⟩, all⟩ := Json.octets?_eq_some_iff.1 read
        exact .octets all
    | _ => cases read
  · rintro (s | all)
    · rfl
    · exact Json.octets?_eq_some_iff.2 ⟨_, rfl, all⟩

/-- Arguments are decoded from the objects whose members give values. -/
theorem decodeArgs?_eq_some_iff :
    decodeArgs? octets = some args ↔ ∃ members values,
      Json.read? octets = some (.record members) ∧ GiveArguments members values ∧
        args = Table.ofList values := by
  simp only [decodeArgs?, Option.bind_eq_some_iff, Json.table?_eq_some_iff, argument?_eq_some_iff]
  constructor
  · rintro ⟨_, read, members, values, rfl, give, made⟩
    exact ⟨members, values, read, give, made⟩
  · rintro ⟨members, values, read, give, made⟩
    exact ⟨_, read, members, values, rfl, give, made⟩

/-- What writes arguments down can be printed and read. -/
theorem wellFormed_record (write : WriteArguments members args) :
    (Json.record members).WellFormed := by
  obtain ⟨entries, -, all⟩ := write
  have wellFormed : ∀ member ∈ members, member.2.WellFormed := by
    induction all with
    | nil => simp
    | cons first _ ih =>
        refine List.forall_mem_cons.2 ⟨?_, ih⟩
        rcases first.2 with same | ⟨s, -, same⟩
        · rw [same]
          exact .octets _
        · rw [same]
          exact .string _
  refine .object fun member inside => ?_
  obtain ⟨written, listed, rfl⟩ := List.mem_map.1 inside
  exact wellFormed written listed

/-- All arguments can be written down, whatever their keys and values are. -/
theorem writeArguments_octets (args : Arguments) :
    WriteArguments (args.entries.map fun (key, value) => (key, .octets value)) args :=
  ⟨args.entries, .refl _,
    List.forall₂_map_left_iff.2 (List.forall₂_same.2 fun _ _ => ⟨rfl, .inl rfl⟩)⟩

/-- However arguments are written down, what reads as that object is decoded to them. -/
theorem decodeArgs?_of_writeArguments (write : WriteArguments members args)
    (read : Json.read? octets = some (.record members)) : decodeArgs? octets = some args := by
  obtain ⟨entries, perm, all⟩ := write
  refine decodeArgs?_eq_some_iff.2 ⟨members, entries, read, all.imp ?_, ?_⟩
  · rintro member entry ⟨named, same | ⟨s, text, same⟩⟩
    · refine ⟨named, same ▸ ?_⟩
      exact argument?_eq_some_iff.1 (Json.octets?_octets entry.2)
    · rw [same, text]
      exact ⟨named, .text s⟩
  · exact (Table.ofList_perm perm).symm

/-- The decoding of arguments accepts exactly its format.

A byte string that is no document is refused. A document is accepted if and only if it is an
object with texts as keys, where every member, repeated keys included, has a string that denotes
a text or an array of integers between 0 and 255 as its value. Integers are written without sign,
fraction and exponent. The arguments then have exactly the keys of the object, each with the
octets that the last member of that key gives.

So for all arguments, whichever way they are written down as an object, and all can be, what is
printed of it is decoded to these arguments, and so is every other spelling of it. -/
theorem decodeArgs_accepts_format :
    (∀ octets, Json.read? octets = none → decodeArgs? octets = none) ∧
    (∀ octets j, Json.read? octets = some j →
      ((decodeArgs? octets).isSome ↔ ∃ members, j = .record members ∧
        ∀ member ∈ members, ∃ bytes, member.2.GivesArgument bytes) ∧
      ∀ members values, j = .record members → GiveArguments members values →
        ∃ args, decodeArgs? octets = some args ∧
          (∀ key, args.get? key = lastValue? key values) ∧
          ∀ key, key ∈ args.keys ↔ key ∈ members.map (·.1)) ∧
    ∀ args : Arguments,
      WriteArguments (args.entries.map fun (key, value) => (key, .octets value)) args ∧
      ∀ members, WriteArguments members args →
        decodeArgs? (Json.print (.record members)) = some args ∧
        ∀ octets, Json.read? octets = some (.record members) → decodeArgs? octets = some args := by
  refine ⟨fun octets unread => ?_, fun octets j read => ⟨?_, ?_⟩,
    fun args => ⟨writeArguments_octets args, fun members write => ⟨?_, ?_⟩⟩⟩
  · rw [decodeArgs?, unread, Option.bind_none]
  · rw [Option.isSome_iff_exists]
    simp only [← Json.exists_giveArguments_iff]
    constructor
    · rintro ⟨args, decoded⟩
      obtain ⟨members, values, read', give, -⟩ := decodeArgs?_eq_some_iff.1 decoded
      exact ⟨members, Option.some.inj (read.symm.trans read'), values, give⟩
    · rintro ⟨members, rfl, values, give⟩
      exact ⟨_, decodeArgs?_eq_some_iff.2 ⟨members, values, read, give, rfl⟩⟩
  · rintro members values rfl give
    refine ⟨_, decodeArgs?_eq_some_iff.2 ⟨members, values, read, give, rfl⟩,
      Table.get?_ofList values, fun key => ?_⟩
    rw [← Table.isSome_get?_iff, Table.get?_ofList, lastValue?_isSome_iff, give.keys]
  · exact decodeArgs?_of_writeArguments write (Json.read?_print (wellFormed_record write))
  · exact fun octets read => decodeArgs?_of_writeArguments write read

example : (decodeArgs? (Utf8.encode "\x7b\"k\":[7,255],\"k\":\"\\u0041\"\x7d")).map (·.entries) =
    some [("k", [0x41])] := by decide

example : decodeArgs? (Utf8.encode "\x7b\"k\":[-0]\x7d") = none := by decide

end CallRequest

end ContractHost
