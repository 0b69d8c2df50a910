/-
# Printed documents are read back

A document that is printed and read is the same document, whatever it holds and however deep it
is. The octets of a document are read token by token, and what is printed of each part is one
token to the scan. So the proof follows the document: reading its print where a value is due
leaves the reading where the whole value has been handed over.
-/

import ContractHost.Json.Reader
import ContractHost.Proofs.Json.Scalars

namespace ContractHost.Json

open Token (Scan isLetter isNumeral)

variable {rest : Bytes}

/-- A document whose numbers all keep the grammar. -/
inductive WellFormed : Json → Prop
  | null : WellFormed .null
  | bool (value : Bool) : WellFormed (.bool value)
  | number {n : Number} (whole : n.WellFormed) : WellFormed (.number n)
  | string (text : Option String) : WellFormed (.string text)
  | array {items : List Json} (all : ∀ item ∈ items, WellFormed item) : WellFormed (.array items)
  | object {members : List (Option String × Json)} (all : ∀ member ∈ members, WellFormed member.2) :
    WellFormed (.object members)

theorem WellFormed.octets (bytes : Bytes) : WellFormed (octets bytes) := by
  refine .array fun item mem => ?_
  obtain ⟨b, -, rfl⟩ := List.mem_map.1 mem
  exact .number (Number.wellFormed_ofNat b.toNat)

/-! ## The scan -/

/-- Octets that are one token to the scan, before the given rest. -/
def Writes (written : Bytes) (token : Token) (rest : Bytes) : Prop :=
  Token.ofBytes? (written ++ rest) = (Token.ofBytes? rest).map (token :: ·)

theorem run_cons (scan : Scan) (b : UInt8) (rest : Bytes) :
    scan.run (b :: rest) =
      (scan.feed b).bind fun (tokens, next) => (next.run rest).map (tokens ++ ·) := by
  rw [Scan.run]
  cases scan.feed b with
  | none => rfl
  | some p => cases h : p.2.run rest <;> simp [h]

/-- An octet that goes on with what was begun. -/
theorem run_held {scan next : Scan} {b : UInt8} (held : scan.feed b = some ([], next)) :
    scan.run (b :: rest) = next.run rest := by
  rw [run_cons, held]
  simp

/-- A punctuation mark is a token. -/
theorem writes_mark {b : UInt8} {token : Token} (mark : Scan.start b = some ([token], .between))
    (rest : Bytes) : Writes [b] token rest := by
  have fed : Scan.between.feed b = some ([token], .between) := mark
  rw [Writes, Token.ofBytes?, List.singleton_append, run_cons, fed]
  rfl

/-- An octet that ends a token is read again. -/
theorem run_after (token : Option Token) (b : UInt8) (rest : Bytes) :
    ((Scan.after token b).bind fun (tokens, next) => (next.run rest).map (tokens ++ ·)) =
      token.bind fun token => (Token.ofBytes? (b :: rest)).map (token :: ·) := by
  cases token with
  | none => rfl
  | some token =>
      rw [Token.ofBytes?, run_cons, Option.bind_some]
      show ((Scan.after (some token) b).bind _) = ((Scan.start b).bind _).map _
      rw [Scan.after]
      cases Scan.start b with
      | none => rfl
      | some p => cases h : p.2.run rest <;> simp [h]

/-- The scan collects the octets of a token as long as they go on with it, and reads the token
when it has seen the first other octet or the end. -/
structure Collects (collect : Bytes → Scan) (goesOn : UInt8 → Bool)
    (token? : Bytes → Option Token) : Prop where
  more : ∀ held b, goesOn b → (collect held).feed b = some ([], collect (b :: held))
  done : ∀ held b, goesOn b = false →
    (collect held).feed b = Scan.after (token? held.reverse) b
  finish : ∀ held, (collect held).finish = (token? held.reverse).map ([·])

theorem collects_word : Collects .word isLetter Token.word? where
  more held b letter := by rw [Scan.feed, if_pos letter]
  done held b other := by rw [Scan.feed, other, if_neg Bool.false_ne_true]
  finish held := rfl

theorem collects_number : Collects .number isNumeral fun octets =>
    (Token.number? octets).map .number where
  more held b numeral := by rw [Scan.feed, if_pos numeral]
  done held b other := by rw [Scan.feed, other, if_neg Bool.false_ne_true]
  finish held := by rw [Scan.finish, Option.map_map]; rfl

namespace Collects

variable {collect : Bytes → Scan} {goesOn : UInt8 → Bool} {token? : Bytes → Option Token}

theorem run (collects : Collects collect goesOn token?) {held octets : Bytes}
    (inside : ∀ b ∈ octets, goesOn b) (ends : ∀ b ∈ rest.head?, goesOn b = false) :
    (collect held).run (octets ++ rest) =
      (token? (octets.reverse ++ held).reverse).bind fun token =>
        (Token.ofBytes? rest).map (token :: ·) := by
  induction octets generalizing held with
  | nil =>
      rw [List.nil_append, List.reverse_nil, List.nil_append]
      cases rest with
      | nil =>
          rw [Scan.run, collects.finish]
          cases token? held.reverse <;> rfl
      | cons b rest => rw [run_cons, collects.done held b (ends b rfl), run_after]
  | cons b octets ih =>
      obtain ⟨first, others⟩ := List.forall_mem_cons.1 inside
      rw [List.cons_append, run_held (collects.more held b first), ih others, List.reverse_cons,
        List.append_assoc]
      rfl

/-- What is collected is a token, up to the first octet that does not go on with it. -/
theorem writes (collects : Collects collect goesOn token?) {b : UInt8} {octets : Bytes}
    {token : Token} (opens : Scan.start b = some ([], collect [b]))
    (inside : ∀ b ∈ octets, goesOn b) (read : token? (b :: octets) = some token)
    (ends : ∀ b ∈ rest.head?, goesOn b = false) : Writes (b :: octets) token rest := by
  have fed : Scan.between.feed b = some ([], collect [b]) := opens
  rw [Writes, Token.ofBytes?, List.cons_append, run_held fed, collects.run inside ends,
    List.reverse_append, List.reverse_reverse, List.reverse_singleton, List.singleton_append, read,
    Option.bind_some]

end Collects

/-- Octets that can go on neither with a word nor with a number. -/
def Ends (rest : Bytes) : Prop :=
  ∀ b ∈ rest.head?, isLetter b = false ∧ isNumeral b = false

/-- A word is a token. -/
theorem writes_word {b : UInt8} {letters : Bytes} {token : Token}
    (opens : Scan.start b = some ([], .word [b])) (inside : letters.all isLetter)
    (word : Token.word? (b :: letters) = some token) (ends : Ends rest) :
    Writes (b :: letters) token rest :=
  collects_word.writes opens (List.all_eq_true.1 inside) word fun b first => (ends b first).1

/-- What opens a number is neither a blank nor a quote. -/
theorem start_of_opensNumber {b : UInt8} (opens : Token.opensNumber b) :
    Scan.start b = some ([], .number [b]) := by
  have blank : ¬ Token.isBlank b := by
    intro blank
    simp only [Token.isBlank, Bool.or_eq_true, beq_iff_eq] at blank
    rcases blank with ((rfl | rfl) | rfl) | rfl <;> exact absurd opens (by decide)
  have quote : b ≠ 0x22 := by
    rintro rfl
    exact absurd opens (by decide)
  rw [Scan.start, if_neg blank, if_neg quote, if_pos opens]

/-- A number is a token. -/
theorem writes_number {n : Number} (wellFormed : n.WellFormed) (ends : Ends rest) :
    Writes n.print (.number n) rest := by
  obtain ⟨b, octets, shape, opens, inside⟩ := exists_print wellFormed
  have number := number?_print wellFormed
  rw [shape] at number ⊢
  refine collects_number.writes (start_of_opensNumber opens) inside ?_ fun b first =>
    (ends b first).2
  rw [number, Option.map_some]

/-- Octets that stay within a string. -/
inductive Inner : Bytes → Prop
  | nil : Inner []
  | plain {b : UInt8} {octets : Bytes} (plain : IsPlain b) (inner : Inner octets) :
    Inner (b :: octets)
  | escape {e : UInt8} {octets : Bytes} (control : 0x20 ≤ e) (inner : Inner octets) :
    Inner (0x5C :: e :: octets)

namespace Inner

variable {octets later : Bytes}

theorem append (inner : Inner octets) (inner' : Inner later) : Inner (octets ++ later) := by
  induction inner with
  | nil => exact inner'
  | plain plain _ ih => exact .plain plain ih
  | escape control _ ih => exact .escape control ih

theorem of_plain (all : ∀ b ∈ octets, IsPlain b) : Inner octets := by
  induction octets with
  | nil => exact .nil
  | cons b octets ih =>
      obtain ⟨first, others⟩ := List.forall_mem_cons.1 all
      exact .plain first (ih others)

theorem escapeOctets (c : Char) : Inner (Json.escapeOctets c) := by
  have escaped := escaped_escapeOctets c
  generalize Json.escapeOctets c = written at escaped ⊢
  cases escaped with
  | letter e b control other known code => exact .escape control .nil
  | digits control =>
      refine .escape (by decide) (.of_plain fun b mem => ?_)
      simp only [List.mem_cons, List.not_mem_nil, or_false] at mem
      rcases mem with rfl | rfl | rfl | rfl
      · decide
      · decide
      · exact isPlain_hexOctet (by omega)
      · exact isPlain_hexOctet (by omega)
  | plain all => exact .of_plain all

theorem flatMap_escapeOctets (cs : List Char) : Inner (cs.flatMap Json.escapeOctets) := by
  induction cs with
  | nil => exact .nil
  | cons c rest ih => exact (escapeOctets c).append ih

/-- What stays within a string is held by the scan until the string ends. -/
theorem run {held : Bytes} (inner : Inner octets) :
    (Scan.string held false).run (octets ++ rest) =
      (Scan.string (octets.reverse ++ held) false).run rest := by
  induction inner generalizing held with
  | nil => rfl
  | @plain b octets plain _ ih =>
      obtain ⟨control, quote, backslash⟩ := plain
      have fed : (Scan.string held false).feed b = some ([], .string (b :: held) false) := by
        rw [Scan.feed, if_neg (UInt8.not_lt.2 control), if_neg Bool.false_ne_true,
          if_neg backslash, if_neg quote]
      rw [List.cons_append, run_held fed, ih, List.reverse_cons, List.append_assoc]
      rfl
  | @escape e octets control _ ih =>
      have opens : (Scan.string held false).feed 0x5C = some ([], .string (0x5C :: held) true) :=
        rfl
      have fed : (Scan.string (0x5C :: held) true).feed e =
          some ([], .string (e :: 0x5C :: held) false) := by
        rw [Scan.feed, if_neg (UInt8.not_lt.2 control), if_pos rfl]
      rw [List.cons_append, List.cons_append, run_held opens, run_held fed, ih,
        List.reverse_cons, List.reverse_cons, List.append_assoc, List.append_assoc]
      rfl

/-- Between quotes, it is a token. -/
theorem writes {token : Token} (inner : Inner octets) (string : Token.string? octets = some token)
    (rest : Bytes) : Writes (0x22 :: (octets ++ [0x22])) token rest := by
  have opens : Scan.between.feed 0x22 = some ([], .string [] false) := rfl
  have closes : (Scan.string octets.reverse false).feed 0x22 = some ([token], .between) := by
    have fed : (Scan.string octets.reverse false).feed 0x22 =
      (Token.string? octets.reverse.reverse).map fun token => ([token], .between) := rfl
    rw [fed, List.reverse_reverse, string, Option.map_some]
  rw [Writes, Token.ofBytes?, List.cons_append, run_held opens, List.append_assoc, inner.run,
    List.append_nil, List.singleton_append, run_cons, closes]
  rfl

end Inner

/-- A string is a token, also one without text. -/
theorem writes_printString (text : Option String) (rest : Bytes) :
    Writes (printString text) (.string text) rest := by
  cases text with
  | some s =>
      have read := string?_escapeOctets s.toList
      have written : Utf8.encode (String.ofList (s.toList.flatMap escape)) =
          s.toList.flatMap escapeOctets := by
        rw [Utf8.encode_ofList, List.flatMap_assoc]
        rfl
      rw [String.ofList_toList] at read
      rw [printString, quote, written]
      exact (Inner.flatMap_escapeOctets s.toList).writes read rest
  | none =>
      have inner : Inner [0x5C, 0x75, 0x64, 0x38, 0x30, 0x30] :=
        .escape (by decide) (.plain (by decide) (.plain (by decide) (.plain (by decide)
          (.plain (by decide) .nil))))
      exact inner.writes rfl rest

/-! ## The reading -/

/-- Reads the rest of a document. -/
def readFrom (reading : Reading) (octets : Bytes) : Option Json :=
  (Token.ofBytes? octets).bind reading.run

/-- One token is one step of the reading. -/
theorem readFrom_token {written : Bytes} {token : Token} {reading next : Reading}
    (writes : Writes written token rest) (step : reading.step token = some next) :
    readFrom reading (written ++ rest) = readFrom next rest := by
  have run (tokens : List Token) : reading.run (token :: tokens) = next.run tokens := by
    rw [Reading.run, step, Option.bind_some]
  rw [readFrom, readFrom, writes]
  cases Token.ofBytes? rest with
  | none => rfl
  | some tokens => exact run tokens

/-- A reading that waits for a value, to hand it to the given frames. The end of an array may be
possible instead. -/
def AwaitsValue (reading : Reading) (stack : List Frame) : Prop :=
  ∀ token, token ≠ .closeArray → reading.step token = Reading.begin stack token

/-- A reading that waits for the key of a member. The end of the object may be possible
instead. -/
def AwaitsKey (reading : Reading) (done : List (Option String × Json)) (stack : List Frame) :
    Prop :=
  ∀ key, reading.step (.string key) = some (.colon done key stack)

/-- What is printed of a document is read as that document. -/
def Readable (j : Json) : Prop :=
  ∀ ⦃reading : Reading⦄ ⦃stack : List Frame⦄, AwaitsValue reading stack →
    ∀ ⦃rest : Bytes⦄, Ends rest → readFrom reading (print j ++ rest) =
      readFrom (.complete j stack) rest

theorem readable_of_writes {j : Json} (token : Token) (other : token ≠ .closeArray)
    (begin : ∀ stack, Reading.begin stack token = some (.complete j stack))
    (writes : ∀ rest, Ends rest → Writes (print j) token rest) : Readable j := by
  intro reading stack awaits rest ends
  exact readFrom_token (writes rest ends) ((awaits token other).trans (begin stack))

/-- A mark is followed by the rest. -/
theorem readFrom_mark {b : UInt8} {token : Token} {reading next : Reading}
    (mark : Scan.start b = some ([token], .between)) (step : reading.step token = some next) :
    readFrom reading (b :: rest) = readFrom next rest :=
  readFrom_token (writes_mark mark rest) step

theorem ends_cons {b : UInt8} (other : isLetter b = false ∧ isNumeral b = false) :
    Ends (b :: rest) := by
  rintro c ⟨⟩
  exact other

/-- The items of an array are read one by one, up to its end. -/
theorem readFrom_items {items : List Json} (readable : ∀ item ∈ items, Readable item)
    (nonempty : items ≠ []) {done : List Json} {stack : List Frame} {reading : Reading}
    (awaits : AwaitsValue reading (.items done :: stack)) :
    readFrom reading (commaSeparated (printItems items) ++ 0x5D :: rest) =
      readFrom (.complete (.array (done.reverse ++ items)) stack) rest := by
  induction items generalizing done reading with
  | nil => exact absurd rfl nonempty
  | cons item items ih =>
      obtain ⟨first, others⟩ := List.forall_mem_cons.1 readable
      cases items with
      | nil =>
          rw [printItems, printItems, commaSeparated, first awaits (ends_cons (by decide)),
            readFrom_mark rfl rfl, List.reverse_cons]
      | cons next items =>
          have separated : commaSeparated (printItems (item :: next :: items)) =
            print item ++ 0x2C :: commaSeparated (printItems (next :: items)) := rfl
          have waiting : AwaitsValue (.value (.items (item :: done) :: stack))
            (.items (item :: done) :: stack) := fun _ _ => rfl
          rw [separated, List.append_assoc, List.cons_append,
            first awaits (ends_cons (by decide)), readFrom_mark rfl rfl,
            ih others (by simp) waiting, List.reverse_cons, List.append_assoc]
          rfl

/-- The members of an object are read one by one, up to its end. -/
theorem readFrom_members {members : List (Option String × Json)}
    (readable : ∀ member ∈ members, Readable member.2) (nonempty : members ≠ [])
    {done : List (Option String × Json)} {stack : List Frame} {reading : Reading}
    (awaits : AwaitsKey reading done stack) :
    readFrom reading (commaSeparated (printMembers members) ++ 0x7D :: rest) =
      readFrom (.complete (.object (done.reverse ++ members)) stack) rest := by
  induction members generalizing done reading with
  | nil => exact absurd rfl nonempty
  | cons member members ih =>
      obtain ⟨first, others⟩ := List.forall_mem_cons.1 readable
      obtain ⟨key, value⟩ := member
      have member {octets : Bytes} (ends : Ends octets) :
          readFrom reading (printString key ++ 0x3A :: (print value ++ octets)) =
            readFrom (.afterMember ((key, value) :: done) stack) octets := by
        have waiting : AwaitsValue (.value (.members done key :: stack))
          (.members done key :: stack) := fun _ _ => rfl
        rw [readFrom_token (writes_printString key _) (awaits key), readFrom_mark rfl rfl,
          first waiting ends]
        rfl
      cases members with
      | nil =>
          rw [printMembers, printMembers, commaSeparated, List.append_assoc, List.cons_append,
            member (ends_cons (by decide)), readFrom_mark rfl rfl, List.reverse_cons]
      | cons next members =>
          have separated : commaSeparated (printMembers ((key, value) :: next :: members)) =
            (printString key ++ 0x3A :: print value) ++
              0x2C :: commaSeparated (printMembers (next :: members)) := rfl
          have waiting : AwaitsKey (.nextKey ((key, value) :: done) stack)
            ((key, value) :: done) stack := fun _ => rfl
          rw [separated, List.append_assoc, List.append_assoc, List.cons_append, List.cons_append,
            member (ends_cons (by decide)), readFrom_mark rfl rfl, ih others (by simp) waiting,
            List.reverse_cons, List.append_assoc]
          rfl

theorem readable_null : Readable .null := by
  have letters : print .null = 0x6E :: [0x75, 0x6C, 0x6C] := rfl
  refine readable_of_writes .null (by simp) (fun _ => rfl) fun rest ends => ?_
  rw [letters]
  exact writes_word rfl (by decide) rfl ends

theorem readable_bool (value : Bool) : Readable (.bool value) := by
  have letters : print (.bool true) = 0x74 :: [0x72, 0x75, 0x65] := rfl
  have letters' : print (.bool false) = 0x66 :: [0x61, 0x6C, 0x73, 0x65] := rfl
  refine readable_of_writes (.bool value) (by simp) (fun _ => rfl) fun rest ends => ?_
  cases value with
  | true =>
      rw [letters]
      exact writes_word rfl (by decide) rfl ends
  | false =>
      rw [letters']
      exact writes_word rfl (by decide) rfl ends

theorem readable_array {items : List Json} (readable : ∀ item ∈ items, Readable item) :
    Readable (.array items) := by
  intro reading stack awaits rest _
  have opens : reading.step .openArray = some (.firstItem stack) := awaits _ (by simp)
  rw [print, List.cons_append, List.append_assoc, List.singleton_append, readFrom_mark rfl opens]
  rcases eq_or_ne items [] with rfl | nonempty
  · exact readFrom_mark rfl rfl
  · have waiting : AwaitsValue (.firstItem stack) (.items [] :: stack) := by
      intro token other
      cases token with
      | closeArray => exact absurd rfl other
      | _ => rfl
    exact readFrom_items readable nonempty waiting

theorem readable_object {members : List (Option String × Json)}
    (readable : ∀ member ∈ members, Readable member.2) : Readable (.object members) := by
  intro reading stack awaits rest _
  have opens : reading.step .openObject = some (.firstKey stack) := awaits _ (by simp)
  rw [print, List.cons_append, List.append_assoc, List.singleton_append, readFrom_mark rfl opens]
  rcases eq_or_ne members [] with rfl | nonempty
  · exact readFrom_mark rfl rfl
  · have waiting : AwaitsKey (.firstKey stack) [] stack := fun _ => rfl
    exact readFrom_members readable nonempty waiting

/-- A document whose numbers keep the grammar is readable, whatever stands around it. -/
theorem WellFormed.readable {j : Json} (wellFormed : WellFormed j) : Readable j := by
  induction wellFormed with
  | null => exact readable_null
  | bool value => exact readable_bool value
  | @number n whole =>
      apply readable_of_writes (.number n) (by simp) fun _ => rfl
      exact fun _ => writes_number whole
  | string text =>
      apply readable_of_writes (.string text) (by simp) fun _ => rfl
      exact fun rest _ => writes_printString text rest
  | array _ ih => exact readable_array ih
  | object _ ih => exact readable_object ih

/-- A document that is printed and read again is the same. -/
theorem read?_print {j : Json} (wellFormed : WellFormed j) : read? (print j) = some j := by
  have waiting : AwaitsValue (.value []) [] := fun _ _ => rfl
  have ends : Ends [] := by rintro b ⟨⟩
  have whole := wellFormed.readable waiting ends
  rw [List.append_nil] at whole
  exact whole

end ContractHost.Json
