/-
# What templates stand for

A template is written as a sequence of parts: a character that stands for itself, or a reference,
which is a name between its marks. Every text can be read in one way only, as such parts or as
parts before a reference without end, and this is how templates are taken apart. So two templates
can be filled in one by one, unless a reference begins with the end of the first one. What the
variables hold is copied to its place, and is never taken apart itself.
-/

import ContractHost.Script.Template

namespace ContractHost.Script.Template

/-! ## Parts and how they are written -/

/-- The beginning of a reference, up to the end of a name. -/
def opened (name : List Char) : List Char := '$' :: '\x7b' :: name

/-- How a part is written. -/
def Part.written : Part → List Char
  | .literal c => [c]
  | .reference name => opened (name ++ ['\x7d'])

/-- How parts are written one after another. -/
def written (parts : List Part) : List Char := parts.flatMap Part.written

/-- Parts as they stand in a template: a name ends at the first brace that closes it, and
characters that could begin a reference do so. -/
inductive Proper : List Part → Prop
  | nil : Proper []
  | literal {c : Char} {rest : List Part} : (∀ name, c :: written rest ≠ opened name) →
      Proper rest → Proper (.literal c :: rest)
  | reference {name : List Char} {rest : List Part} : '\x7d' ∉ name → Proper rest →
      Proper (.reference name :: rest)

/-- No reference begins with the end of one text and the beginning of the next. -/
def Apart (first second : List Char) : Prop := ¬ (['$'] <:+ first ∧ ['\x7b'] <+: second)

variable {parts : List Part} {cs rest name : List Char} {c : Char}

theorem written_cons (part : Part) (parts : List Part) :
    written (part :: parts) = part.written ++ written parts := List.flatMap_cons

theorem opened_append (name rest : List Char) : opened (name ++ rest) = opened name ++ rest := rfl

/-- A character that does not begin a reference begins none when more text comes after. -/
theorem ne_opened_append {c : Char} {front rest : List Char}
    (plain : ∀ name, c :: front ≠ opened name) (apart : Apart (c :: front) rest) (name : List Char) :
    c :: (front ++ rest) ≠ opened name := by
  intro opens
  obtain ⟨rfl, continues⟩ := List.cons_eq_cons.1 opens
  cases front with
  | nil => exact apart ⟨List.suffix_rfl, name, continues.symm⟩
  | cons d front =>
      obtain ⟨rfl, -⟩ := List.cons_eq_cons.1 continues
      exact plain front rfl

theorem Apart.of_append {front first second : List Char} (apart : Apart (front ++ first) second) :
    Apart first second :=
  fun ⟨ends, begins⟩ => apart ⟨ends.trans (List.suffix_append _ _), begins⟩

/-! ## Reading -/

/-- A character that does not begin a reference stands for itself. -/
theorem parts?_literal (plain : ∀ name, c :: rest ≠ opened name) :
    parts? none (c :: rest) = (parts? none rest).map (.literal c :: ·) := by
  rw [parts?]
  intro name dollar brace
  exact plain name (by rw [dollar, brace, opened])

/-- Inside of a reference, characters up to the brace that closes it belong to the name. -/
theorem parts?_closed (free : '\x7d' ∉ name) (before rest : List Char) :
    parts? (some before) (name ++ '\x7d' :: rest) =
      (parts? none rest).map (.reference (before.reverse ++ name) :: ·) := by
  induction name generalizing before with
  | nil => rw [List.nil_append, parts?, List.append_nil]
  | cons c name ih =>
      obtain ⟨other, free⟩ := not_or.1 (mt List.mem_cons.2 free)
      rw [List.cons_append, parts?, ih free, List.reverse_cons, List.append_assoc]
      · rfl
      · exact Ne.symm other

/-- A reference that is never closed is a fault. -/
theorem parts?_open (free : '\x7d' ∉ name) (before : List Char) :
    parts? (some before) name = none := by
  induction name generalizing before with
  | nil => rfl
  | cons c name ih =>
      obtain ⟨other, free⟩ := not_or.1 (mt List.mem_cons.2 free)
      rw [parts?, ih free]
      exact Ne.symm other

/-- Parts that are written are read again, and what follows them is read by itself. Only where a
literal is the last of them does it matter what follows. -/
theorem parts?_written_append (proper : Proper parts) (apart : Apart (written parts) rest) :
    parts? none (written parts ++ rest) = (parts? none rest).map (parts ++ ·) := by
  induction proper with
  | nil => exact Option.map_id'.symm
  | @literal c parts plain _ ih =>
      rw [written_cons, Part.written] at apart ⊢
      rw [List.append_assoc, List.singleton_append, parts?_literal (ne_opened_append plain apart),
        ih apart.of_append, Option.map_map]
      rfl
  | @reference name parts free _ ih =>
      rw [written_cons, Part.written] at apart ⊢
      rw [opened_append, List.append_assoc, List.append_assoc, List.singleton_append, opened,
        List.cons_append, List.cons_append, parts?, parts?_closed free, ih apart.of_append,
        Option.map_map]
      rfl

/-- Every text is that of some parts, or goes on after them with a reference that is never
closed. -/
theorem exists_parts (cs : List Char) :
    ∃ parts tail, Proper parts ∧ written parts ++ tail = cs ∧
      (tail = [] ∨ ∃ name, '\x7d' ∉ name ∧ tail = opened name) := by
  -- A name is taken off at once, so the recursion is on the length of the text.
  by_cases opens : ∃ inside, cs = opened inside
  · obtain ⟨inside, rfl⟩ := opens
    by_cases closes : '\x7d' ∈ inside
    · obtain ⟨name, rest, rfl, free⟩ := List.eq_append_cons_of_mem closes
      obtain ⟨parts, tail, proper, rfl, ends⟩ := exists_parts rest
      refine ⟨.reference name :: parts, tail, .reference free proper, ?_, ends⟩
      rw [written_cons, Part.written, opened_append, opened_append, List.append_assoc,
        List.append_assoc, List.singleton_append]
    · exact ⟨[], opened inside, .nil, rfl, .inr ⟨inside, closes, rfl⟩⟩
  · cases cs with
    | nil => exact ⟨[], [], .nil, rfl, .inl rfl⟩
    | cons c rest =>
        obtain ⟨parts, tail, proper, rfl, ends⟩ := exists_parts rest
        refine ⟨.literal c :: parts, tail, .literal (fun name same => ?_) proper, ?_, ends⟩
        · exact opens ⟨name ++ tail, by rw [opened_append, ← same, List.cons_append]⟩
        · rw [written_cons, Part.written, List.singleton_append, List.cons_append]
termination_by cs.length
decreasing_by
  · subst_vars
    simp only [opened, List.length_cons, List.length_append]
    omega
  · subst_vars
    exact Nat.lt_succ_self _

theorem parts?_written (proper : Proper parts) : parts? none (written parts) = some parts := by
  have apart : Apart (written parts) [] := fun ⟨_, begins⟩ => absurd begins (by simp)
  have whole := parts?_written_append proper apart
  rwa [List.append_nil, parts?, Option.map_some, List.append_nil] at whole

theorem parts?_unclosed (proper : Proper parts) (free : '\x7d' ∉ name) :
    parts? none (written parts ++ opened name) = none := by
  have apart : Apart (written parts) (opened name) :=
    fun ⟨_, begins⟩ => absurd (List.cons_prefix_cons.1 begins).1 (by decide)
  rw [parts?_written_append proper apart, opened, parts?, parts?_open free, Option.map_none]

/-- What is read of a text is what it is written with, and nothing else could be. -/
theorem parts?_eq_some_iff :
    parts? none cs = some parts ↔ Proper parts ∧ written parts = cs := by
  constructor
  · intro reads
    obtain ⟨found, tail, proper, rfl, rfl | ⟨name, free, rfl⟩⟩ := exists_parts cs
    · rw [List.append_nil] at reads ⊢
      cases (parts?_written proper).symm.trans reads
      exact ⟨proper, rfl⟩
    · cases (parts?_unclosed proper free).symm.trans reads
  · rintro ⟨proper, rfl⟩
    exact parts?_written proper

example : parts? none "é$$\x7b$\x7ba\x7d\x7d".toList =
    some [.literal 'é', .literal '$', .reference ['$', '\x7b', 'a'], .literal '\x7d'] := by decide

/-! ### Text without references -/

theorem written_literals (cs : List Char) : written (cs.map .literal) = cs := by
  induction cs with
  | nil => rfl
  | cons c rest ih => rw [List.map_cons, written_cons, ih, Part.written, List.singleton_append]

theorem proper_literals (plain : ¬ opened [] <:+: cs) : Proper (cs.map .literal) := by
  induction cs with
  | nil => exact .nil
  | cons c rest ih =>
      refine .literal (fun name opens => plain ?_) (ih fun inside => plain ?_)
      · rw [written_literals] at opens
        rw [opens]
        exact (List.prefix_append (opened []) name).isInfix
      · exact inside.trans (List.suffix_cons c rest).isInfix

/-! ## Filling in -/

/-- All variables to which parts refer hold something. -/
def Bound (vars : Variables) (parts : List Part) : Prop :=
  ∀ name, .reference name ∈ parts → (vars.get? (String.ofList name)).isSome

/-- What is shown of a part: of a reference, what its variable holds, as it is. -/
def Part.shown (vars : Variables) : Part → List Char
  | .literal c => [c]
  | .reference name => ((vars.get? (String.ofList name)).getD "").toList

/-- What parts are filled in to. -/
def fill? (vars : Variables) (parts : List Part) : Option (List Char) :=
  (parts.mapM (Part.fill? vars)).map List.flatten

section Filling

variable {vars : Variables}

theorem fill?_cons (part : Part) (parts : List Part) :
    fill? vars (part :: parts) =
      (part.fill? vars).bind fun xs => (fill? vars parts).map (xs ++ ·) := by
  unfold fill?
  rw [List.mapM_cons]
  cases part.fill? vars with
  | none => rfl
  | some xs => cases parts.mapM (Part.fill? vars) <;> rfl

theorem fill?_append (first second : List Part) :
    fill? vars (first ++ second) =
      (fill? vars first).bind fun xs => (fill? vars second).map (xs ++ ·) := by
  induction first with
  | nil => exact Option.map_id'.symm
  | cons part first ih =>
      rw [List.cons_append, fill?_cons, fill?_cons, ih]
      cases part.fill? vars with
      | none => rfl
      | some xs => cases fill? vars first <;> cases fill? vars second <;> simp

theorem bound_cons_iff {part : Part} :
    Bound vars (part :: parts) ↔ (part.fill? vars).isSome ∧ Bound vars parts := by
  cases part with
  | literal c => simp [Bound, Part.fill?]
  | reference name => simp [Bound, Part.fill?, or_imp, forall_and]

theorem Part.fill?_of_isSome {part : Part} (found : (part.fill? vars).isSome) :
    part.fill? vars = some (part.shown vars) := by
  cases part with
  | literal c => rfl
  | reference name =>
      obtain ⟨value, holds⟩ := Option.isSome_iff_exists.1 (Option.isSome_map ▸ found)
      rw [Part.fill?, Part.shown, holds]
      rfl

theorem fill?_of_bound (bound : Bound vars parts) :
    fill? vars parts = some (parts.flatMap (Part.shown vars)) := by
  induction parts with
  | nil => rfl
  | cons part parts ih =>
      obtain ⟨first, rest⟩ := bound_cons_iff.1 bound
      rw [fill?_cons, Part.fill?_of_isSome first, ih rest]
      rfl

theorem fill?_of_not_bound (unbound : ¬ Bound vars parts) : fill? vars parts = none := by
  induction parts with
  | nil => exact absurd (fun _ mem => by cases mem) unbound
  | cons part parts ih =>
      rw [fill?_cons]
      cases first : part.fill? vars with
      | none => rfl
      | some xs =>
          rw [ih fun rest => unbound (bound_cons_iff.2 ⟨by rw [first]; rfl, rest⟩)]
          rfl

end Filling

theorem expand_eq (vars : Variables) (template : String) :
    expand vars template =
      match (parts? none template.toList).bind (fill? vars) with
      | some filled => .ok (String.ofList filled)
      | none => .error .invalidArgument := by
  unfold expand fill?
  cases parts? none template.toList with
  | none => rfl
  | some parts =>
      rw [Option.bind_some, Option.bind_some]
      cases parts.mapM (Part.fill? vars) <;> rfl

theorem expand_eq_ok_iff {vars : Variables} {template text : String} :
    expand vars template = .ok text ↔
      ∃ parts, Proper parts ∧ written parts = template.toList ∧
        fill? vars parts = some text.toList := by
  have expands_iff : expand vars template = .ok text ↔
      (parts? none template.toList).bind (fill? vars) = some text.toList := by
    rw [expand_eq]
    cases (parts? none template.toList).bind (fill? vars) with
    | none => simp
    | some filled => simp [← String.toList_inj]
  rw [expands_iff, Option.bind_eq_some_iff]
  simp only [parts?_eq_some_iff, and_assoc]

section Expansion

variable {vars : Variables} {template first second text : String}

/-- A template is filled in with what is shown of its parts. -/
theorem expand_of_bound (proper : Proper parts) (same : written parts = template.toList)
    (bound : Bound vars parts) :
    expand vars template = .ok (String.ofList (parts.flatMap (Part.shown vars))) := by
  rw [expand_eq, parts?_eq_some_iff.2 ⟨proper, same⟩, Option.bind_some, fill?_of_bound bound]

/-- A reference to a variable that holds nothing is an invalid argument. -/
theorem expand_of_not_bound (proper : Proper parts) (same : written parts = template.toList)
    (unbound : ¬ Bound vars parts) : expand vars template = .error .invalidArgument := by
  rw [expand_eq, parts?_eq_some_iff.2 ⟨proper, same⟩, Option.bind_some,
    fill?_of_not_bound unbound]

/-- A reference that is never closed is an invalid argument, whatever is before it. -/
theorem expand_of_unclosed (proper : Proper parts) (free : '\x7d' ∉ name)
    (same : written parts ++ opened name = template.toList) :
    expand vars template = .error .invalidArgument := by
  rw [expand_eq, ← same, parts?_unclosed proper free, Option.bind_none]

/-- Text in which no reference begins stands for itself. -/
theorem expand_of_plain (plain : ¬ opened [] <:+: text.toList) : expand vars text = .ok text := by
  have bound : Bound vars (text.toList.map .literal) := by simp [Bound]
  rw [expand_of_bound (proper_literals plain) (written_literals _) bound, List.flatMap_map]
  simp [Part.shown]

/-- A reference alone stands for what its variable holds. -/
theorem expand_reference_alone {name : String} (free : '\x7d' ∉ name.toList) :
    expand vars ("$\x7b" ++ name ++ "\x7d") =
      match vars.get? name with
      | some value => .ok value
      | none => .error .invalidArgument := by
  have proper : Proper [.reference name.toList] := .reference free .nil
  have alone : written [.reference name.toList] = ("$\x7b" ++ name ++ "\x7d").toList := by
    simp [written, Part.written, opened]
  rw [expand_eq, parts?_eq_some_iff.2 ⟨proper, alone⟩, Option.bind_some, fill?_cons, Part.fill?,
    String.ofList_toList]
  cases vars.get? name with
  | none => rfl
  | some value => simp [fill?]

/-- Two templates that stand apart are filled in one after another. -/
theorem expand_append (expands : expand vars first = .ok text)
    (apart : Apart first.toList second.toList) :
    expand vars (first ++ second) = (expand vars second).map (text ++ ·) := by
  obtain ⟨parts, proper, same, fills⟩ := expand_eq_ok_iff.1 expands
  have reads : parts? none (first ++ second).toList =
      (parts? none second.toList).map (parts ++ ·) := by
    rw [String.toList_append, ← same]
    exact parts?_written_append proper (same ▸ apart)
  rw [expand_eq, expand_eq, reads]
  cases parts? none second.toList with
  | none => rfl
  | some later =>
      rw [Option.map_some, Option.bind_some, Option.bind_some, fill?_append, fills,
        Option.bind_some]
      cases fill? vars later with
      | none => rfl
      | some filled =>
          have joined : String.ofList (text.toList ++ filled) = text ++ String.ofList filled := by
            rw [String.ofList_append, String.ofList_toList]
          exact congrArg Except.ok joined

end Expansion

/-! ## References -/

/-- A template refers to a variable. -/
def Refers (template name : String) : Prop :=
  ∃ parts, Proper parts ∧ written parts = template.toList ∧ .reference name.toList ∈ parts

theorem fill?_congr {vars vars' : Variables} {parts : List Part}
    (same : ∀ name, .reference name ∈ parts →
      vars'.get? (String.ofList name) = vars.get? (String.ofList name)) :
    fill? vars' parts = fill? vars parts := by
  induction parts with
  | nil => rfl
  | cons part parts ih =>
      have first : part.fill? vars' = part.fill? vars := by
        cases part with
        | literal c => rfl
        | reference name => rw [Part.fill?, Part.fill?, same name List.mem_cons_self]
      rw [fill?_cons, fill?_cons, first, ih fun name mem => same name (List.mem_cons_of_mem _ mem)]

/-- Only variables to which a template refers make a difference to it. -/
theorem expand_congr {vars vars' : Variables} {template : String}
    (same : ∀ name, Refers template name → vars'.get? name = vars.get? name) :
    expand vars' template = expand vars template := by
  rw [expand_eq, expand_eq]
  cases reads : parts? none template.toList with
  | none => rfl
  | some parts =>
      obtain ⟨proper, spelt⟩ := parts?_eq_some_iff.1 reads
      have fills : fill? vars' parts = fill? vars parts := fill?_congr fun name mem =>
        same _ ⟨parts, proper, spelt, by rwa [String.toList_ofList]⟩
      rw [Option.bind_some, Option.bind_some, fills]

end ContractHost.Script.Template
