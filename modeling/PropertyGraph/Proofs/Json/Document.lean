/-
  PropertyGraph.Proofs.Json.Document
  ──────────────────────────────────
  **THE READER READS THE GRAMMAR.**

  A text is read as a value if and only if it spells the value, with any blanks
  between its parts, and the value is nested within the limit
  (`parse_eq_some_iff_document`).  So what a text spells is one value
  (`Document.unique`), and how it is spelled makes no difference.

  Both directions go by induction on the fuel, with the three readers together:
  what is spelled is read (`ReadersRead`), where the fuel is twice the length of
  what is left; and what is read is spelled (`ReadersSpell`).
-/
import PropertyGraph.Proofs.Json.Depth
import PropertyGraph.Proofs.Json.Grammar

namespace PropertyGraph.Json

open PropertyGraph.Text

/-! ## §1. What a spelled value begins with. -/

theorem Spells.begins {value : Json} {text : List Char} (h : Spells value text) :
    ∃ c tail, text = c :: tail ∧ beginsValue c = true := by
  cases h with
  | number hlegal =>
    obtain ⟨c, tail, htext, hc⟩ := hlegal.begins
    exact ⟨c, tail, htext, by rw [beginsValue, hc, Bool.true_or]⟩
  | null | truth | falsehood | str | noItems | items | noMembers | members =>
    exact ⟨_, _, rfl, rfl⟩

theorem Document.begins {value : Json} {text : List Char} (h : Document value text)
    (rest : List Char) : ∃ c tail, skipBlanks (text ++ rest) = c :: tail ∧ beginsValue c = true := by
  obtain ⟨hbefore, hspelled, -⟩ := h
  obtain ⟨c, tail, rfl, hc⟩ := hspelled.begins
  rw [List.append_assoc, hbefore.skipBlanks_append]
  exact ⟨c, _, skipBlanks_of_not_blank (beginsValue_ne hc).1, hc⟩

theorem Document.length_pos {value : Json} {text : List Char} (h : Document value text) :
    0 < text.length := by
  obtain ⟨-, hspelled, -⟩ := h
  obtain ⟨c, tail, rfl, -⟩ := hspelled.begins
  simp only [List.length_append, List.length_cons]
  omega

theorem SpellsItems.begins {items : List Json} {text : List Char} (h : SpellsItems items text)
    (rest : List Char) : ∃ c tail, skipBlanks (text ++ rest) = c :: tail ∧ beginsValue c = true := by
  cases h with
  | last hdocument => exact hdocument.begins rest
  | comma hdocument =>
    rw [List.append_assoc]
    exact hdocument.begins _

/-- Only a string begins with a quote, so a name is spelled as one. -/
theorem Document.exists_name {name : String} {front : List Char}
    (h : Document (.str name) front) : ∃ before inner after, IsGap before
      ∧ SpellsChars name.toList inner ∧ IsGap after
      ∧ front = before ++ ('"' :: (inner ++ '"' :: after)) := by
  cases h with
  | @around _ before inner after hbefore hspelled hafter =>
    cases hspelled with
    | number _ hvalue =>
      unfold ofNumeral? at hvalue
      split at hvalue
      next => cases hvalue
      next =>
        obtain ⟨x, -, heq⟩ := Option.map_eq_some_iff.1 hvalue
        cases heq
    | @str _ chars hchars =>
      refine ⟨before, chars, after, hbefore, hchars, hafter, ?_⟩
      rw [List.cons_append, List.append_assoc]
      rfl

theorem SpellsMembers.begins {members : List (String × Json)} {text : List Char}
    (h : SpellsMembers members text) (rest : List Char) :
    ∃ tail, skipBlanks (text ++ rest) = '"' :: tail := by
  have hfront : ∀ {name front} (more : List Char), Document (.str name) front →
      ∃ tail, skipBlanks (front ++ more ++ rest) = '"' :: tail := by
    intro name front more hname
    obtain ⟨before, inner, after, hbefore, -, -, rfl⟩ := hname.exists_name
    rw [List.append_assoc, List.append_assoc, hbefore.skipBlanks_append]
    exact ⟨_, rfl⟩
  cases h with
  | last hname => exact hfront _ hname
  | comma hname => exact hfront _ hname

/-- Blanks and a mark end the value before them. -/
theorem IsGap.endsValue {gap rest : List Char} (h : IsGap gap) (hrest : EndsValue rest) :
    EndsValue (gap ++ rest) := by
  cases gap with
  | nil => exact hrest
  | cons c tail =>
    intro d more heq
    obtain ⟨rfl, -⟩ := List.cons.inj heq
    exact .inl (h c List.mem_cons_self)

/-! ## §2. Parts that have been read. -/

section

variable {fuel limit : Nat} {text left more rest : List Char}

/-- Further items stand after a comma. -/
theorem readItems_next {item : Json} {items : List Json}
    (hitem : readValue fuel limit text = some (item, left))
    (hcomma : skipBlanks left = ',' :: more)
    (hmore : readItems fuel limit more = some (items, rest)) :
    readItems (fuel + 1) limit text = some (item :: items, rest) := by
  rw [readItems, hitem]
  dsimp only [Option.bind_eq_bind, Option.bind_some]
  rw [hcomma]
  exact (congrArg (Option.bind · _) hmore).trans rfl

/-- The value of the last member stands before the closing brace. -/
theorem membersFrom_last {name : String} {value : Json}
    (hvalue : readValue fuel limit text = some (value, left))
    (hclose : skipBlanks left = '\x7d' :: rest) :
    membersFrom fuel name text limit = some ([(name, value)], rest) := by
  rw [membersFrom, hvalue, Option.bind_some]
  dsimp only
  rw [hclose]
  rfl

/-- Further members stand after a comma. -/
theorem membersFrom_next {name : String} {value : Json} {members : List (String × Json)}
    (hvalue : readValue fuel limit text = some (value, left))
    (hcomma : skipBlanks left = ',' :: more)
    (hmore : readMembers fuel limit more = some (members, rest)) :
    membersFrom fuel name text limit = some ((name, value) :: members, rest) := by
  rw [membersFrom, hvalue, Option.bind_some]
  dsimp only
  rw [hcomma]
  exact (congrArg (Option.bind · _) hmore).trans rfl

/-- A name, with blanks around it, and a colon. -/
theorem readMembers_document {name : String} {front : List Char}
    (h : Document (.str name) front) (text : List Char) (limit : Nat) :
    readMembers (fuel + 1) limit (front ++ ':' :: text) = membersFrom fuel name text limit := by
  obtain ⟨before, inner, after, hbefore, hchars, hafter, rfl⟩ := h.exists_name
  have hquote : skipBlanks (before ++ ('"' :: (inner ++ '"' :: after)) ++ ':' :: text)
      = '"' :: (inner ++ '"' :: (after ++ ':' :: text)) := by
    rw [List.append_assoc, hbefore.skipBlanks_append, List.cons_append, List.append_assoc]
    rfl
  have hcolon : skipBlanks (after ++ ':' :: text) = ':' :: text :=
    hafter.skipBlanks_append (':' :: text)
  exact readMembers_colon hquote (readString_eq_some_iff.2 ⟨inner, hchars, rfl⟩) hcolon limit

end

/-! ## §3. What is spelled is read. -/

/-- With enough fuel, and within the limit, the three readers read what is
spelled. -/
structure ReadersRead (fuel : Nat) : Prop where
  value : ∀ {value text rest limit}, Document value text → value.depth ≤ limit →
    EndsValue rest → 2 * (text ++ rest).length ≤ fuel →
    ∃ left, readValue fuel limit (text ++ rest) = some (value, left)
      ∧ skipBlanks left = skipBlanks rest
  items : ∀ {items text rest limit}, SpellsItems items text → depthItems items ≤ limit →
    2 * (text ++ ']' :: rest).length + 1 ≤ fuel →
    readItems fuel limit (text ++ ']' :: rest) = some (items, rest)
  members : ∀ {members text rest limit}, SpellsMembers members text →
    depthMembers members ≤ limit → 2 * (text ++ '\x7d' :: rest).length + 1 ≤ fuel →
    readMembers fuel limit (text ++ '\x7d' :: rest) = some (members, rest)

theorem readersRead_zero : ReadersRead 0 where
  value {_ text rest _} hdocument _ _ hfuel := by
    have hlength := hdocument.length_pos
    rw [List.length_append] at hfuel
    omega
  items _ _ hfuel := absurd hfuel (Nat.not_succ_le_zero _)
  members _ _ hfuel := absurd hfuel (Nat.not_succ_le_zero _)

section

variable {fuel : Nat}

/-- The opening bracket pays for the step from an array to its items. -/
theorem ReadersRead.array_succ (h : ReadersRead fuel) {items : List Json}
    {inner rest : List Char} {limit : Nat} (hlisted : SpellsItems items inner)
    (hdepth : (array items).depth ≤ limit)
    (hfuel : 2 * ('[' :: (inner ++ ']' :: rest)).length ≤ fuel + 1) :
    readValue (fuel + 1) limit ('[' :: (inner ++ ']' :: rest)) = some (.array items, rest) := by
  cases limit with
  | zero => exact absurd hdepth (Nat.not_succ_le_zero _)
  | succ limit =>
    rw [List.length_cons] at hfuel
    obtain ⟨c, tail, hbegin, hc⟩ := hlisted.begins (']' :: rest)
    have hitems : readItems fuel limit (inner ++ ']' :: rest) = some (items, rest) :=
      h.items hlisted (Nat.le_of_succ_le_succ hdepth) (by omega)
    rw [readValue_bracket ⟨tail, hbegin⟩ (beginsValue_ne hc).2.1, hitems]
    rfl

/-- The opening brace pays for the step from an object to its members. -/
theorem ReadersRead.object_succ (h : ReadersRead fuel) {members : List (String × Json)}
    {inner rest : List Char} {limit : Nat} (hlisted : SpellsMembers members inner)
    (hdepth : (object members).depth ≤ limit)
    (hfuel : 2 * ('\x7b' :: (inner ++ '\x7d' :: rest)).length ≤ fuel + 1) :
    readValue (fuel + 1) limit ('\x7b' :: (inner ++ '\x7d' :: rest))
      = some (.object members, rest) := by
  cases limit with
  | zero => exact absurd hdepth (Nat.not_succ_le_zero _)
  | succ limit =>
    rw [List.length_cons] at hfuel
    have hmembers : readMembers fuel limit (inner ++ '\x7d' :: rest) = some (members, rest) :=
      h.members hlisted (Nat.le_of_succ_le_succ hdepth) (by omega)
    rw [readValue_brace (hlisted.begins ('\x7d' :: rest)) (by decide), hmembers]
    rfl

/-- An empty array and an empty object are read without another step, whatever
blanks are between the brackets. -/
theorem readValue_empty {gap rest : List Char} {limit : Nat} (hgap : IsGap gap)
    (hlimit : 1 ≤ limit) :
    readValue (fuel + 1) limit ('[' :: (gap ++ ']' :: rest)) = some (.array [], rest)
      ∧ readValue (fuel + 1) limit ('\x7b' :: (gap ++ '\x7d' :: rest))
        = some (.object [], rest) := by
  cases limit with
  | zero => exact absurd hlimit (Nat.not_succ_le_zero _)
  | succ limit =>
    have hbracket : skipBlanks (gap ++ ']' :: rest) = ']' :: rest :=
      hgap.skipBlanks_append (']' :: rest)
    have hbrace : skipBlanks (gap ++ '\x7d' :: rest) = '\x7d' :: rest :=
      hgap.skipBlanks_append ('\x7d' :: rest)
    constructor
    · rw [readValue_array rfl, inside, readItemsOrNone, hbracket]
      rfl
    · rw [readValue_object rfl, inside, readMembersOrNone, hbrace]
      rfl

/-- A value without blanks in front of it. -/
theorem ReadersRead.spells_succ (h : ReadersRead fuel) {value : Json} {text rest : List Char}
    {limit : Nat} (hspelled : Spells value text) (hdepth : value.depth ≤ limit)
    (hrest : EndsValue rest) (hfuel : 2 * (text ++ rest).length ≤ fuel + 1) :
    readValue (fuel + 1) limit (text ++ rest) = some (value, rest) := by
  -- the closing mark of a value stands in front of the rest
  have hclosed : ∀ (c d : Char) (inner : List Char),
      c :: (inner ++ [d]) ++ rest = c :: (inner ++ d :: rest) := by
    intro c d inner
    rw [List.cons_append, List.append_assoc]
    rfl
  cases hspelled with
  | null | truth | falsehood =>
    rw [readValue]
    rfl
  | number hlegal hvalue =>
    exact readValue_of_readNumeral hrest.endsNumber hlegal.begins (readNumeral_text hlegal) hvalue
  | @str s inner hchars =>
    rw [hclosed, readValue]
    show (readString (inner ++ '"' :: rest)).bind _ = _
    rw [readString_eq_some_iff.2 ⟨inner, hchars, rfl⟩]
    rfl
  | noItems hgap =>
    rw [hclosed]
    exact (readValue_empty hgap hdepth).1
  | noMembers hgap =>
    rw [hclosed]
    exact (readValue_empty hgap hdepth).2
  | items hlisted =>
    rw [hclosed] at hfuel ⊢
    exact h.array_succ hlisted hdepth hfuel
  | members hlisted =>
    rw [hclosed] at hfuel ⊢
    exact h.object_succ hlisted hdepth hfuel

theorem ReadersRead.value_succ (h : ReadersRead fuel) {value : Json} {text rest : List Char}
    {limit : Nat} (hdocument : Document value text) (hdepth : value.depth ≤ limit)
    (hrest : EndsValue rest) (hfuel : 2 * (text ++ rest).length ≤ fuel + 1) :
    ∃ left, readValue (fuel + 1) limit (text ++ rest) = some (value, left)
      ∧ skipBlanks left = skipBlanks rest := by
  cases hdocument with
  | @around _ before inner after hbefore hspelled hafter =>
    refine ⟨after ++ rest, ?_, hafter.skipBlanks_append rest⟩
    have htext : before ++ (inner ++ after) ++ rest = before ++ (inner ++ (after ++ rest)) := by
      simp only [List.append_assoc]
    rw [htext] at hfuel ⊢
    rw [← readValue_skipBlanks, hbefore.skipBlanks_append, readValue_skipBlanks]
    refine h.spells_succ hspelled hdepth (hafter.endsValue hrest) ?_
    rw [List.length_append] at hfuel
    omega

theorem ReadersRead.items_succ (h : ReadersRead fuel) {items : List Json} {text rest : List Char}
    {limit : Nat} (hlisted : SpellsItems items text) (hdepth : depthItems items ≤ limit)
    (hfuel : 2 * (text ++ ']' :: rest).length + 1 ≤ fuel + 1) :
    readItems (fuel + 1) limit (text ++ ']' :: rest) = some (items, rest) := by
  cases hlisted with
  | last hdocument =>
    obtain ⟨left, hread, hleft⟩ := h.value hdocument (Nat.max_le.1 hdepth).1
      (endsValue_cons (.inr (.inl rfl))) (Nat.le_of_succ_le_succ hfuel)
    exact readItems_last hread hleft
  | @comma item items front more hdocument hlisted =>
    have hlength := hdocument.length_pos
    rw [List.append_assoc, List.cons_append] at hfuel ⊢
    obtain ⟨left, hread, hleft⟩ := h.value hdocument (Nat.max_le.1 hdepth).1
      (endsValue_cons (.inl rfl)) (Nat.le_of_succ_le_succ hfuel)
    -- the item takes a character, and so does the comma
    have hmore : readItems fuel limit (more ++ ']' :: rest) = some (items, rest) :=
      h.items hlisted (Nat.max_le.1 hdepth).2 (by
        simp only [List.length_append, List.length_cons] at hfuel ⊢
        omega)
    exact readItems_next hread hleft hmore

theorem ReadersRead.members_succ (h : ReadersRead fuel) {members : List (String × Json)}
    {text rest : List Char} {limit : Nat} (hlisted : SpellsMembers members text)
    (hdepth : depthMembers members ≤ limit)
    (hfuel : 2 * (text ++ '\x7d' :: rest).length + 1 ≤ fuel + 1) :
    readMembers (fuel + 1) limit (text ++ '\x7d' :: rest) = some (members, rest) := by
  cases hlisted with
  | @last name value front text hname hdocument =>
    rw [List.append_assoc, List.cons_append] at hfuel ⊢
    have hend : EndsValue ('\x7d' :: rest) := endsValue_cons (.inr (.inr rfl))
    obtain ⟨left, hread, hleft⟩ := h.value hdocument (Nat.max_le.1 hdepth).1 hend (by
      simp only [List.length_append, List.length_cons] at hfuel ⊢
      omega)
    rw [readMembers_document hname]
    exact membersFrom_last hread hleft
  | @comma name value members front text more hname hdocument hlisted =>
    have htext : front ++ ':' :: (text ++ ',' :: more) ++ '\x7d' :: rest
        = front ++ ':' :: (text ++ ',' :: (more ++ '\x7d' :: rest)) := by
      simp only [List.append_assoc, List.cons_append]
    rw [htext] at hfuel ⊢
    have hend : EndsValue (',' :: (more ++ '\x7d' :: rest)) := endsValue_cons (.inl rfl)
    obtain ⟨left, hread, hleft⟩ := h.value hdocument (Nat.max_le.1 hdepth).1 hend (by
      simp only [List.length_append, List.length_cons] at hfuel ⊢
      omega)
    -- colon and comma take a character each
    have hmore : readMembers fuel limit (more ++ '\x7d' :: rest) = some (members, rest) :=
      h.members hlisted (Nat.max_le.1 hdepth).2 (by
        simp only [List.length_append, List.length_cons] at hfuel ⊢
        omega)
    rw [readMembers_document hname]
    exact membersFrom_next hread hleft hmore

end

/-- **What is spelled is read.** -/
theorem readersRead (fuel : Nat) : ReadersRead fuel := by
  induction fuel with
  | zero => exact readersRead_zero
  | succ fuel ih => exact ⟨ih.value_succ, ih.items_succ, ih.members_succ⟩

/-! ## §4. What is read is spelled. -/

/-- What the three readers take off a text is spelled there. -/
structure ReadersSpell (fuel : Nat) : Prop where
  value : ∀ {limit text value rest}, readValue fuel limit text = some (value, rest) →
    ∃ before inner, IsGap before ∧ Spells value inner ∧ text = before ++ (inner ++ rest)
  items : ∀ {limit text items rest}, readItems fuel limit text = some (items, rest) →
    ∃ inner, SpellsItems items inner ∧ text = inner ++ ']' :: rest
  members : ∀ {limit text members rest}, readMembers fuel limit text = some (members, rest) →
    ∃ inner, SpellsMembers members inner ∧ text = inner ++ '\x7d' :: rest

theorem readersSpell_zero : ReadersSpell 0 where
  value h := by
    rw [readValue] at h
    cases h
  items h := by
    rw [readItems] at h
    cases h
  members h := by
    rw [readMembers] at h
    cases h

section

variable {fuel : Nat}

/-- A value that was read and the blanks up to the next mark. -/
theorem ReadersSpell.document (h : ReadersSpell fuel) {limit : Nat} {value : Json}
    {text left rest : List Char} (hread : readValue fuel limit text = some (value, left))
    (hleft : skipBlanks left = rest) : ∃ inner, Document value inner ∧ text = inner ++ rest := by
  obtain ⟨before, inner, hbefore, hspelled, rfl⟩ := h.value hread
  obtain ⟨after, hafter, rfl⟩ := exists_gap_of_skipBlanks hleft
  exact ⟨before ++ (inner ++ after), .around hbefore hspelled hafter, by
    simp only [List.append_assoc]⟩

theorem ReadersSpell.array (h : ReadersSpell fuel) {limit : Nat} {text rest : List Char}
    {items : List Json} (hread : readItemsOrNone fuel text limit = some (items, rest)) :
    ∃ inner, Spells (.array items) ('[' :: (inner ++ [']'])) ∧ text = inner ++ ']' :: rest := by
  unfold readItemsOrNone at hread
  split at hread
  next hclose =>
    obtain ⟨rfl, rfl⟩ := Prod.mk.inj (Option.some.inj hread)
    obtain ⟨gap, hgap, rfl⟩ := exists_gap_of_skipBlanks hclose
    exact ⟨gap, .noItems hgap, rfl⟩
  next =>
    rw [readItems_skipBlanks] at hread
    obtain ⟨inner, hlisted, rfl⟩ := h.items hread
    exact ⟨inner, .items hlisted, rfl⟩

theorem ReadersSpell.object (h : ReadersSpell fuel) {limit : Nat} {text rest : List Char}
    {members : List (String × Json)}
    (hread : readMembersOrNone fuel text limit = some (members, rest)) :
    ∃ inner, Spells (.object members) ('\x7b' :: (inner ++ ['\x7d']))
      ∧ text = inner ++ '\x7d' :: rest := by
  unfold readMembersOrNone at hread
  split at hread
  next hclose =>
    obtain ⟨rfl, rfl⟩ := Prod.mk.inj (Option.some.inj hread)
    obtain ⟨gap, hgap, rfl⟩ := exists_gap_of_skipBlanks hclose
    exact ⟨gap, .noMembers hgap, rfl⟩
  next =>
    rw [readMembers_skipBlanks] at hread
    obtain ⟨inner, hlisted, rfl⟩ := h.members hread
    exact ⟨inner, .members hlisted, rfl⟩

/-- Outside of brackets a value is spelled whatever the fuel is. -/
theorem exists_spells_of_no_bracket {limit : Nat} {text rest : List Char} {value : Json}
    (hbracket : ∀ tail, skipBlanks text ≠ '[' :: tail)
    (hbrace : ∀ tail, skipBlanks text ≠ '\x7b' :: tail)
    (hread : readValue (fuel + 1) limit text = some (value, rest)) :
    ∃ inner, Spells value inner ∧ skipBlanks text = inner ++ rest := by
  rw [readValue] at hread
  split at hread
  next tail hquote =>
    obtain ⟨⟨s, left⟩, hstring, hread⟩ := Option.bind_eq_some_iff.1 hread
    obtain ⟨rfl, rfl⟩ := Prod.mk.inj (Option.some.inj hread)
    obtain ⟨inner, hchars, rfl⟩ := readString_eq_some_iff.1 hstring
    exact ⟨_, .str hchars, by rw [hquote, List.cons_append, List.append_assoc]; rfl⟩
  next tail heq => exact absurd heq (hbracket tail)
  next tail heq => exact absurd heq (hbrace tail)
  next tail hnull =>
    obtain ⟨rfl, rfl⟩ := Prod.mk.inj (Option.some.inj hread)
    exact ⟨_, .null, hnull⟩
  next tail htrue =>
    obtain ⟨rfl, rfl⟩ := Prod.mk.inj (Option.some.inj hread)
    exact ⟨_, .truth, htrue⟩
  next tail hfalse =>
    obtain ⟨rfl, rfl⟩ := Prod.mk.inj (Option.some.inj hread)
    exact ⟨_, .falsehood, hfalse⟩
  next =>
    obtain ⟨⟨n, left⟩, hnumeral, hread⟩ := Option.bind_eq_some_iff.1 hread
    obtain ⟨number, hnumber, hread⟩ := Option.bind_eq_some_iff.1 hread
    obtain ⟨rfl, rfl⟩ := Prod.mk.inj (Option.some.inj hread)
    obtain ⟨hlegal, hstands⟩ := readNumeral_eq_some hnumeral
    exact ⟨_, .number hlegal hnumber, hstands⟩

theorem ReadersSpell.value_succ (h : ReadersSpell fuel) {limit : Nat} {text rest : List Char}
    {value : Json} (hread : readValue (fuel + 1) limit text = some (value, rest)) :
    ∃ before inner, IsGap before ∧ Spells value inner ∧ text = before ++ (inner ++ rest) := by
  obtain ⟨before, hbefore, htext⟩ := exists_gap text
  suffices hinner : ∃ inner, Spells value inner ∧ skipBlanks text = inner ++ rest by
    obtain ⟨inner, hspelled, hskipped⟩ := hinner
    exact ⟨before, inner, hbefore, hspelled, by rw [← hskipped]; exact htext⟩
  by_cases hbracket : ∃ tail, skipBlanks text = '[' :: tail
  · obtain ⟨tail, hbracket⟩ := hbracket
    rw [readValue_array hbracket] at hread
    cases limit with
    | zero => cases hread
    | succ limit =>
      obtain ⟨⟨items, left⟩, hitems, heq⟩ := Option.map_eq_some_iff.1 hread
      obtain ⟨rfl, rfl⟩ := Prod.mk.inj heq
      obtain ⟨inner, hspelled, rfl⟩ := h.array hitems
      exact ⟨_, hspelled, by rw [hbracket, List.cons_append, List.append_assoc]; rfl⟩
  by_cases hbrace : ∃ tail, skipBlanks text = '\x7b' :: tail
  · obtain ⟨tail, hbrace⟩ := hbrace
    rw [readValue_object hbrace] at hread
    cases limit with
    | zero => cases hread
    | succ limit =>
      obtain ⟨⟨members, left⟩, hmembers, heq⟩ := Option.map_eq_some_iff.1 hread
      obtain ⟨rfl, rfl⟩ := Prod.mk.inj heq
      obtain ⟨inner, hspelled, rfl⟩ := h.object hmembers
      exact ⟨_, hspelled, by rw [hbrace, List.cons_append, List.append_assoc]; rfl⟩
  exact exists_spells_of_no_bracket (not_exists.1 hbracket) (not_exists.1 hbrace) hread

theorem ReadersSpell.items_succ (h : ReadersSpell fuel) {limit : Nat} {text rest : List Char}
    {items : List Json} (hread : readItems (fuel + 1) limit text = some (items, rest)) :
    ∃ inner, SpellsItems items inner ∧ text = inner ++ ']' :: rest := by
  rw [readItems] at hread
  obtain ⟨⟨item, left⟩, hitem, hread⟩ := Option.bind_eq_some_iff.1 hread
  dsimp only at hread
  split at hread
  next tail hclose =>
    obtain ⟨rfl, rfl⟩ := Prod.mk.inj (Option.some.inj hread)
    obtain ⟨inner, hdocument, rfl⟩ := h.document hitem hclose
    exact ⟨inner, .last hdocument, rfl⟩
  next tail hcomma =>
    obtain ⟨⟨more, last⟩, hmore, hread⟩ := Option.bind_eq_some_iff.1 hread
    obtain ⟨rfl, rfl⟩ := Prod.mk.inj (Option.some.inj hread)
    obtain ⟨inner, hdocument, rfl⟩ := h.document hitem hcomma
    obtain ⟨others, hlisted, rfl⟩ := h.items hmore
    exact ⟨_, .comma hdocument hlisted, by rw [List.append_assoc, List.cons_append]⟩
  next => cases hread

/-- Members that were read begin with a name and a colon. -/
theorem exists_name_of_readMembers {limit : Nat} {text rest : List Char}
    {members : List (String × Json)}
    (hread : readMembers (fuel + 1) limit text = some (members, rest)) :
    ∃ name front after, Document (.str name) front ∧ text = front ++ ':' :: after
      ∧ membersFrom fuel name after limit = some (members, rest) := by
  rw [readMembers] at hread
  split at hread
  next tail hquote =>
    obtain ⟨⟨name, left⟩, hname, hread⟩ := Option.bind_eq_some_iff.1 hread
    dsimp only at hread
    split at hread
    next after hcolon =>
      obtain ⟨before, hbefore, htext⟩ := exists_gap_of_skipBlanks hquote
      obtain ⟨inner, hchars, htail⟩ := readString_eq_some_iff.1 hname
      obtain ⟨between, hbetween, hleft⟩ := exists_gap_of_skipBlanks hcolon
      refine ⟨name, before ++ ('"' :: (inner ++ ['"']) ++ between), after,
        .around hbefore (.str hchars) hbetween, ?_, hread⟩
      rw [htext, htail, hleft]
      simp only [List.append_assoc, List.cons_append, List.nil_append]
    next => cases hread
  next => cases hread

theorem ReadersSpell.members_succ (h : ReadersSpell fuel) {limit : Nat} {text rest : List Char}
    {members : List (String × Json)}
    (hread : readMembers (fuel + 1) limit text = some (members, rest)) :
    ∃ inner, SpellsMembers members inner ∧ text = inner ++ '\x7d' :: rest := by
  obtain ⟨name, front, after, hnamed, rfl, hfrom⟩ := exists_name_of_readMembers hread
  unfold membersFrom at hfrom
  obtain ⟨⟨value, left⟩, hvalue, hfrom⟩ := Option.bind_eq_some_iff.1 hfrom
  dsimp only at hfrom
  split at hfrom
  next tail hclose =>
    obtain ⟨rfl, rfl⟩ := Prod.mk.inj (Option.some.inj hfrom)
    obtain ⟨inner, hdocument, rfl⟩ := h.document hvalue hclose
    exact ⟨_, .last hnamed hdocument, by rw [List.append_assoc, List.cons_append]⟩
  next tail hcomma =>
    obtain ⟨⟨more, last⟩, hmore, hfrom⟩ := Option.bind_eq_some_iff.1 hfrom
    obtain ⟨rfl, rfl⟩ := Prod.mk.inj (Option.some.inj hfrom)
    obtain ⟨inner, hdocument, rfl⟩ := h.document hvalue hcomma
    obtain ⟨others, hlisted, rfl⟩ := h.members hmore
    exact ⟨_, .comma hnamed hdocument hlisted, by
      simp only [List.append_assoc, List.cons_append]⟩
  next => cases hfrom

end

/-- **What is read is spelled.** -/
theorem readersSpell (fuel : Nat) : ReadersSpell fuel := by
  induction fuel with
  | zero => exact readersSpell_zero
  | succ fuel ih => exact ⟨ih.value_succ, ih.items_succ, ih.members_succ⟩

/-! ## §5. Whole texts. -/

/-- **A text is read as the value that it spells**, if the value is nested within
the limit, and as nothing else. -/
theorem parse_eq_some_iff_document {limit : Nat} {text : String} {value : Json} :
    parse limit text = some value ↔ Document value text.toList ∧ value.depth ≤ limit := by
  rw [parse_eq_some_iff]
  constructor
  · rintro ⟨rest, hread, hend⟩
    obtain ⟨inner, hdocument, htext⟩ :=
      (readersSpell _).document hread (List.isEmpty_iff.1 hend)
    rw [List.append_nil] at htext
    exact ⟨htext ▸ hdocument, ((readersWithin _).value _ limit value rest hread).1⟩
  · rintro ⟨hdocument, hdepth⟩
    obtain ⟨left, hread, hleft⟩ := (readersRead (2 * text.toList.length + 2)).value hdocument
      hdepth endsValue_nil (by rw [List.append_nil]; omega)
    rw [List.append_nil] at hread
    exact ⟨left, hread, List.isEmpty_iff.2 hleft⟩

/-- The text of a legible value spells it, in either layout. -/
theorem Legible.document {value : Json} (h : Legible value) (layout : Layout) :
    Document value (text layout value).toList :=
  (parse_eq_some_iff_document.1 (parse_text layout h (Nat.le_refl value.depth))).1

/-- A text spells one value at most. -/
theorem Document.unique {text : String} {value other : Json} (h : Document value text.toList)
    (hother : Document other text.toList) : value = other := by
  -- the larger of the two depths admits both
  have hvalue := parse_eq_some_iff_document.2 ⟨h, Nat.le_max_left value.depth other.depth⟩
  have hsame := parse_eq_some_iff_document.2 ⟨hother, Nat.le_max_right value.depth other.depth⟩
  exact Option.some.inj (hvalue.symm.trans hsame)

/-- A text whose value is nested too deeply is not read. -/
theorem Document.parse_eq_none {limit : Nat} {text : String} {value : Json}
    (h : Document value text.toList) (hdepth : limit < value.depth) : parse limit text = none := by
  refine Option.eq_none_iff_forall_ne_some.2 (fun other hother => ?_)
  obtain ⟨hdocument, hwithin⟩ := parse_eq_some_iff_document.1 hother
  obtain rfl := h.unique hdocument
  exact absurd hwithin (Nat.not_le_of_lt hdepth)

end PropertyGraph.Json
