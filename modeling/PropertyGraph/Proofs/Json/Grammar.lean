/-
  PropertyGraph.Proofs.Json.Grammar
  ─────────────────────────────────
  **WHICH VALUES A TEXT SPELLS.**

  The grammar of JSON without a reader for it: no fuel, no limit on nesting,
  and nothing is taken as far as it goes.

    * A character of a string stands for itself, or is named by a letter, by
      its number or by a pair of surrogates (`SpellsChar`).
    * A number has the parts that JSON admits and the value that they have.
    * Around every value, at every level, there may be blanks (`Document`).

  Strings and numbers are read as the grammar has them (`readString_eq_some_iff`,
  `readNumeral_eq_some`); that whole values are is proved in
  `PropertyGraph.Proofs.Json.Document`.
-/
import PropertyGraph.Proofs.Json.FloatText
import PropertyGraph.Proofs.Json.String

namespace PropertyGraph.Json

open PropertyGraph.Text

/-! ## §1. The grammar. -/

/-- Blanks, of which there may be none. -/
def IsGap (gap : List Char) : Prop := ∀ c ∈ gap, isBlank c = true

/-- How a character is written inside quotes. -/
inductive SpellsChar : Char → List Char → Prop where
  | itself {c : Char} (quote : c ≠ '"') (slash : c ≠ '\\') (control : ¬ c.toNat < 0x20) :
      SpellsChar c [c]
  | letter {c d : Char} (named : unescape? d = some c) : SpellsChar c ['\\', d]
  | number {a b c d : Char} {n : Nat} (digits : hexValue4? a b c d = some n)
      (single : isSurrogate n = false) : SpellsChar (Char.ofNat n) ['\\', 'u', a, b, c, d]
  | pair {a b c d a' b' c' d' joined : Char} {high low : Nat}
      (first : hexValue4? a b c d = some high) (second : hexValue4? a' b' c' d' = some low)
      (join : pairChar? high low = some joined) :
      SpellsChar joined ['\\', 'u', a, b, c, d, '\\', 'u', a', b', c', d']

/-- The characters of a string, one after the other. -/
inductive SpellsChars : List Char → List Char → Prop where
  | nil : SpellsChars [] []
  | cons {c : Char} {cs first rest : List Char} (head : SpellsChar c first)
      (tail : SpellsChars cs rest) : SpellsChars (c :: cs) (first ++ rest)

mutual

/-- A value from its first character to its last. -/
inductive Spells : Json → List Char → Prop where
  | null : Spells .null ['n', 'u', 'l', 'l']
  | truth : Spells (.bool true) ['t', 'r', 'u', 'e']
  | falsehood : Spells (.bool false) ['f', 'a', 'l', 's', 'e']
  | number {n : Numeral} {value : Json} (legal : LegalNumeral n)
      (value_of : ofNumeral? n = some value) : Spells value n.text
  | str {s : String} {inner : List Char} (chars : SpellsChars s.toList inner) :
      Spells (.str s) ('"' :: (inner ++ ['"']))
  | noItems {gap : List Char} (blank : IsGap gap) : Spells (.array []) ('[' :: (gap ++ [']']))
  | items {items : List Json} {inner : List Char} (listed : SpellsItems items inner) :
      Spells (.array items) ('[' :: (inner ++ [']']))
  | noMembers {gap : List Char} (blank : IsGap gap) :
      Spells (.object []) ('\x7b' :: (gap ++ ['\x7d']))
  | members {members : List (String × Json)} {inner : List Char}
      (listed : SpellsMembers members inner) :
      Spells (.object members) ('\x7b' :: (inner ++ ['\x7d']))

/-- A value with blanks around it: a whole text, or what stands between two
marks. -/
inductive Document : Json → List Char → Prop where
  | around {value : Json} {before inner after : List Char} (blank_before : IsGap before)
      (spelled : Spells value inner) (blank_after : IsGap after) :
      Document value (before ++ (inner ++ after))

/-- One or more items with commas between them. -/
inductive SpellsItems : List Json → List Char → Prop where
  | last {item : Json} {text : List Char} (document : Document item text) :
      SpellsItems [item] text
  | comma {item : Json} {items : List Json} {text more : List Char}
      (document : Document item text) (listed : SpellsItems items more) :
      SpellsItems (item :: items) (text ++ ',' :: more)

/-- One or more members with commas between them, each a string, a colon and a
value. -/
inductive SpellsMembers : List (String × Json) → List Char → Prop where
  | last {name : String} {value : Json} {front text : List Char}
      (named : Document (.str name) front) (document : Document value text) :
      SpellsMembers [(name, value)] (front ++ ':' :: text)
  | comma {name : String} {value : Json} {members : List (String × Json)}
      {front text more : List Char} (named : Document (.str name) front)
      (document : Document value text) (listed : SpellsMembers members more) :
      SpellsMembers ((name, value) :: members) (front ++ ':' :: (text ++ ',' :: more))

end

/-! ## §2. Blanks. -/

/-- Blanks in front are skipped. -/
theorem IsGap.skipBlanks_append {gap : List Char} (h : IsGap gap) (text : List Char) :
    skipBlanks (gap ++ text) = skipBlanks text :=
  List.dropWhile_append_of_pos h

/-- What is skipped is blank. -/
theorem exists_gap (text : List Char) : ∃ gap, IsGap gap ∧ text = gap ++ skipBlanks text :=
  ⟨text.takeWhile isBlank, forall_mem_takeWhile isBlank text,
    List.takeWhile_append_dropWhile.symm⟩

/-- A text in front of which there are blanks, up to a mark. -/
theorem exists_gap_of_skipBlanks {text rest : List Char} (h : skipBlanks text = rest) :
    ∃ gap, IsGap gap ∧ text = gap ++ rest := by
  obtain ⟨gap, hgap, htext⟩ := exists_gap text
  exact ⟨gap, hgap, h ▸ htext⟩

/-! ## §3. Strings. -/

theorem readChar_letter {c d : Char} {text : List Char} (h : unescape? d = some c) :
    readChar ('\\' :: d :: text) = some (c, text) := by
  unfold readChar
  split
  next heq =>
    -- `u` is no letter of an escape
    obtain ⟨-, heq⟩ := List.cons.inj heq
    obtain ⟨rfl, -⟩ := List.cons.inj heq
    cases h
  next heq =>
    obtain ⟨-, heq⟩ := List.cons.inj heq
    obtain ⟨rfl, rfl⟩ := List.cons.inj heq
    rw [h]
    rfl
  next hslash heq =>
    obtain ⟨rfl, rfl⟩ := List.cons.inj heq
    exact absurd rfl (hslash _ _ rfl)
  next heq => cases heq

theorem isSurrogate_of_pairChar? {high low : Nat} {c : Char} (h : pairChar? high low = some c) :
    isSurrogate high = true := by
  unfold pairChar? at h
  split at h
  next hrange =>
    unfold isSurrogate
    rw [Bool.and_eq_true, decide_eq_true_eq, decide_eq_true_eq]
    omega
  next => cases h

theorem readChar_pair {a b c d a' b' c' d' joined : Char} {high low : Nat} {text : List Char}
    (hfirst : hexValue4? a b c d = some high) (hsecond : hexValue4? a' b' c' d' = some low)
    (hjoin : pairChar? high low = some joined) :
    readChar ('\\' :: 'u' :: a :: b :: c :: d :: '\\' :: 'u' :: a' :: b' :: c' :: d' :: text)
      = some (joined, text) := by
  rw [readChar, hfirst]
  show (if isSurrogate high = true then
    (hexValue4? a' b' c' d').bind _ else _) = _
  rw [if_pos (isSurrogate_of_pairChar? hjoin), hsecond]
  show (pairChar? high low).bind _ = _
  rw [hjoin]
  rfl

/-- A spelled character is read, whatever follows it. -/
theorem SpellsChar.readChar {c : Char} {first : List Char} (h : SpellsChar c first)
    (rest : List Char) : readChar (first ++ rest) = some (c, rest) := by
  cases h with
  | itself _ hslash hcontrol => exact readChar_plain hslash hcontrol
  | letter hnamed => exact readChar_letter hnamed
  | number hdigits hsingle => exact readChar_unicode hdigits hsingle
  | pair hfirst hsecond hjoin => exact readChar_pair hfirst hsecond hjoin

/-- No character is spelled beginning with a quote. -/
theorem SpellsChar.begins {c : Char} {first : List Char} (h : SpellsChar c first) :
    ∃ d tail, first = d :: tail ∧ d ≠ '"' := by
  cases h with
  | itself hquote => exact ⟨c, [], rfl, hquote⟩
  | letter | number | pair => exact ⟨'\\', _, rfl, by decide⟩

theorem SpellsChars.length_le {cs inner : List Char} (h : SpellsChars cs inner) :
    cs.length ≤ inner.length := by
  induction h with
  | nil => exact Nat.le_refl 0
  | cons head _ ih =>
    obtain ⟨d, tail, rfl, -⟩ := head.begins
    simp only [List.length_append, List.length_cons]
    omega

/-- Spelled characters are read up to the closing quote. -/
theorem SpellsChars.readChars {cs inner : List Char} (h : SpellsChars cs inner)
    (rest : List Char) : ∀ {fuel : Nat}, cs.length < fuel →
      readChars fuel (inner ++ '"' :: rest) = some (cs, rest) := by
  induction h with
  | nil =>
    intro fuel hfuel
    cases fuel with
    | zero => exact absurd hfuel (Nat.not_lt_zero _)
    | succ fuel => rfl
  | @cons c cs first more head tail ih =>
    intro fuel hfuel
    cases fuel with
    | zero => exact absurd hfuel (Nat.not_lt_zero _)
    | succ fuel =>
      have hread := head.readChar (more ++ '"' :: rest)
      obtain ⟨d, tail, rfl, hd⟩ := head.begins
      rw [List.append_assoc]
      rw [List.cons_append] at hread ⊢
      rw [readChars_cons hd, hread, Option.bind_some]
      dsimp only
      rw [ih (Nat.lt_of_succ_lt_succ hfuel)]
      rfl

/-- A character that was read stood there.  A backslash at the very end is read
as itself. -/
theorem spellsChar_of_readChar {text rest : List Char} {c : Char}
    (h : readChar text = some (c, rest)) (hquote : ∀ tail, text ≠ '"' :: tail) :
    (∃ first, SpellsChar c first ∧ text = first ++ rest) ∨ rest = [] := by
  unfold readChar at h
  split at h
  next a b x d tail =>
    obtain ⟨n, hdigits, h⟩ := Option.bind_eq_some_iff.1 h
    split at h
    next hsurrogate =>
      split at h
      next a' b' x' d' last =>
        obtain ⟨low, hsecond, h⟩ := Option.bind_eq_some_iff.1 h
        obtain ⟨joined, hjoin, h⟩ := Option.bind_eq_some_iff.1 h
        obtain ⟨rfl, rfl⟩ := Prod.mk.inj (Option.some.inj h)
        exact .inl ⟨_, .pair hdigits hsecond hjoin, rfl⟩
      next => cases h
    next hsingle =>
      obtain ⟨rfl, rfl⟩ := Prod.mk.inj (Option.some.inj h)
      exact .inl ⟨_, .number hdigits (Bool.not_eq_true _ ▸ hsingle), rfl⟩
  next d tail _ =>
    obtain ⟨named, hnamed, heq⟩ := Option.map_eq_some_iff.1 h
    obtain ⟨rfl, rfl⟩ := Prod.mk.inj heq
    exact .inl ⟨_, .letter hnamed, rfl⟩
  next d tail _ hslash =>
    split at h
    next => cases h
    next hcontrol =>
      obtain ⟨rfl, rfl⟩ := Prod.mk.inj (Option.some.inj h)
      by_cases hd : d = '\\'
      · cases tail with
        | nil => exact .inr rfl
        | cons e more => exact absurd hd (fun heq => hslash e more heq rfl)
      · exact .inl ⟨[d], .itself (fun heq => hquote tail (heq ▸ rfl)) hd hcontrol, rfl⟩
  next => cases h

/-- Characters that were read up to a quote stood there. -/
theorem spellsChars_of_readChars : ∀ {fuel : Nat} {text cs rest : List Char},
    readChars fuel text = some (cs, rest) →
      ∃ inner, SpellsChars cs inner ∧ text = inner ++ '"' :: rest := by
  intro fuel
  induction fuel with
  | zero =>
    intro text cs rest h
    cases h
  | succ fuel ih =>
    intro text cs rest h
    cases text with
    | nil =>
      cases h
    | cons c tail =>
      by_cases hc : c = '"'
      · subst hc
        obtain ⟨rfl, rfl⟩ := Prod.mk.inj (Option.some.inj h)
        exact ⟨[], .nil, rfl⟩
      · rw [readChars_cons hc] at h
        obtain ⟨⟨d, left⟩, hread, h⟩ := Option.bind_eq_some_iff.1 h
        obtain ⟨⟨ds, last⟩, hmore, h⟩ := Option.bind_eq_some_iff.1 h
        obtain ⟨rfl, rfl⟩ := Prod.mk.inj (Option.some.inj h)
        obtain ⟨inner, hinner, rfl⟩ := ih hmore
        have hquote : ∀ tail', c :: tail ≠ '"' :: tail' := fun _ heq => hc (List.cons.inj heq).1
        obtain ⟨first, hfirst, htext⟩ | hend := spellsChar_of_readChar hread hquote
        · exact ⟨first ++ inner, .cons hfirst hinner, by rw [htext, List.append_assoc]⟩
        · exact absurd hend (by simp)

/-- **A string is read as the grammar has it**, up to its closing quote. -/
theorem readString_eq_some_iff {text rest : List Char} {s : String} :
    readString text = some (s, rest)
      ↔ ∃ inner, SpellsChars s.toList inner ∧ text = inner ++ '"' :: rest := by
  constructor
  · intro h
    obtain ⟨⟨cs, left⟩, hread, h⟩ := Option.bind_eq_some_iff.1 h
    obtain ⟨rfl, rfl⟩ := Prod.mk.inj (Option.some.inj h)
    rw [String.toList_ofList]
    exact spellsChars_of_readChars hread
  · rintro ⟨inner, hinner, rfl⟩
    have hlength := hinner.length_le
    unfold readString
    rw [hinner.readChars rest (by rw [List.length_append]; omega)]
    show some (String.ofList s.toList, rest) = some (s, rest)
    rw [String.ofList_toList]

/-! ## §4. Numbers. -/

theorem readWhole_eq_some {text whole rest : List Char} (h : readWhole text = some (whole, rest)) :
    text = whole ++ rest ∧ (whole = ['0'] ∨ ∃ c digits, whole = c :: digits ∧ c ≠ '0')
      ∧ ∀ c ∈ whole, c.isDigit = true := by
  by_cases hzero : ∃ tail, text = '0' :: tail
  · obtain ⟨tail, rfl⟩ := hzero
    obtain ⟨rfl, rfl⟩ := Prod.mk.inj (Option.some.inj h)
    refine ⟨rfl, .inl rfl, ?_⟩
    intro c hc
    rw [List.mem_singleton.1 hc]
    rfl
  · have hne : ∀ tail, text ≠ '0' :: tail := fun tail heq => hzero ⟨tail, heq⟩
    rw [readWhole_of_ne hne] at h
    split at h
    next => cases h
    next hsome =>
      obtain ⟨rfl, rfl⟩ := Prod.mk.inj (Option.some.inj h)
      refine ⟨List.takeWhile_append_dropWhile.symm, .inr ?_, forall_mem_takeWhile _ text⟩
      cases hdigits : text.takeWhile Char.isDigit with
      | nil => exact absurd (List.isEmpty_iff.2 hdigits) hsome
      | cons c digits =>
        refine ⟨c, digits, rfl, fun heq => ?_⟩
        have htext : text = text.takeWhile Char.isDigit ++ text.dropWhile Char.isDigit :=
          List.takeWhile_append_dropWhile.symm
        rw [hdigits, heq] at htext
        exact hne _ htext

theorem readFraction_eq_some {text rest : List Char} {fraction : Option (List Char)}
    (h : readFraction text = some (fraction, rest)) :
    text = fractionText fraction ++ rest
      ∧ ∀ digits, fraction = some digits → digits ≠ [] ∧ ∀ c ∈ digits, c.isDigit = true := by
  unfold readFraction at h
  split at h
  next tail =>
    dsimp only at h
    split at h
    next => cases h
    next hsome =>
      obtain ⟨rfl, rfl⟩ := Prod.mk.inj (Option.some.inj h)
      constructor
      · show '.' :: tail = '.' :: (_ ++ _)
        rw [List.takeWhile_append_dropWhile]
      · intro digits heq
        obtain rfl := Option.some.inj heq
        exact ⟨fun hempty => hsome (List.isEmpty_iff.2 hempty), forall_mem_takeWhile _ tail⟩
  next =>
    obtain ⟨rfl, rfl⟩ := Prod.mk.inj (Option.some.inj h)
    refine ⟨rfl, ?_⟩
    intro digits heq
    cases heq

theorem readPower_eq_some {text rest : List Char} {power : Option PowerOfTen}
    (h : readPower text = some (power, rest)) :
    text = powerText power ++ rest ∧ ∀ p, power = some p →
      (p.mark = 'e' ∨ p.mark = 'E') ∧ p.digits ≠ [] ∧ ∀ c ∈ p.digits, c.isDigit = true := by
  unfold readPower at h
  split at h
  next c tail =>
    split at h
    next hmark =>
      have htail := signMark_text_read tail
      dsimp only at h
      split at h
      next => cases h
      next hsome =>
        obtain ⟨rfl, rfl⟩ := Prod.mk.inj (Option.some.inj h)
        constructor
        · show c :: tail = c :: (_ ++ _ ++ _)
          rw [List.append_assoc, List.takeWhile_append_dropWhile, htail]
        · intro p heq
          obtain rfl := Option.some.inj heq
          exact ⟨hmark, fun hempty => hsome (List.isEmpty_iff.2 hempty), forall_mem_takeWhile _ _⟩
    next =>
      obtain ⟨rfl, rfl⟩ := Prod.mk.inj (Option.some.inj h)
      refine ⟨rfl, ?_⟩
      intro p heq
      cases heq
  next =>
    obtain ⟨rfl, rfl⟩ := Prod.mk.inj (Option.some.inj h)
    refine ⟨rfl, ?_⟩
    intro p heq
    cases heq

theorem readUnsigned_eq_some {sign : SignMark} {text rest : List Char} {n : Numeral}
    (hsign : sign ≠ .plus) (h : readUnsigned sign text = some (n, rest)) :
    LegalNumeral n ∧ sign.text ++ text = n.text ++ rest := by
  unfold readUnsigned at h
  obtain ⟨⟨whole, afterWhole⟩, hwhole, h⟩ := Option.bind_eq_some_iff.1 h
  obtain ⟨⟨fraction, afterFraction⟩, hfraction, h⟩ := Option.bind_eq_some_iff.1 h
  obtain ⟨⟨power, afterPower⟩, hpower, h⟩ := Option.bind_eq_some_iff.1 h
  obtain ⟨rfl, rfl⟩ := Prod.mk.inj (Option.some.inj h)
  obtain ⟨rfl, hform, hdigits⟩ := readWhole_eq_some hwhole
  obtain ⟨rfl, hpoint⟩ := readFraction_eq_some hfraction
  obtain ⟨rfl, hmark⟩ := readPower_eq_some hpower
  refine ⟨⟨hsign, hform, hdigits, hpoint, hmark⟩, ?_⟩
  rw [numeral_text]
  simp only [List.append_assoc]

/-- **A number that was read** is a legal one, and it stood there. -/
theorem readNumeral_eq_some {text rest : List Char} {n : Numeral}
    (h : readNumeral text = some (n, rest)) : LegalNumeral n ∧ text = n.text ++ rest := by
  by_cases hminus : ∃ tail, text = '-' :: tail
  · obtain ⟨tail, rfl⟩ := hminus
    exact readUnsigned_eq_some (show SignMark.minus ≠ .plus by decide) h
  · rw [readNumeral_of_ne (fun tail heq => hminus ⟨tail, heq⟩)] at h
    exact readUnsigned_eq_some (show SignMark.absent ≠ .plus by decide) h

/-- A legal number begins with a digit or a minus sign. -/
theorem LegalNumeral.begins {n : Numeral} (h : LegalNumeral n) :
    ∃ c tail, n.text = c :: tail ∧ beginsNumber c = true := by
  rw [numeral_text]
  cases hsign : n.sign with
  | plus => exact absurd hsign h.sign
  | minus => exact ⟨'-', _, rfl, rfl⟩
  | absent =>
    have hwhole : ∃ c digits, n.whole = c :: digits := by
      obtain hzero | ⟨c, digits, hdigits, -⟩ := h.whole
      · exact ⟨'0', [], hzero⟩
      · exact ⟨c, digits, hdigits⟩
    obtain ⟨c, digits, hdigits⟩ := hwhole
    have hc : c.isDigit = true := h.whole_digits c (hdigits ▸ List.mem_cons_self)
    rw [hdigits]
    exact ⟨c, _, rfl, by rw [beginsNumber, hc, Bool.true_or]⟩

end PropertyGraph.Json
