/-
  PropertyGraph.Proofs.Query.Valueless
  ────────────────────────────────────
  **THE FIRST LITERAL WITHOUT A VALUE IS REPORTED.**

  Where the grammar accepts a text, one thing can still go wrong: a part of a
  literal has no value.  A number may be past the integers of 64 bits, or past
  the finite floats, and an escape may name a surrogate
  (`LiteralPart.Valueless`).

      parse_reportsFirst — the text is read exactly if no part is without
                           value; otherwise the first one is what is reported

  The parts are those of the tokens, in the order of the text.  A phrase has
  the literals of its tokens (`LiteralsOf`), and what is evaluated in that
  order stops at the first part without a value (`Reports`); either is shown
  for one way of putting phrases together at a time.
-/
import PropertyGraph.Proofs.Number.Decimal
import PropertyGraph.Proofs.Query.Language

namespace PropertyGraph.Query

open PropertyGraph.Text
open Reading (isBlank)

/-! ## §1. Parts of literals. -/

/-- Written with a point or a power of ten. -/
def ShowsFloat (n : Numeral) : Prop := '.' ∈ n.text ∨ 'e' ∈ n.text ∨ 'E' ∈ n.text

instance : DecidablePred ShowsFloat :=
  fun n => inferInstanceAs (Decidable ('.' ∈ n.text ∨ 'e' ∈ n.text ∨ 'E' ∈ n.text))

/-- Past the finite floats, or with neither point nor power of ten past the
integers of 64 bits. -/
def OutOfRange (n : Numeral) : Prop :=
  (ShowsFloat n ∧ Binary64.overflowBound * Nat.pow 10 (-n.exponent).toNat
      ≤ n.coefficient * Nat.pow 10 n.exponent.toNat)
    ∨ (¬ ShowsFloat n ∧ (n.toInt < -9223372036854775808 ∨ 9223372036854775807 < n.toInt))

instance : DecidablePred OutOfRange :=
  fun n => inferInstanceAs (Decidable ((ShowsFloat n ∧ _ ≤ _) ∨ (¬ ShowsFloat n ∧ (_ < _ ∨ _ < _))))

/-- A part of a literal: a number, or one character of a string. -/
inductive LiteralPart where
  | number (numeral : Numeral)
  | character (piece : StringPiece)

namespace LiteralPart

/-- The part as written. -/
def text : LiteralPart → List Char
  | .number n => n.text
  | .character piece => piece.text

/-- No value: a number out of range, or the escape of a surrogate. -/
def Valueless : LiteralPart → Prop
  | .number n => OutOfRange n
  | .character (.unicode a b c d) =>
    ∃ code ∈ hexValue4? a b c d, 0xD800 ≤ code ∧ code ≤ 0xDFFF
  | .character (.plain _) | .character (.short _) => False

instance : DecidablePred Valueless
  | .number n => inferInstanceAs (Decidable (OutOfRange n))
  | .character (.unicode a b c d) =>
    inferInstanceAs (Decidable (∃ code ∈ hexValue4? a b c d, 0xD800 ≤ code ∧ code ≤ 0xDFFF))
  | .character (.plain _) => inferInstanceAs (Decidable False)
  | .character (.short _) => inferInstanceAs (Decidable False)

end LiteralPart

/-- The parts of a literal in order. -/
def SpelledLiteral.parts : SpelledLiteral → List LiteralPart
  | .string pieces => pieces.map .character
  | .number n => [.number n]

/-- The parts of a token; only literals have any. -/
def Token.parts : Token → List LiteralPart
  | .literal l => l.parts
  | .keyword _ | .name _ | .mark _ => []

/-! ## §2. Evaluation up to the first part without a value. -/

/-- As the grammar admits it. -/
def LiteralPart.Legal : LiteralPart → Prop
  | .number n => LegalNumeral n
  | .character piece => piece.Legal

/-- Of these parts, if they are legal, the first one without a value is reported;
without such a part there is a result. -/
def Reports {α : Type} (parts : List LiteralPart) (x : Except InvalidLiteral α) : Prop :=
  (∀ part ∈ parts, part.Legal) →
    match parts.find? (fun part => part.Valueless) with
    | none => ∃ a, x = .ok a
    | some part => x = .error ⟨String.ofList part.text⟩

section

variable {α β : Type} {parts more : List LiteralPart}

theorem reports_ok (a : α) : Reports [] (.ok a) := fun _ => ⟨a, rfl⟩

theorem Reports.bind {x : Except InvalidLiteral α} {f : α → Except InvalidLiteral β}
    (h : Reports parts x) (hf : ∀ a, Reports more (f a)) : Reports (parts ++ more) (x >>= f) := by
  intro hlegal
  obtain ⟨hfirst, hlater⟩ := List.forall_mem_append.1 hlegal
  have hx := h hfirst
  rw [List.find?_append]
  cases hfind : parts.find? (fun part => part.Valueless) with
  | none =>
    rw [hfind] at hx
    obtain ⟨a, rfl⟩ := hx
    exact hf a hlater
  | some part =>
    rw [hfind] at hx
    rw [hx]
    rfl

theorem Reports.map {x : Except InvalidLiteral α} (h : Reports parts x) (f : α → β) :
    Reports parts (x >>= fun a => pure (f a)) := by
  have hpure : ∀ a, Reports [] (pure (f a) : Except InvalidLiteral β) := fun a => reports_ok (f a)
  have hbind := h.bind hpure
  rwa [List.append_nil] at hbind

/-- A list evaluated item by item reports the parts of its items in order. -/
theorem Reports.list (f : α → Except InvalidLiteral β)
    (go : List α → Except InvalidLiteral (List β)) {partsOf : α → List LiteralPart}
    (hnil : go [] = .ok [])
    (hcons : ∀ a rest, go (a :: rest) = do
      let b ← f a
      let bs ← go rest
      return b :: bs)
    (h : ∀ a, Reports (partsOf a) (f a)) (items : List α) :
    Reports (items.flatMap partsOf) (go items) := by
  induction items with
  | nil =>
    rw [hnil]
    exact reports_ok []
  | cons a rest ih =>
    rw [hcons, List.flatMap_cons]
    exact (h a).bind (fun b => ih.map (b :: ·))

/-- One part by itself. -/
theorem reports_singleton {part : LiteralPart} {x : Except InvalidLiteral α}
    (hvalue : part.Legal → ¬ part.Valueless → ∃ a, x = .ok a)
    (hnone : part.Legal → part.Valueless → x = .error ⟨String.ofList part.text⟩) :
    Reports [part] x := by
  intro hlegal
  have hpart := hlegal part List.mem_cons_self
  by_cases h : part.Valueless
  · rw [List.find?_cons_of_pos (by simpa using h)]
    exact hnone hpart h
  · rw [List.find?_cons_of_neg (by simpa using h)]
    exact hvalue hpart h

end

/-! ## §3. Literals. -/

/-- A legal number shows a point or an `e` exactly if it has those parts. -/
theorem showsFloat_iff {n : Numeral} (h : LegalNumeral n) : ShowsFloat n ↔ n.isWhole = false := by
  obtain ⟨sign, whole, fraction, power⟩ := n
  unfold ShowsFloat
  rw [numeral_text]
  dsimp only
  cases fraction with
  | some digits => simp [fractionText, Numeral.isWhole]
  | none =>
    cases power with
    | some p =>
      obtain ⟨hmark, -⟩ := h.power p rfl
      rcases hmark with hmark | hmark <;> simp [powerText, Numeral.isWhole, hmark]
    | none =>
      -- signs and digits only
      have hnot : ∀ c, c.isDigit = false → c ≠ '+' → c ≠ '-' →
          c ∉ sign.text ++ (whole ++ (fractionText none ++ powerText none)) := by
        intro c hdigit hplus hminus hmem
        rcases List.mem_append.1 hmem with hsign | hwhole
        · cases sign <;> simp_all [SignMark.text]
        · simp only [fractionText, powerText, List.append_nil] at hwhole
          rw [h.whole c hwhole] at hdigit
          cases hdigit
      refine iff_of_false ?_ (by simp [Numeral.isWhole])
      rintro (hpoint | hlower | hupper)
      · exact hnot '.' (by decide) (by decide) (by decide) hpoint
      · exact hnot 'e' (by decide) (by decide) (by decide) hlower
      · exact hnot 'E' (by decide) (by decide) (by decide) hupper

/-- A whole number has a value exactly within 64 bits. -/
theorem numeralValue_of_isWhole {n : Numeral} (h : n.isWhole = true) :
    numeralValue n = if n.toInt < -9223372036854775808 ∨ 9223372036854775807 < n.toInt then
      .error ⟨String.ofList n.text⟩ else .ok (.int (Int64.ofInt n.toInt)) := by
  rw [numeralValue, if_pos h, show Int64.minValue.toInt = -9223372036854775808 by decide,
    show Int64.maxValue.toInt = 9223372036854775807 by decide]
  split
  next hfits => rw [if_neg (by omega)]
  next hfits => rw [if_pos (by omega)]

/-- Any other number has a value exactly below the half past the largest float. -/
theorem numeralValue_of_not_isWhole {n : Numeral} (h : n.isWhole = false) :
    (∃ v, numeralValue n = .ok v)
        ∧ n.coefficient * Nat.pow 10 n.exponent.toNat
          < Binary64.overflowBound * Nat.pow 10 (-n.exponent).toNat
      ∨ numeralValue n = .error ⟨String.ofList n.text⟩
        ∧ Binary64.overflowBound * Nat.pow 10 (-n.exponent).toNat
          ≤ n.coefficient * Nat.pow 10 n.exponent.toNat := by
  have hfinite : (∃ x, Binary64.ofDecimal n.sign.negative n.coefficient n.exponent = .finite x)
      ↔ n.coefficient * Nat.pow 10 n.exponent.toNat
        < Binary64.overflowBound * Nat.pow 10 (-n.exponent).toNat :=
    Binary64.finite_ofDecimal_iff
  rw [numeralValue, if_neg (by rw [h]; exact Bool.false_ne_true)]
  rw [← Nat.not_lt, ← hfinite, Numeral.toBinary64]
  cases Binary64.ofDecimal n.sign.negative n.coefficient n.exponent with
  | finite x => exact .inl ⟨⟨_, rfl⟩, x, rfl⟩
  | infinite _ | nan =>
    refine .inr ⟨rfl, ?_⟩
    rintro ⟨x, heq⟩
    cases heq

theorem reports_numeral (n : Numeral) : Reports [.number n] (numeralValue n) := by
  have hvalue : LegalNumeral n →
      (∃ v, numeralValue n = .ok v) ∧ ¬ OutOfRange n
        ∨ numeralValue n = .error ⟨String.ofList n.text⟩ ∧ OutOfRange n := by
    intro hlegal
    have hshows := showsFloat_iff hlegal
    unfold OutOfRange
    cases hwhole : n.isWhole with
    | true =>
      rw [numeralValue_of_isWhole hwhole]
      simp only [hshows, hwhole]
      split
      next hout => exact .inr ⟨rfl, .inr ⟨by decide, hout⟩⟩
      next hin => exact .inl ⟨⟨_, rfl⟩, by simpa using hin⟩
    | false =>
      simp only [hshows, hwhole, true_and, not_true_eq_false, false_and, or_false]
      rw [Nat.not_le]
      exact numeralValue_of_not_isWhole hwhole
  refine reports_singleton (fun hlegal hin => ?_) (fun hlegal hout => ?_)
  · rcases hvalue hlegal with ⟨h, -⟩ | ⟨-, hout⟩
    · exact h
    · exact absurd hout hin
  · rcases hvalue hlegal with ⟨-, hin⟩ | ⟨h, -⟩
    · exact absurd hout hin
    · exact h

/-- The digits of an escape and their values. -/
theorem exists_hexValues {a b c d : Char} (h : (StringPiece.unicode a b c d).Legal) :
    ∃ x y z w, hexValue? a = some x ∧ hexValue? b = some y ∧ hexValue? c = some z
      ∧ hexValue? d = some w := by
  obtain ⟨ha, hb, hc, hd⟩ := h
  obtain ⟨x, hx⟩ := Option.isSome_iff_exists.1 ha
  obtain ⟨y, hy⟩ := Option.isSome_iff_exists.1 hb
  obtain ⟨z, hz⟩ := Option.isSome_iff_exists.1 hc
  obtain ⟨w, hw⟩ := Option.isSome_iff_exists.1 hd
  exact ⟨x, y, z, w, hx, hy, hz, hw⟩

theorem exists_hexValue4? {a b c d : Char} (h : (StringPiece.unicode a b c d).Legal) :
    ∃ code, hexValue4? a b c d = some code := by
  obtain ⟨x, y, z, w, hx, hy, hz, hw⟩ := exists_hexValues h
  exact ⟨_, by simp only [hexValue4?, hx, hy, hz, hw, Option.bind_eq_bind, Option.bind_some]; rfl⟩

theorem reports_piece (piece : StringPiece) : Reports [.character piece] piece.value := by
  cases piece with
  | plain c => exact reports_singleton (fun _ _ => ⟨c, rfl⟩) (fun _ hnone => hnone.elim)
  | short letter =>
    refine reports_singleton (fun hlegal _ => ?_) (fun _ hnone => hnone.elim)
    obtain ⟨c, hc⟩ := hlegal
    exact ⟨c, (piece_value_eq_ok_iff (.short letter) c).2 hc⟩
  | unicode a b c d =>
    refine reports_singleton (fun hlegal hsome => ?_) (fun _ hnone => ?_)
    · obtain ⟨code, hcode⟩ := exists_hexValue4? hlegal
      have hchar : isSurrogate code = false := by
        refine Bool.eq_false_iff.2 (fun h => hsome ⟨code, hcode, ?_⟩)
        simp only [isSurrogate, Bool.and_eq_true, decide_eq_true_eq] at h
        omega
      exact ⟨Char.ofNat code, by simp [StringPiece.value, hcode, hchar]⟩
    · obtain ⟨code, hcode, hlow, hhigh⟩ := hnone
      have hsurrogate : isSurrogate code = true := by
        simp only [isSurrogate, Bool.and_eq_true, decide_eq_true_eq]
        omega
      have hcode : hexValue4? a b c d = some code := hcode
      simp [StringPiece.value, hcode, hsurrogate, LiteralPart.text, StringPiece.text]

/-- **A literal reports its first part without a value.** -/
theorem reports_literal (l : SpelledLiteral) : Reports l.parts l.value := by
  cases l with
  | number n => exact reports_numeral n
  | string pieces =>
    have hpieces := Reports.list StringPiece.value piecesValue rfl (fun _ _ => rfl) reports_piece
      pieces
    rw [← List.map_eq_flatMap] at hpieces
    exact hpieces.map (fun cs => Value.str (String.ofList cs))

/-! ## §4. Statements. -/

/-- The parts of properties, those of overridden pairs included. -/
def propertiesParts (pairs : SpelledProperties) : List LiteralPart :=
  pairs.flatMap (fun pair => pair.2.parts)

/-- The parts of a position. -/
def PatternItem.parts : PatternItem SpelledProperties → List LiteralPart
  | .node d => propertiesParts d.properties
  | .relationship d => propertiesParts d.properties

/-- The parts of a chain. -/
def elementParts (element : PatternElement SpelledProperties) : List LiteralPart :=
  element.flatMap PatternItem.parts

/-- The parts of a pattern. -/
def patternParts (pattern : Pattern SpelledProperties) : List LiteralPart :=
  pattern.flatMap elementParts

/-- The parts of a condition, if there is one. -/
def conditionParts : Option (Condition SpelledLiteral) → List LiteralPart
  | none => []
  | some c => c.value.parts

/-- The parts of a statement. -/
def Statement.parts : SpelledStatement → List LiteralPart
  | .create p => patternParts p
  | .search p c => patternParts p ++ conditionParts c
  | .project _ _ | .delete _ => []

theorem reports_properties (pairs : SpelledProperties) :
    Reports (propertiesParts pairs) (propertiesValue pairs) := by
  have hpairs : Reports (propertiesParts pairs) (pairsValue pairs) := by
    refine Reports.list pairValue pairsValue rfl (fun pair rest => ?_) (fun pair => ?_) pairs
    · obtain ⟨key, literal⟩ := pair
      rw [pairsValue, pairValue]
      cases literal.value <;> rfl
    · exact (reports_literal pair.2).map (fun v => (pair.1, v))
  exact hpairs.map PropertyMap.ofList

theorem reports_item (item : PatternItem SpelledProperties) :
    Reports item.parts item.evaluate := by
  cases item with
  | node d =>
    exact (reports_properties d.properties).map (fun p => PatternItem.node ⟨d.var, d.label, p⟩)
  | relationship d =>
    exact (reports_properties d.properties).map
      (fun p => PatternItem.relationship ⟨d.var, d.type, p⟩)

theorem reports_pattern (pattern : Pattern SpelledProperties) :
    Reports (patternParts pattern) (evaluatePattern pattern) :=
  Reports.list evaluateElement evaluatePattern rfl (fun _ _ => rfl)
    (Reports.list PatternItem.evaluate evaluateElement rfl (fun _ _ => rfl) reports_item) pattern

theorem reports_condition (condition : Option (Condition SpelledLiteral)) :
    Reports (conditionParts condition) (evaluateCondition condition) := by
  cases condition with
  | none => exact reports_ok none
  | some c => exact (reports_literal c.value).map (fun v => some (⟨c.var, c.key, v⟩ : Condition Value))

theorem reports_statement (statement : SpelledStatement) :
    Reports statement.parts statement.evaluate := by
  cases statement with
  | create p => exact (reports_pattern p).map Statement.create
  | search p c =>
    exact (reports_pattern p).bind (fun q => (reports_condition c).map (Statement.search q))
  | project vars distinct => exact reports_ok _
  | delete vars => exact reports_ok _

/-- **Evaluation reports the first part without a value** of all statements. -/
theorem reports_statements (statements : List SpelledStatement) :
    Reports (statements.flatMap Statement.parts) (evaluateStatements statements) :=
  Reports.list Statement.evaluate evaluateStatements rfl (fun _ _ => rfl) reports_statement
    statements

/-! ## §5. Phrases and their tokens. -/

namespace Spelling

section

variable {α : Type} {phrase : Spelling α} {partsOf : α → List LiteralPart}

/-- The literals in the tokens of a phrase have these parts, in the same order. -/
def HasParts (phrase : Spelling α) (partsOf : α → List LiteralPart) : Prop :=
  ∀ a tokens, phrase a tokens → tokens.flatMap Token.parts = partsOf a

theorem HasParts.behind (h : HasParts phrase partsOf) {token : Token} (htoken : token.parts = []) :
    HasParts (behind token phrase) partsOf := by
  rintro a _ ⟨rest, ha, rfl⟩
  rw [List.flatMap_cons, htoken, List.nil_append, h a rest ha]

theorem HasParts.many (h : HasParts phrase partsOf) :
    HasParts (Many phrase) (fun items => items.flatMap partsOf) := by
  intro items tokens hmany
  induction hmany with
  | nil => rfl
  | cons ha _ ih => rw [List.flatMap_append, h _ _ ha, ih]; rfl

theorem HasParts.commaList (h : HasParts phrase partsOf) :
    HasParts (commaList phrase) (fun items => items.flatMap partsOf) := by
  rintro _ _ ⟨a, others, first, rest, rfl, ha, hothers, rfl⟩
  rw [List.flatMap_append, h a first ha, (h.behind rfl).many others rest hothers]
  rfl

/-- A phrase without literals, left out or not. -/
theorem HasParts.optional_nil (h : HasParts phrase (fun _ => [])) :
    HasParts (optional phrase) (fun _ => []) := by
  intro a tokens htokens
  cases a with
  | none =>
    obtain rfl : tokens = [] := htokens
    rfl
  | some a => exact h a tokens htokens

end

theorem hasParts_name : HasParts name (fun _ => []) := by
  rintro s _ rfl
  rfl

theorem hasParts_names : HasParts (commaList name) (fun _ => []) := by
  intro names tokens h
  rw [hasParts_name.commaList names tokens h]
  simp

theorem hasParts_property : HasParts property (fun pair => pair.2.parts) := by
  rintro pair _ rfl
  exact List.append_nil _

theorem hasParts_properties : HasParts properties propertiesParts := by
  rintro pairs tokens (⟨rfl, rfl⟩ | ⟨inner, hinner, rfl⟩)
  · rfl
  · show (inner ++ [_]).flatMap Token.parts = _
    rw [List.flatMap_append, hasParts_property.commaList pairs inner hinner]
    exact List.append_nil _

theorem parts_of_details {var classifier : Option String} {pairs : SpelledProperties}
    {tokens : List Token} (h : details var classifier pairs tokens) :
    tokens.flatMap Token.parts = propertiesParts pairs := by
  obtain ⟨v, c, p, hv, hc, hp, rfl⟩ := h
  rw [List.flatMap_append, List.flatMap_append, hasParts_name.optional_nil _ _ hv,
    (hasParts_name.behind rfl).optional_nil _ _ hc, hasParts_properties pairs p hp]
  rfl

theorem hasParts_node : HasParts node (fun d => propertiesParts d.properties) := by
  rintro d _ ⟨inner, hinner, rfl⟩
  show (inner ++ [_]).flatMap Token.parts = _
  rw [List.flatMap_append, parts_of_details hinner]
  exact List.append_nil _

theorem hasParts_relationship : HasParts relationship (fun d => propertiesParts d.properties) := by
  rintro d _ ⟨inner, hinner, rfl⟩
  show (inner ++ [_]).flatMap Token.parts = _
  rw [List.flatMap_append, parts_of_details hinner]
  exact List.append_nil _

theorem hasParts_step : HasParts step elementParts := by
  rintro _ _ ⟨r, d, first, rest, rfl, hr, hd, rfl⟩
  rw [List.flatMap_append, hasParts_relationship r first hr, hasParts_node d rest hd]
  simp [elementParts, PatternItem.parts]

theorem hasParts_element : HasParts element elementParts := by
  rintro _ _ ⟨d, steps, first, rest, rfl, hd, hsteps, rfl⟩
  rw [List.flatMap_append, hasParts_node d first hd, hasParts_step.many steps rest hsteps]
  have hflat : steps.flatten.flatMap PatternItem.parts = steps.flatMap elementParts := by
    rw [List.flatMap_def, List.map_flatten, List.flatten_flatten, List.map_map]
    rfl
  exact congrArg (_ ++ ·) hflat.symm

theorem hasParts_pattern : HasParts pattern patternParts := hasParts_element.commaList

theorem hasParts_condition : HasParts (optional condition) conditionParts := by
  intro c tokens h
  cases c with
  | none =>
    obtain rfl : tokens = [] := h
    rfl
  | some c =>
    obtain rfl : tokens = _ := h
    exact List.append_nil _

theorem hasParts_statement : HasParts statement Statement.parts := by
  intro s tokens h
  cases s with
  | create p => exact (hasParts_pattern.behind rfl) p tokens h
  | search p c =>
    obtain ⟨first, rest, hp, hc, rfl⟩ := h
    show (first ++ rest).flatMap Token.parts = patternParts p ++ conditionParts c
    rw [List.flatMap_append, hasParts_pattern p first hp, hasParts_condition c rest hc]
  | project vars distinct =>
    cases distinct with
    | true => exact ((hasParts_names.behind rfl).behind rfl) vars tokens h
    | false => exact (hasParts_names.behind rfl) vars tokens h.1
  | delete vars => exact (hasParts_names.behind rfl) vars tokens h

theorem hasParts_further : HasParts further Statement.parts := by
  rintro s tokens (h | h)
  · exact hasParts_statement s tokens h
  · exact (hasParts_statement.behind rfl) s tokens h

/-- **The literals of a query are those of its tokens.** -/
theorem hasParts_query : HasParts query (fun statements => statements.flatMap Statement.parts) := by
  rintro _ tokens ⟨s, others, first, rest, rfl, hs, hothers, htokens⟩
  have hparts : (first ++ rest).flatMap Token.parts
      = (s :: others).flatMap Statement.parts := by
    rw [List.flatMap_append, hasParts_statement s first hs,
      hasParts_further.many others rest hothers, List.flatMap_cons]
  rcases htokens with rfl | rfl
  · exact hparts
  · rw [← List.append_assoc, List.flatMap_append, hparts]
    exact List.append_nil _

end Spelling

/-! ## §6. Parts and their places in the text. -/

/-- One of the parts, with those before it: the first one without a value. -/
structure FirstValueless (parts before : List LiteralPart) (part : LiteralPart) : Prop where
  valueless : part.Valueless
  earlier : ∀ other ∈ before, ¬ other.Valueless
  split : ∃ after, parts = before ++ part :: after

/-- The part is written somewhere in the text, and those before it in front of
it. -/
def WrittenIn (text : List Char) (before : List LiteralPart) (part : LiteralPart) : Prop :=
  ∃ front back, text = front ++ (part.text ++ back) ∧ ∀ other ∈ before, other.text <:+: front

theorem legal_of_spelledBy {l : SpelledLiteral} {chars : List Char} (h : l.SpelledBy chars) :
    ∀ part ∈ l.parts, part.Legal := by
  cases l with
  | number n => exact List.forall_mem_singleton.2 h.1
  | string pieces =>
    intro part hpart
    obtain ⟨piece, hpiece, rfl⟩ := List.mem_map.1 hpart
    exact h.1 piece hpiece

theorem legal_of_laid {tokens : List Token} {text rest : List Char} (h : Laid tokens text rest) :
    ∀ part ∈ tokens.flatMap Token.parts, part.Legal := by
  induction h with
  | nil => exact fun _ hmem => absurd hmem List.not_mem_nil
  | @cons token _ _ _ _ _ hspelled _ _ _ ih =>
    refine List.forall_mem_append.2 ⟨?_, ih⟩
    cases token with
    | literal l => exact legal_of_spelledBy hspelled
    | _ => exact fun _ hmem => absurd hmem List.not_mem_nil

/-- In a literal the parts are written one after the other. -/
theorem writtenIn_of_spelledBy {l : SpelledLiteral} {chars : List Char} (h : l.SpelledBy chars)
    {before after : List LiteralPart} {part : LiteralPart}
    (hsplit : l.parts = before ++ part :: after) : WrittenIn chars before part := by
  cases l with
  | number n =>
    obtain ⟨-, rfl⟩ := h
    obtain ⟨rfl, hrest⟩ := List.append_eq_singleton_iff.1 hsplit.symm |>.resolve_right (by simp)
    obtain ⟨rfl, -⟩ := List.cons.inj hrest
    exact ⟨[], [], (List.append_nil _).symm, by simp⟩
  | string pieces =>
    obtain ⟨-, rfl⟩ := h
    obtain ⟨first, rest, rfl, rfl, hrest⟩ := List.map_eq_append_iff.1 hsplit
    obtain ⟨piece, more, rfl, rfl, -⟩ := List.map_eq_cons_iff.1 hrest
    refine ⟨'"' :: first.flatMap StringPiece.text, more.flatMap StringPiece.text ++ ['"'], ?_, ?_⟩
    · simp [LiteralPart.text]
    · intro other hother
      obtain ⟨found, hfound, rfl⟩ := List.mem_map.1 hother
      obtain ⟨left, right, rfl⟩ := List.append_of_mem hfound
      exact ⟨'"' :: left.flatMap StringPiece.text, right.flatMap StringPiece.text, by
        simp [LiteralPart.text]⟩

/-- The parts of a literal are written in it. -/
theorem infix_of_spelledBy {l : SpelledLiteral} {chars : List Char} (h : l.SpelledBy chars)
    {part : LiteralPart} (hpart : part ∈ l.parts) : part.text <:+: chars := by
  obtain ⟨before, after, hsplit⟩ := List.append_of_mem hpart
  obtain ⟨front, back, rfl, -⟩ := writtenIn_of_spelledBy h hsplit
  exact ⟨front, back, List.append_assoc _ _ _⟩

/-- In a text the tokens are written one after the other. -/
theorem writtenIn_of_laid {tokens : List Token} {text rest : List Char} (h : Laid tokens text rest)
    {before after : List LiteralPart} {part : LiteralPart}
    (hsplit : tokens.flatMap Token.parts = before ++ part :: after) :
    WrittenIn text before part := by
  induction h generalizing before with
  | nil => exact absurd hsplit (by simp)
  | @cons token tokens chars gap text rest hspelled _ _ _ ih =>
    rw [List.flatMap_cons, List.append_eq_append_iff] at hsplit
    have hlater : ∀ others, before = token.parts ++ others →
        tokens.flatMap Token.parts = others ++ part :: after →
        WrittenIn (chars ++ (gap ++ text)) before part := by
      rintro others rfl hothers
      obtain ⟨front, back, rfl, hfront⟩ := ih hothers
      refine ⟨chars ++ (gap ++ front), back, by simp, ?_⟩
      refine List.forall_mem_append.2 ⟨fun other hother => ?_, fun other hother => ?_⟩
      · cases token with
        | literal l => exact (infix_of_spelledBy hspelled hother).trans (List.infix_append' [] _ _)
        | _ => cases hother
      · exact (hfront other hother).trans ⟨chars ++ gap, [], by simp⟩
    rcases hsplit with ⟨others, hbefore, hothers⟩ | ⟨others, htoken, hothers⟩
    · exact hlater others hbefore hothers
    · cases others with
      | nil => exact hlater [] (by simpa using htoken.symm) (by simpa using hothers.symm)
      | cons first others =>
        obtain ⟨rfl, -⟩ := List.cons.inj hothers
        -- the part is one of the parts of this token
        cases token with
        | literal l =>
          obtain ⟨front, back, rfl, hfront⟩ := writtenIn_of_spelledBy hspelled htoken
          exact ⟨front, back ++ (gap ++ text), by simp, hfront⟩
        | _ => exact absurd htoken (by simp [Token.parts])

/-! ## §7. Texts. -/

/-- The tokens of a text. -/
def TokensOf (text : String) (tokens : List Token) : Prop :=
  ∃ gap rest, text.toList = gap ++ rest ∧ (∀ c ∈ gap, isBlank c = true) ∧ Laid tokens rest []

theorem exists_firstValueless {parts : List LiteralPart} {part : LiteralPart}
    (h : parts.find? (fun part => part.Valueless) = some part) :
    ∃ before, FirstValueless parts before part := by
  obtain ⟨hpart, before, after, rfl, hbefore⟩ := List.find?_eq_some_iff_append.1 h
  exact ⟨before, by simpa using hpart, by simpa using hbefore, after, rfl⟩

theorem FirstValueless.find?_eq {parts before : List LiteralPart} {part : LiteralPart}
    (h : FirstValueless parts before part) :
    parts.find? (fun part => part.Valueless) = some part := by
  obtain ⟨hpart, hbefore, after, rfl⟩ := h
  exact List.find?_eq_some_iff_append.2 ⟨by simpa using hpart, before, after, rfl, by
    simpa using hbefore⟩

theorem FirstValueless.eq {parts before others : List LiteralPart} {part other : LiteralPart}
    (h : FirstValueless parts before part) (h' : FirstValueless parts others other) :
    part = other :=
  Option.some.inj (h.find?_eq.symm.trans h'.find?_eq)

/-- The first part without a value stands in the text, behind those before it. -/
theorem TokensOf.writtenIn {text : String} {tokens : List Token} {before : List LiteralPart}
    {part : LiteralPart} (h : TokensOf text tokens)
    (hfirst : FirstValueless (tokens.flatMap Token.parts) before part) :
    WrittenIn text.toList before part := by
  obtain ⟨gap, rest, htext, -, hlaid⟩ := h
  obtain ⟨after, hsplit⟩ := hfirst.split
  obtain ⟨front, back, rfl, hfront⟩ := writtenIn_of_laid hlaid hsplit
  refine ⟨gap ++ front, back, by rw [htext, List.append_assoc], fun earlier hearlier => ?_⟩
  exact (hfront earlier hearlier).trans (List.suffix_append gap front).isInfix

/-- A text that the grammar accepts is read, or its first part without a value is
reported. -/
theorem parse_cases {text : String} {spelled : List SpelledStatement} {tokens : List Token}
    (h : readStatements text = .ok spelled) (htokens : TokensOf text tokens)
    (hquery : Spelling.query spelled tokens) :
    ((∃ statements, parse text = .ok statements)
        ∧ ∀ part ∈ tokens.flatMap Token.parts, ¬ part.Valueless)
      ∨ ∃ before part, FirstValueless (tokens.flatMap Token.parts) before part
        ∧ parse text = .error (.invalidLiteral ⟨String.ofList part.text⟩) := by
  obtain ⟨gap, rest, -, -, hlaid⟩ := htokens
  have hparts : tokens.flatMap Token.parts = spelled.flatMap Statement.parts :=
    Spelling.hasParts_query spelled tokens hquery
  have hreports := reports_statements spelled
  rw [← hparts] at hreports
  have hvalue := hreports (legal_of_laid hlaid)
  cases hfind : (tokens.flatMap Token.parts).find? (fun part => part.Valueless) with
  | none =>
    rw [hfind] at hvalue
    obtain ⟨statements, hstatements⟩ := hvalue
    refine .inl ⟨⟨statements, by simp only [parse, h, hstatements]⟩, fun part hpart => ?_⟩
    simpa using List.find?_eq_none.1 hfind part hpart
  | some part =>
    rw [hfind] at hvalue
    obtain ⟨before, hfirst⟩ := exists_firstValueless hfind
    exact .inr ⟨before, part, hfirst, by simp only [parse, h, hvalue]⟩

/-- **A query is read exactly if each of its literals has a value, and otherwise
the first part without one is reported.**  For each text that the grammar accepts,
with its tokens: a number with neither point nor `e` must fit 64 bits, another one
must be below the half past the largest float, and no escape may be that of a
surrogate.  Of the parts for which this fails the first one in the text is
reported as it is written there, and no other error occurs. -/
theorem parse_reportsFirst {text : String} {spelled : List SpelledStatement}
    (h : readStatements text = .ok spelled) :
    (∃ tokens, TokensOf text tokens ∧ Spelling.query spelled tokens)
      ∧ ∀ tokens, TokensOf text tokens → Spelling.query spelled tokens →
        ((∃ statements, parse text = .ok statements)
            ↔ ∀ part ∈ tokens.flatMap Token.parts, ¬ part.Valueless)
          ∧ (∀ before part, FirstValueless (tokens.flatMap Token.parts) before part →
              parse text = .error (.invalidLiteral ⟨String.ofList part.text⟩)
                ∧ WrittenIn text.toList before part)
          ∧ (∀ error, parse text = .error error → ∃ before part,
              FirstValueless (tokens.flatMap Token.parts) before part
                ∧ error = .invalidLiteral ⟨String.ofList part.text⟩) := by
  constructor
  · obtain ⟨gap, rest, tokens, htext, hgap, hlaid, hquery⟩ := readStatements_eq_ok_iff.1 h
    exact ⟨tokens, ⟨gap, rest, htext, hgap, hlaid⟩, hquery⟩
  intro tokens htokens hquery
  obtain ⟨⟨statements, hok⟩, hnone⟩ | ⟨before, part, hfirst, herror⟩ :=
    parse_cases h htokens hquery
  · refine ⟨iff_of_true ⟨statements, hok⟩ hnone, fun before part hfirst => ?_, fun error he => ?_⟩
    · exact absurd hfirst.valueless (hnone part (List.mem_of_find?_eq_some hfirst.find?_eq))
    · rw [hok] at he
      cases he
  · refine ⟨iff_of_false ?_ (fun hall => ?_), fun others other hother => ?_, fun error he => ?_⟩
    · rintro ⟨statements, hok⟩
      rw [herror] at hok
      cases hok
    · exact hall part (List.mem_of_find?_eq_some hfirst.find?_eq) hfirst.valueless
    · rw [← hfirst.eq hother]
      exact ⟨herror, htokens.writtenIn (hfirst.eq hother ▸ hother)⟩
    · rw [herror] at he
      exact ⟨before, part, hfirst, (Except.error.inj he).symm⟩

/-- A number that is overridden, and behind it a surrogate. -/
def overriddenText : String :=
  "CREATE (a \x7bk: 9223372036854775808, k: 1\x7d) MATCH (n) WHERE n.k = \"\\uD800\""

theorem parse_reportsFirst_overriddenText :
    ∃ spelled tokens before part, readStatements overriddenText = .ok spelled
      ∧ TokensOf overriddenText tokens ∧ Spelling.query spelled tokens
      ∧ FirstValueless (tokens.flatMap Token.parts) before part
      ∧ parse overriddenText = .error (.invalidLiteral ⟨String.ofList part.text⟩)
      ∧ String.ofList part.text = "9223372036854775808" := by
  have hread : (readStatements overriddenText).toOption.isSome = true := by decide +kernel
  have hreport : (match parse overriddenText with
      | .error error => decide (error = .invalidLiteral ⟨"9223372036854775808"⟩)
      | .ok _ => false) = true := by decide +kernel
  cases hspelled : readStatements overriddenText with
  | error e =>
    rw [hspelled] at hread
    cases hread
  | ok spelled =>
    cases hparse : parse overriddenText with
    | ok statements =>
      rw [hparse] at hreport
      cases hreport
    | error error =>
      rw [hparse] at hreport
      obtain ⟨⟨tokens, htokens, hquery⟩, hall⟩ := parse_reportsFirst hspelled
      obtain ⟨before, part, hfirst, rfl⟩ := (hall tokens htokens hquery).2.2 error hparse
      refine ⟨spelled, tokens, before, part, rfl, htokens, hquery, hfirst, rfl, ?_⟩
      simpa using hreport

end PropertyGraph.Query
