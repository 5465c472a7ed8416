/-
  PropertyGraph.Proofs.Query.Denotation
  ─────────────────────────────────────
  **VALUES OF WHAT HAS BEEN READ.**

  Evaluation goes through a query in its order and stops at the first literal
  without a value.  It succeeds exactly with what the query denotes, and that
  does not speak of an order: for lists the two are compared once
  (`evaluated_iff`), and for properties through their look-ups.
-/
import PropertyGraph.Proofs.Query.Scanning
import PropertyGraph.Proofs.Value.SavedForm

namespace PropertyGraph.Query

open PropertyGraph.Text

/-! ## §1. Evaluation in order. -/

variable {ε α β : Type}

theorem bind_eq_ok_iff {x : Except ε α} {f : α → Except ε β} {b : β} :
    (x >>= f) = .ok b ↔ ∃ a, x = .ok a ∧ f a = .ok b := by
  cases x with
  | error e => exact ⟨fun h => (nomatch h), fun ⟨a, h, _⟩ => (nomatch h)⟩
  | ok a =>
    constructor
    · exact fun h => ⟨a, rfl, h⟩
    · intro hex
      obtain ⟨_, ⟨⟩, h⟩ := hex
      exact h

/-- A list evaluated item by item denotes item by item. -/
theorem evaluated_iff (f : α → Except ε β) (go : List α → Except ε (List β)) {R : α → β → Prop}
    (hnil : go [] = .ok [])
    (hcons : ∀ a rest, go (a :: rest) = do
      let b ← f a
      let bs ← go rest
      return b :: bs)
    (hf : ∀ a b, f a = .ok b ↔ R a b) {items : List α} {values : List β} :
    go items = .ok values ↔ List.Forall₂ R items values := by
  induction items generalizing values with
  | nil =>
    rw [hnil, List.forall₂_nil_left_iff]
    exact ⟨fun h => (Except.ok.inj h).symm, fun h => by rw [h]⟩
  | cons a rest ih =>
    rw [hcons, bind_eq_ok_iff, List.forall₂_cons_left_iff]
    simp only [bind_eq_ok_iff, hf, ih]
    constructor
    · intro hex
      obtain ⟨b, hb, bs, hbs, h⟩ := hex
      exact ⟨b, bs, hb, hbs, (Except.ok.inj h).symm⟩
    · intro hex
      obtain ⟨b, bs, hb, hbs, rfl⟩ := hex
      exact ⟨b, hb, bs, hbs, rfl⟩

/-! ## §2. Literals. -/

theorem hexValue?_lt {c : Char} {n : Nat} (h : hexValue? c = some n) : n < 16 := by
  unfold hexValue? at h
  split at h
  next hc =>
    obtain rfl := Option.some.inj h
    have hle : c.toNat ≤ 57 := hc.2
    omega
  next =>
    split at h
    next hc =>
      obtain rfl := Option.some.inj h
      have hle : c.toNat ≤ 102 := hc.2
      omega
    next =>
      split at h
      next hc =>
        obtain rfl := Option.some.inj h
        have hle : c.toNat ≤ 70 := hc.2
        omega
      next => cases h

theorem hexValue4?_lt {a b c d : Char} {n : Nat} (h : hexValue4? a b c d = some n) :
    n < 0x10000 := by
  unfold hexValue4? at h
  simp only [Option.bind_eq_bind, Option.bind_eq_some_iff] at h
  obtain ⟨x, hx, y, hy, z, hz, w, hw, hn⟩ := h
  obtain rfl := Option.some.inj hn
  have h₁ := hexValue?_lt hx
  have h₂ := hexValue?_lt hy
  have h₃ := hexValue?_lt hz
  have h₄ := hexValue?_lt hw
  omega

/-- Below 2^16 every number but the surrogates is the code of a character. -/
theorem toNat_ofNat_of_not_surrogate {n : Nat} (hlt : n < 0x10000) (hn : isSurrogate n = false) :
    (Char.ofNat n).toNat = n := by
  have hvalid : n.isValidChar := by
    simp only [isSurrogate, Bool.and_eq_false_iff, decide_eq_false_iff_not] at hn
    unfold Nat.isValidChar
    omega
  unfold Char.ofNat
  rw [dif_pos hvalid]
  rfl

theorem isSurrogate_toNat (c : Char) : isSurrogate c.toNat = false := by
  have hvalid : c.toNat.isValidChar := c.valid
  unfold Nat.isValidChar at hvalid
  simp only [isSurrogate, Bool.and_eq_false_iff, decide_eq_false_iff_not]
  omega

theorem piece_value_eq_ok_iff (piece : StringPiece) (x : Char) :
    piece.value = .ok x ↔ piece.Denotes x := by
  cases piece with
  | plain c => exact ⟨fun h => (Except.ok.inj h).symm, fun h => congrArg Except.ok h.symm⟩
  | short letter =>
    show _ ↔ (letter, x) ∈ shortEscapes
    rw [← unescape?_eq_some_iff, StringPiece.value]
    cases unescape? letter with
    | none => exact ⟨fun h => (nomatch h), fun h => (nomatch h)⟩
    | some c => exact ⟨fun h => congrArg some (Except.ok.inj h), fun h =>
        congrArg Except.ok (Option.some.inj h)⟩
  | unicode a b c d =>
    show _ ↔ hexValue4? a b c d = some x.toNat
    rw [StringPiece.value]
    cases hvalue : hexValue4? a b c d with
    | none => exact ⟨fun h => (nomatch h), fun h => (nomatch h)⟩
    | some n =>
      -- a surrogate has no value, and no character has such a code
      cases hn : isSurrogate n with
      | true =>
        dsimp only
        rw [if_pos hn]
        refine ⟨fun h => (nomatch h), fun h => ?_⟩
        rw [Option.some.inj h, isSurrogate_toNat] at hn
        cases hn
      | false =>
        dsimp only
        rw [if_neg (by rw [hn]; decide)]
        constructor
        · intro h
          rw [← Except.ok.inj h, toNat_ofNat_of_not_surrogate (hexValue4?_lt hvalue) hn]
        · intro h
          rw [Option.some.inj h, Char.ofNat_toNat]

theorem numeralValue_eq_ok_iff (n : Numeral) (v : Value) :
    numeralValue n = .ok v ↔ (SpelledLiteral.number n).Denotes v := by
  unfold numeralValue
  by_cases hwhole : n.isWhole = true
  · rw [if_pos hwhole]
    -- only one of the two forms of a number applies
    have hdenotes : (SpelledLiteral.number n).Denotes v
        ↔ ∃ i : Int64, v = .int i ∧ i.toInt = n.toInt := by
      refine ⟨?_, fun h => .inl ⟨hwhole, h⟩⟩
      intro hor
      rcases hor with ⟨-, h⟩ | ⟨hnot, -⟩
      · exact h
      · rw [hwhole] at hnot
        cases hnot
    rw [hdenotes]
    constructor
    · intro h
      split at h
      next hfits =>
        obtain rfl := Except.ok.inj h
        refine ⟨Int64.ofInt n.toInt, rfl, Int64.toInt_ofInt_of_le hfits.1 ?_⟩
        exact Int.lt_of_le_of_lt hfits.2 (by decide)
      next => cases h
    · intro hex
      obtain ⟨i, rfl, hi⟩ := hex
      -- the value of an integer of 64 bits is within its bounds
      rw [← hi, if_pos ⟨i.minValue_le_toInt, i.toInt_le⟩, Int64.ofInt_toInt]
  · rw [if_neg hwhole]
    have hdenotes : (SpelledLiteral.number n).Denotes v
        ↔ ∃ x, v = .float (.finite x) ∧ n.toBinary64 = .finite x := by
      refine ⟨?_, fun h => .inr ⟨Bool.eq_false_iff.2 hwhole, h⟩⟩
      intro hor
      rcases hor with ⟨hnot, -⟩ | ⟨-, h⟩
      · exact absurd hnot hwhole
      · exact h
    rw [hdenotes]
    constructor
    · intro h
      split at h
      next x hx =>
        obtain rfl := Except.ok.inj h
        exact ⟨x, rfl, hx⟩
      next => cases h
    · intro hex
      obtain ⟨x, rfl, hx⟩ := hex
      rw [hx]

theorem piecesValue_eq_ok_iff {pieces : List StringPiece} {cs : List Char} :
    piecesValue pieces = .ok cs ↔ List.Forall₂ StringPiece.Denotes pieces cs :=
  evaluated_iff StringPiece.value piecesValue rfl (fun _ _ => rfl) piece_value_eq_ok_iff

theorem literal_value_eq_ok_iff (l : SpelledLiteral) (v : Value) :
    l.value = .ok v ↔ l.Denotes v := by
  cases l with
  | number n => exact numeralValue_eq_ok_iff n v
  | string pieces =>
    show (piecesValue pieces >>= fun cs => pure (Value.str (String.ofList cs))) = .ok v ↔ _
    rw [bind_eq_ok_iff]
    constructor
    · intro hex
      obtain ⟨cs, hcs, h⟩ := hex
      obtain rfl := Except.ok.inj h
      refine ⟨String.ofList cs, rfl, ?_⟩
      rwa [String.toList_ofList, ← piecesValue_eq_ok_iff]
    · intro hex
      obtain ⟨s, rfl, hs⟩ := hex
      refine ⟨s.toList, piecesValue_eq_ok_iff.2 hs, ?_⟩
      rw [String.ofList_toList]
      rfl

/-! ## §3. The last pair with a key. -/

theorem not_lastUnder_nil {key : String} {a : α} : ¬ LastUnder key a [] := by
  intro hex
  obtain ⟨before, after, h, -⟩ := hex
  cases before <;> cases h

theorem lastUnder_cons_iff {key : String} {a : α} {pair : String × α}
    {rest : List (String × α)} :
    LastUnder key a (pair :: rest)
      ↔ LastUnder key a rest ∨ (pair = (key, a) ∧ ∀ other ∈ rest, other.1 ≠ key) := by
  constructor
  · intro hex
    obtain ⟨before, after, h, hafter⟩ := hex
    cases before with
    | nil =>
      obtain ⟨rfl, rfl⟩ := List.cons.inj h
      exact .inr ⟨rfl, hafter⟩
    | cons first before =>
      obtain ⟨-, rfl⟩ := List.cons.inj h
      exact .inl ⟨before, after, rfl, hafter⟩
  · intro hor
    rcases hor with ⟨before, after, rfl, hafter⟩ | ⟨rfl, hrest⟩
    · exact ⟨pair :: before, after, rfl, hafter⟩
    · exact ⟨[], rest, rfl, hrest⟩

/-- Inserted one after the other, pairs leave the last value under each key and
keep the entries under all other keys. -/
theorem find?_foldl_insert_eq_some_iff {key : String} {v : α} {pairs : List (String × α)}
    {entries : List (String × α)} :
    SortedEntries.find? key
        (pairs.foldl (fun entries pair => SortedEntries.insert pair.1 pair.2 entries) entries)
        = some v
      ↔ LastUnder key v pairs
        ∨ ((∀ pair ∈ pairs, pair.1 ≠ key) ∧ SortedEntries.find? key entries = some v) := by
  induction pairs generalizing entries with
  | nil =>
    refine ⟨fun h => .inr ⟨fun pair hpair => absurd hpair List.not_mem_nil, h⟩, ?_⟩
    intro hor
    rcases hor with h | ⟨-, h⟩
    · exact absurd h not_lastUnder_nil
    · exact h
  | cons pair rest ih =>
    rw [List.foldl_cons, ih, lastUnder_cons_iff, SortedEntries.find?_insert, or_assoc,
      List.forall_mem_cons]
    -- a later pair with the key hides this one; otherwise this one may count
    refine or_congr_right ?_
    by_cases hkey : compare key pair.1 = .eq
    · have heq : key = pair.1 := Std.LawfulEqCmp.eq_of_compare hkey
      rw [if_pos hkey]
      constructor
      · intro hex
        obtain ⟨hrest, h⟩ := hex
        exact .inl ⟨Prod.ext heq.symm (Option.some.inj h), hrest⟩
      · intro hor
        rcases hor with ⟨rfl, hrest⟩ | ⟨⟨hne, -⟩, -⟩
        · exact ⟨hrest, rfl⟩
        · exact absurd heq.symm hne
    · have hne : pair.1 ≠ key := by
        intro heq
        rw [heq] at hkey
        exact hkey Std.ReflCmp.compare_self
      rw [if_neg hkey]
      constructor
      · intro hex
        obtain ⟨hrest, h⟩ := hex
        exact .inr ⟨⟨hne, hrest⟩, h⟩
      · intro hor
        rcases hor with ⟨rfl, -⟩ | ⟨⟨-, hrest⟩, h⟩
        · exact absurd rfl hne
        · exact ⟨hrest, h⟩

/-! ## §4. Properties. -/

/-- The value of one pair, under its key. -/
def pairValue (pair : String × SpelledLiteral) : Except InvalidLiteral (String × Value) := do
  let v ← pair.2.value
  return (pair.1, v)

/-- A pair and its value have the same key. -/
def PairDenotes (pair : String × SpelledLiteral) (entry : String × Value) : Prop :=
  entry.1 = pair.1 ∧ pair.2.Denotes entry.2

theorem pairsValue_eq_ok_iff {pairs : SpelledProperties} {entries : List (String × Value)} :
    pairsValue pairs = .ok entries ↔ List.Forall₂ PairDenotes pairs entries := by
  refine evaluated_iff pairValue pairsValue rfl ?_ ?_
  · intro hex rest
    obtain ⟨key, literal⟩ := hex
    rw [pairsValue, pairValue]
    cases literal.value <;> rfl
  · intro pair entry
    unfold pairValue PairDenotes
    simp only [bind_eq_ok_iff, literal_value_eq_ok_iff]
    constructor
    · intro hex
      obtain ⟨v, hv, h⟩ := hex
      obtain rfl := Except.ok.inj h
      exact ⟨rfl, hv⟩
    · intro hex
      obtain ⟨hkey, hv⟩ := hex
      exact ⟨entry.2, hv, congrArg Except.ok (Prod.ext hkey.symm rfl)⟩

theorem denotes_unique {l : SpelledLiteral} {v w : Value} (hv : l.Denotes v) (hw : l.Denotes w) :
    v = w := by
  rw [← literal_value_eq_ok_iff] at hv hw
  rw [hv] at hw
  exact Except.ok.inj hw

theorem normal_of_denotes {l : SpelledLiteral} {v : Value} (h : l.Denotes v) : v.Normal := by
  cases l with
  | string pieces =>
    obtain ⟨s, rfl, -⟩ := h
    trivial
  | number n =>
    rcases h with ⟨-, i, rfl, -⟩ | ⟨-, x, rfl, -⟩
    · trivial
    · trivial

theorem normalEntries_of_pairs {pairs : SpelledProperties} {entries : List (String × Value)}
    (h : List.Forall₂ PairDenotes pairs entries) : Value.NormalEntries entries := by
  induction h with
  | nil => trivial
  | cons hpair _ ih => exact ⟨normal_of_denotes hpair.2, ih⟩

theorem keys_ne_iff {pairs : SpelledProperties} {entries : List (String × Value)}
    (h : List.Forall₂ PairDenotes pairs entries) (key : String) :
    (∀ entry ∈ entries, entry.1 ≠ key) ↔ ∀ pair ∈ pairs, pair.1 ≠ key := by
  induction h with
  | nil => exact ⟨fun _ _ h => absurd h List.not_mem_nil, fun _ _ h => absurd h List.not_mem_nil⟩
  | cons hpair _ ih => rw [List.forall_mem_cons, List.forall_mem_cons, hpair.1, ih]

/-- The last entry with a key comes from the last pair with that key. -/
theorem lastUnder_entries_iff {pairs : SpelledProperties} {entries : List (String × Value)}
    (h : List.Forall₂ PairDenotes pairs entries) {key : String} {v : Value} :
    LastUnder key v entries ↔ ∃ literal, LastUnder key literal pairs ∧ literal.Denotes v := by
  induction h with
  | nil =>
    refine ⟨fun h => absurd h not_lastUnder_nil, ?_⟩
    intro hex
    obtain ⟨literal, h, -⟩ := hex
    exact absurd h not_lastUnder_nil
  | @cons pair entry pairs entries hpair hrest ih =>
    obtain ⟨hkey, hdenotes⟩ := hpair
    rw [lastUnder_cons_iff, ih, keys_ne_iff hrest]
    constructor
    · intro hor
      rcases hor with ⟨literal, hlast, hv⟩ | ⟨rfl, hne⟩
      · exact ⟨literal, lastUnder_cons_iff.2 (.inl hlast), hv⟩
      · exact ⟨pair.2, lastUnder_cons_iff.2 (.inr ⟨Prod.ext hkey.symm rfl, hne⟩), hdenotes⟩
    · intro hex
      obtain ⟨literal, hlast, hv⟩ := hex
      rcases lastUnder_cons_iff.1 hlast with hlast | ⟨rfl, hne⟩
      · exact .inl ⟨literal, hlast, hv⟩
      · exact .inr ⟨Prod.ext hkey (denotes_unique hdenotes hv), hne⟩

theorem find?_ofList_eq_some_iff {pairs : SpelledProperties} {entries : List (String × Value)}
    (h : List.Forall₂ PairDenotes pairs entries) {key : String} {v : Value} :
    (PropertyMap.ofList entries).find? key = some v
      ↔ ∃ literal, LastUnder key literal pairs ∧ literal.Denotes v := by
  show SortedEntries.find? key (SortedEntries.ofList (Value.normalizeEntries entries)) = some v ↔ _
  rw [Value.normalizeEntries_of_normal (normalEntries_of_pairs h), SortedEntries.ofList,
    find?_foldl_insert_eq_some_iff, lastUnder_entries_iff h]
  constructor
  · intro hor
    rcases hor with hlast | ⟨-, hnone⟩
    · exact hlast
    · cases hnone
  · exact .inl

theorem propertyMap_ext {left right : PropertyMap}
    (h : ∀ key v, left.find? key = some v ↔ right.find? key = some v) : left = right := by
  have hentries := SortedEntries.ext_find? left.normal.1 right.normal.1
    (fun key => Option.ext (fun v => h key v))
  cases left
  cases right
  cases hentries
  rfl

theorem exists_entries {pairs : SpelledProperties} (h : ∀ pair ∈ pairs, ∃ v, pair.2.Denotes v) :
    ∃ entries, List.Forall₂ PairDenotes pairs entries := by
  induction pairs with
  | nil => exact ⟨[], .nil⟩
  | cons pair rest ih =>
    obtain ⟨⟨v, hv⟩, hrest⟩ := List.forall_mem_cons.1 h
    obtain ⟨entries, hentries⟩ := ih hrest
    exact ⟨(pair.1, v) :: entries, .cons ⟨rfl, hv⟩ hentries⟩

theorem valued_of_entries {pairs : SpelledProperties} {entries : List (String × Value)}
    (h : List.Forall₂ PairDenotes pairs entries) : ∀ pair ∈ pairs, ∃ v, pair.2.Denotes v := by
  induction h with
  | nil => exact fun _ h => absurd h List.not_mem_nil
  | cons hpair _ ih => exact List.forall_mem_cons.2 ⟨⟨_, hpair.2⟩, ih⟩

theorem propertiesValue_eq_ok_iff {pairs : SpelledProperties} {properties : PropertyMap} :
    propertiesValue pairs = .ok properties ↔ PropertiesDenote pairs properties := by
  show (pairsValue pairs >>= fun entries => pure (PropertyMap.ofList entries)) = _ ↔ _
  simp only [bind_eq_ok_iff, pairsValue_eq_ok_iff]
  constructor
  · intro hex
    obtain ⟨entries, hentries, h⟩ := hex
    obtain rfl := Except.ok.inj h
    exact ⟨valued_of_entries hentries, fun key v => find?_ofList_eq_some_iff hentries⟩
  · intro hex
    obtain ⟨hvalued, hlast⟩ := hex
    -- the values of all pairs make a map, and look-ups tell maps apart
    obtain ⟨entries, hentries⟩ := exists_entries hvalued
    refine ⟨entries, hentries, congrArg Except.ok (propertyMap_ext ?_)⟩
    intro key v
    rw [find?_ofList_eq_some_iff hentries, hlast]

/-! ## §5. Statements. -/

theorem item_evaluate_eq_ok_iff (item : PatternItem SpelledProperties)
    (value : PatternItem PropertyMap) : item.evaluate = .ok value ↔ item.Denotes value := by
  cases item with
  | node d =>
    show (propertiesValue d.properties >>= fun p => pure (PatternItem.node ⟨d.var, d.label, p⟩))
      = _ ↔ _
    simp only [bind_eq_ok_iff, propertiesValue_eq_ok_iff]
    constructor
    · intro hex
      obtain ⟨p, hp, h⟩ := hex
      obtain rfl := Except.ok.inj h
      exact ⟨rfl, rfl, hp⟩
    · intro h
      cases value with
      | node e =>
        obtain ⟨var, label, p⟩ := e
        obtain ⟨rfl, rfl, hp⟩ := h
        exact ⟨p, hp, rfl⟩
      -- a node never denotes a relationship
      | relationship e => exact absurd h id
  | relationship d =>
    show (propertiesValue d.properties >>=
      fun p => pure (PatternItem.relationship ⟨d.var, d.type, p⟩)) = _ ↔ _
    simp only [bind_eq_ok_iff, propertiesValue_eq_ok_iff]
    constructor
    · intro hex
      obtain ⟨p, hp, h⟩ := hex
      obtain rfl := Except.ok.inj h
      exact ⟨rfl, rfl, hp⟩
    · intro h
      cases value with
      | node e => exact absurd h id
      | relationship e =>
        obtain ⟨var, type, p⟩ := e
        obtain ⟨rfl, rfl, hp⟩ := h
        exact ⟨p, hp, rfl⟩

theorem evaluatePattern_eq_ok_iff {p : Pattern SpelledProperties} {q : GraphPattern} :
    evaluatePattern p = .ok q ↔ PatternDenotes p q := by
  refine evaluated_iff evaluateElement evaluatePattern rfl (fun _ _ => rfl) ?_
  intro element values
  exact evaluated_iff PatternItem.evaluate evaluateElement rfl (fun _ _ => rfl)
    item_evaluate_eq_ok_iff

theorem evaluateCondition_eq_ok_iff {c : Option (Condition SpelledLiteral)}
    {d : Option (Condition Value)} : evaluateCondition c = .ok d ↔ ConditionDenotes c d := by
  cases c with
  | none =>
    cases d with
    | none => exact ⟨fun _ => trivial, fun _ => rfl⟩
    | some d => exact ⟨fun h => (nomatch h), fun h => absurd h id⟩
  | some c =>
    show (c.value.value >>= fun v => pure (some (⟨c.var, c.key, v⟩ : Condition Value))) = _ ↔ _
    simp only [bind_eq_ok_iff, literal_value_eq_ok_iff]
    constructor
    · intro hex
      obtain ⟨v, hv, h⟩ := hex
      obtain rfl := Except.ok.inj h
      exact ⟨rfl, rfl, hv⟩
    · intro h
      cases d with
      | none => exact absurd h id
      | some d =>
        obtain ⟨var, key, v⟩ := d
        obtain ⟨rfl, rfl, hv⟩ := h
        exact ⟨v, hv, rfl⟩

theorem statement_evaluate_eq_ok_iff (s : SpelledStatement) (value : GraphStatement) :
    s.evaluate = .ok value ↔ s.Denotes value := by
  cases s with
  | create p =>
    show (evaluatePattern p >>= fun q => pure (Statement.create q)) = _ ↔ _
    simp only [bind_eq_ok_iff, evaluatePattern_eq_ok_iff]
    constructor
    · intro hex
      obtain ⟨q, hq, h⟩ := hex
      exact ⟨q, (Except.ok.inj h).symm, hq⟩
    · intro hex
      obtain ⟨q, rfl, hq⟩ := hex
      exact ⟨q, hq, rfl⟩
  | search p c =>
    show (evaluatePattern p >>= fun q => evaluateCondition c >>= fun d =>
      pure (Statement.search q d)) = _ ↔ _
    simp only [bind_eq_ok_iff, evaluatePattern_eq_ok_iff, evaluateCondition_eq_ok_iff]
    constructor
    · intro hex
      obtain ⟨q, hq, d, hd, h⟩ := hex
      exact ⟨q, d, (Except.ok.inj h).symm, hq, hd⟩
    · intro hex
      obtain ⟨q, d, rfl, hq, hd⟩ := hex
      exact ⟨q, hq, d, hd, rfl⟩
  | project vars distinct =>
    exact ⟨fun h => (Except.ok.inj h).symm, fun h => congrArg Except.ok (Eq.symm h)⟩
  | delete vars =>
    exact ⟨fun h => (Except.ok.inj h).symm, fun h => congrArg Except.ok (Eq.symm h)⟩

/-- Evaluation succeeds with what the statements denote, and with nothing else. -/
theorem evaluateStatements_eq_ok_iff {spelled : List SpelledStatement}
    {statements : List GraphStatement} :
    evaluateStatements spelled = .ok statements
      ↔ List.Forall₂ Statement.Denotes spelled statements :=
  evaluated_iff Statement.evaluate evaluateStatements rfl (fun _ _ => rfl)
    statement_evaluate_eq_ok_iff

/-- A text that is accepted has been read first, and what was read has values. -/
theorem exists_denotes_of_parse {text : String} {statements : List GraphStatement}
    (h : parse text = .ok statements) :
    ∃ spelled, readStatements text = .ok spelled
      ∧ List.Forall₂ Statement.Denotes spelled statements := by
  unfold parse at h
  split at h
  next => cases h
  next spelled hread =>
    split at h
    next => cases h
    next values hvalues =>
      obtain rfl := Except.ok.inj h
      exact ⟨spelled, hread, evaluateStatements_eq_ok_iff.1 hvalues⟩

end PropertyGraph.Query
