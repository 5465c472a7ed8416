/-
  PropertyGraph.Proofs.Json.Number
  ────────────────────────────────
  **NUMBERS ARE READ BACK FROM THE MIDDLE OF A TEXT.**

  A number is read as far as it goes, so what a reader makes of it could
  depend on the text after it.  It does not, if that text begins with
  neither digit, point nor the letter of a power of ten (`EndsNumber`): then
  a number read on its own is read in front of it too
  (`readNumeral_append`).

      readNumeral_intText  — the digits of an integer
      ReadsBack            — a float that its own text gives back
      readNumeral_float    — the digits of such a float
-/
import PropertyGraph.Json.Printer
import PropertyGraph.Json.Reader
import PropertyGraph.Proofs.Text.Run

namespace PropertyGraph.Json

open PropertyGraph.Text

/-! ## §1. Where a number ends. -/

/-- Characters with which a number may go on. -/
def continuesNumber (c : Char) : Bool := c.isDigit || c == '.' || c == 'e' || c == 'E'

/-- The text does not go on with a number before it. -/
abbrev EndsNumber (rest : List Char) : Prop := Stops continuesNumber rest

theorem EndsNumber.digit {rest : List Char} (h : EndsNumber rest) : Stops Char.isDigit rest :=
  h.mono (fun c hc => by simp only [continuesNumber, hc, Bool.true_or])

theorem EndsNumber.head {c : Char} {tail : List Char} (h : EndsNumber (c :: tail)) :
    c ≠ '.' ∧ ¬ (c = 'e' ∨ c = 'E') := by
  have hc := h c tail rfl
  simp only [continuesNumber, Bool.or_eq_false_iff, beq_eq_false_iff_ne] at hc
  exact ⟨hc.1.1.2, fun hor => hor.elim hc.1.2 hc.2⟩

theorem readFraction_of_ne {c : Char} {tail : List Char} (h : c ≠ '.') :
    readFraction (c :: tail) = some (none, c :: tail) := by
  unfold readFraction
  split
  next heq => exact absurd (List.cons.inj heq).1 h
  next => rfl

theorem readPower_of_ne {c : Char} {tail : List Char} (h : ¬ (c = 'e' ∨ c = 'E')) :
    readPower (c :: tail) = some (none, c :: tail) := by
  unfold readPower
  exact if_neg h

theorem readWhole_of_ne {text : List Char} (h : ∀ tail, text ≠ '0' :: tail) :
    readWhole text = if (text.takeWhile Char.isDigit).isEmpty then none
      else some (text.takeWhile Char.isDigit, text.dropWhile Char.isDigit) := by
  unfold readWhole
  split
  next tail => exact absurd rfl (h tail)
  next => rfl

section

variable {rest : List Char}

theorem readWhole_append (hrest : EndsNumber rest) {text whole left : List Char}
    (h : readWhole text = some (whole, left)) :
    readWhole (text ++ rest) = some (whole, left ++ rest) := by
  by_cases hzero : ∃ tail, text = '0' :: tail
  · obtain ⟨tail, rfl⟩ := hzero
    obtain ⟨rfl, rfl⟩ := Prod.mk.inj (Option.some.inj h)
    rfl
  · have hne : ∀ tail, text ≠ '0' :: tail := fun tail heq => hzero ⟨tail, heq⟩
    have hrun := takeWhile_append_stops hrest.digit text
    have hleft := dropWhile_append_stops hrest.digit text
    rw [readWhole_of_ne hne] at h
    split at h
    · cases h
    · next hsome =>
      obtain ⟨rfl, rfl⟩ := Prod.mk.inj (Option.some.inj h)
      -- the text begins with a digit, so it is not empty and stays apart from a zero
      have hne' : ∀ tail, text ++ rest ≠ '0' :: tail := by
        intro tail heq
        cases text with
        | nil => exact hsome rfl
        | cons c cs => exact hne cs (by rw [(List.cons.inj heq).1])
      rw [readWhole_of_ne hne', hrun, hleft, if_neg hsome]

theorem readFraction_append (hrest : EndsNumber rest) {text left : List Char}
    {fraction : Option (List Char)} (h : readFraction text = some (fraction, left)) :
    readFraction (text ++ rest) = some (fraction, left ++ rest) := by
  cases text with
  | nil =>
    obtain ⟨rfl, rfl⟩ := Prod.mk.inj (Option.some.inj h)
    cases rest with
    | nil => rfl
    | cons c tail => exact readFraction_of_ne hrest.head.1
  | cons c tail =>
    by_cases hc : c = '.'
    · subst hc
      have hrun := takeWhile_append_stops hrest.digit tail
      have hleft := dropWhile_append_stops hrest.digit tail
      rw [readFraction] at h
      rw [List.cons_append, readFraction]
      simp only [hrun, hleft] at h ⊢
      split at h
      · cases h
      · next hsome =>
        obtain ⟨rfl, rfl⟩ := Prod.mk.inj (Option.some.inj h)
        rw [if_neg hsome]
    · rw [readFraction_of_ne hc] at h
      obtain ⟨rfl, rfl⟩ := Prod.mk.inj (Option.some.inj h)
      rw [List.cons_append, readFraction_of_ne hc]

theorem signMark_read_append {c : Char} {tail : List Char} :
    SignMark.read (c :: tail ++ rest)
      = ((SignMark.read (c :: tail)).1, (SignMark.read (c :: tail)).2 ++ rest) := by
  by_cases hplus : c = '+'
  · subst hplus; rfl
  · by_cases hminus : c = '-'
    · subst hminus; rfl
    · have hread : ∀ text, SignMark.read (c :: text) = (.absent, c :: text) := by
        intro text
        unfold SignMark.read
        split
        next heq => exact absurd (List.cons.inj heq).1 hplus
        next heq => exact absurd (List.cons.inj heq).1 hminus
        next => rfl
      rw [List.cons_append, hread, hread]
      rfl

theorem readPower_append (hrest : EndsNumber rest) {text left : List Char}
    {power : Option PowerOfTen} (h : readPower text = some (power, left)) :
    readPower (text ++ rest) = some (power, left ++ rest) := by
  cases text with
  | nil =>
    obtain ⟨rfl, rfl⟩ := Prod.mk.inj (Option.some.inj h)
    cases rest with
    | nil => rfl
    | cons c tail => exact readPower_of_ne hrest.head.2
  | cons c tail =>
    by_cases hc : c = 'e' ∨ c = 'E'
    · cases tail with
      | nil =>
        rw [readPower, if_pos hc] at h
        cases h
      | cons d ds =>
        have hrun := takeWhile_append_stops hrest.digit (SignMark.read (d :: ds)).2
        have hleft := dropWhile_append_stops hrest.digit (SignMark.read (d :: ds)).2
        rw [readPower, if_pos hc] at h
        -- digits are missing or not, whatever comes after them
        rw [List.cons_append, readPower, if_pos hc, signMark_read_append]
        simp only [hrun, hleft] at h ⊢
        split at h
        · cases h
        · next hsome =>
          obtain ⟨rfl, rfl⟩ := Prod.mk.inj (Option.some.inj h)
          rw [if_neg hsome]
    · rw [readPower_of_ne hc] at h
      obtain ⟨rfl, rfl⟩ := Prod.mk.inj (Option.some.inj h)
      rw [List.cons_append, readPower_of_ne hc]

/-- The parts of a number after its sign. -/
def readUnsigned (sign : SignMark) (text : List Char) : Option (Numeral × List Char) := do
  let (whole, text) ← readWhole text
  let (fraction, text) ← readFraction text
  let (power, text) ← readPower text
  return (⟨sign, whole, fraction, power⟩, text)

theorem readNumeral_minus (text : List Char) :
    readNumeral ('-' :: text) = readUnsigned .minus text := rfl

theorem readNumeral_of_ne {text : List Char} (h : ∀ tail, text ≠ '-' :: tail) :
    readNumeral text = readUnsigned .absent text := by
  unfold readNumeral
  split
  next heq =>
    split at heq
    next tail => exact absurd rfl (h tail)
    next => obtain ⟨rfl, rfl⟩ := Prod.mk.inj heq; rfl

theorem readUnsigned_append (hrest : EndsNumber rest) {sign : SignMark} {text left : List Char}
    {n : Numeral} (h : readUnsigned sign text = some (n, left)) :
    readUnsigned sign (text ++ rest) = some (n, left ++ rest) := by
  unfold readUnsigned at h ⊢
  obtain ⟨⟨whole, t₁⟩, hwhole, h⟩ := Option.bind_eq_some_iff.1 h
  obtain ⟨⟨fraction, t₂⟩, hfraction, h⟩ := Option.bind_eq_some_iff.1 h
  obtain ⟨⟨power, t₃⟩, hpower, h⟩ := Option.bind_eq_some_iff.1 h
  obtain ⟨rfl, rfl⟩ := Prod.mk.inj (Option.some.inj h)
  rw [readWhole_append hrest hwhole]
  show (readFraction (t₁ ++ rest)).bind _ = _
  rw [readFraction_append hrest hfraction]
  show (readPower (t₂ ++ rest)).bind _ = _
  rw [readPower_append hrest hpower]
  rfl

/-- **A number read on its own** is read in front of a text that ends it. -/
theorem readNumeral_append (hrest : EndsNumber rest) {c : Char} {text left : List Char}
    {n : Numeral} (h : readNumeral (c :: text) = some (n, left)) :
    readNumeral (c :: text ++ rest) = some (n, left ++ rest) := by
  by_cases hc : c = '-'
  · subst hc
    exact readUnsigned_append hrest h
  · have hne : ∀ text tail, c :: text ≠ '-' :: tail := fun _ _ heq => hc (List.cons.inj heq).1
    rw [readNumeral_of_ne (hne text)] at h
    rw [List.cons_append, readNumeral_of_ne (hne _)]
    exact readUnsigned_append hrest h

/-! ## §2. What a number leaves over. -/

theorem readWhole_subset {text whole left : List Char}
    (h : readWhole text = some (whole, left)) : left ⊆ text := by
  by_cases hzero : ∃ tail, text = '0' :: tail
  · obtain ⟨tail, rfl⟩ := hzero
    obtain ⟨-, rfl⟩ := Prod.mk.inj (Option.some.inj h)
    exact List.subset_cons_self _ _
  · rw [readWhole_of_ne (fun tail heq => hzero ⟨tail, heq⟩)] at h
    split at h
    · cases h
    · obtain ⟨-, rfl⟩ := Prod.mk.inj (Option.some.inj h)
      exact List.dropWhile_subset _

theorem readFraction_subset {text left : List Char} {fraction : Option (List Char)}
    (h : readFraction text = some (fraction, left)) : left ⊆ text := by
  unfold readFraction at h
  split at h
  next tail =>
    dsimp only at h
    split at h
    · cases h
    · obtain ⟨-, rfl⟩ := Prod.mk.inj (Option.some.inj h)
      exact fun c hc => List.mem_cons_of_mem _ (List.dropWhile_subset _ hc)
  next =>
    obtain ⟨-, rfl⟩ := Prod.mk.inj (Option.some.inj h)
    exact fun c hc => hc

theorem signMark_read_subset (text : List Char) : (SignMark.read text).2 ⊆ text := by
  unfold SignMark.read
  split
  · exact List.subset_cons_self _ _
  · exact List.subset_cons_self _ _
  · exact fun c hc => hc

theorem readPower_subset {text left : List Char} {power : Option PowerOfTen}
    (h : readPower text = some (power, left)) : left ⊆ text := by
  unfold readPower at h
  split at h
  next c tail =>
    split at h
    · dsimp only at h
      split at h
      · cases h
      · obtain ⟨-, rfl⟩ := Prod.mk.inj (Option.some.inj h)
        intro d hd
        exact List.mem_cons_of_mem _ (signMark_read_subset tail (List.dropWhile_subset _ hd))
    · obtain ⟨-, rfl⟩ := Prod.mk.inj (Option.some.inj h)
      exact fun c hc => hc
  next =>
    obtain ⟨-, rfl⟩ := Prod.mk.inj (Option.some.inj h)
    exact fun c hc => hc

theorem readUnsigned_subset {sign : SignMark} {text left : List Char} {n : Numeral}
    (h : readUnsigned sign text = some (n, left)) : left ⊆ text := by
  unfold readUnsigned at h
  obtain ⟨⟨whole, t₁⟩, hwhole, h⟩ := Option.bind_eq_some_iff.1 h
  obtain ⟨⟨fraction, t₂⟩, hfraction, h⟩ := Option.bind_eq_some_iff.1 h
  obtain ⟨⟨power, t₃⟩, hpower, h⟩ := Option.bind_eq_some_iff.1 h
  obtain ⟨-, rfl⟩ := Prod.mk.inj (Option.some.inj h)
  intro c hc
  exact readWhole_subset hwhole (readFraction_subset hfraction (readPower_subset hpower hc))

theorem readNumeral_subset {text left : List Char} {n : Numeral}
    (h : readNumeral text = some (n, left)) : left ⊆ text := by
  by_cases hminus : ∃ tail, text = '-' :: tail
  · obtain ⟨tail, rfl⟩ := hminus
    intro c hc
    exact List.mem_cons_of_mem _ (readUnsigned_subset h hc)
  · rw [readNumeral_of_ne (fun tail heq => hminus ⟨tail, heq⟩)] at h
    exact readUnsigned_subset h

end

/-! ## §3. Values that are numbers. -/

/-- Characters with which a number may begin. -/
def beginsNumber (c : Char) : Bool := c.isDigit || c == '-'

theorem beginsNumber_ne {c : Char} (h : beginsNumber c = true) :
    isBlank c = false ∧ c ≠ '"' ∧ c ≠ '[' ∧ c ≠ '\x7b' ∧ c ≠ 'n' ∧ c ≠ 't' ∧ c ≠ 'f' := by
  refine ⟨?_, ?_, ?_, ?_, ?_, ?_, ?_⟩
  · cases hblank : isBlank c with
    | false => rfl
    | true =>
      simp only [isBlank, Bool.or_eq_true, beq_iff_eq] at hblank
      rcases hblank with ((rfl | rfl) | rfl) | rfl <;> exact absurd h (by decide)
  all_goals
    intro heq
    subst heq
    exact absurd h (by decide)

theorem skipBlanks_of_not_blank {c : Char} {text : List Char} (h : isBlank c = false) :
    skipBlanks (c :: text) = c :: text :=
  dropWhile_stops (stops_cons h)

/-- Where a number begins, a value is a number. -/
theorem readValue_number {fuel depth : Nat} {c : Char} {text : List Char}
    (hc : beginsNumber c = true) :
    readValue (fuel + 1) depth (c :: text)
      = (readNumeral (c :: text)).bind (fun result =>
          (ofNumeral? result.1).map (fun value => (value, result.2))) := by
  obtain ⟨hblank, hquote, hbracket, hbrace, hn, ht, hf⟩ := beginsNumber_ne hc
  rw [readValue, skipBlanks_of_not_blank hblank]
  split
  next heq => exact absurd (List.cons.inj heq).1 hquote
  next heq => exact absurd (List.cons.inj heq).1 hbracket
  next heq => exact absurd (List.cons.inj heq).1 hbrace
  next heq => exact absurd (List.cons.inj heq).1 hn
  next heq => exact absurd (List.cons.inj heq).1 ht
  next heq => exact absurd (List.cons.inj heq).1 hf
  next =>
    cases readNumeral (c :: text) with
    | none => rfl
    | some result =>
      obtain ⟨n, left⟩ := result
      show (ofNumeral? n).bind _ = (ofNumeral? n).map _
      cases ofNumeral? n <;> rfl

/-- A number read on its own is the value read in front of a text that ends
it. -/
theorem readValue_of_readNumeral {fuel depth : Nat} {text rest : List Char} {n : Numeral}
    {value : Json} (hrest : EndsNumber rest)
    (hbegin : ∃ c tail, text = c :: tail ∧ beginsNumber c = true)
    (hread : readNumeral text = some (n, [])) (hvalue : ofNumeral? n = some value) :
    readValue (fuel + 1) depth (text ++ rest) = some (value, rest) := by
  obtain ⟨c, tail, rfl, hc⟩ := hbegin
  have happend := readNumeral_append hrest hread
  rw [List.cons_append] at happend ⊢
  rw [readValue_number hc, happend, Option.bind_some, hvalue]
  rfl

/-! ## §4. Integers. -/

/-- The digits of a number are read as that number. -/
theorem readUnsigned_toDigits (sign : SignMark) (n : Nat) :
    readUnsigned sign (Nat.toDigits 10 n) = some (⟨sign, Nat.toDigits 10 n, none, none⟩, []) := by
  have hwhole : readWhole (Nat.toDigits 10 n) = some (Nat.toDigits 10 n, []) := by
    by_cases hzero : n = 0
    · subst hzero
      rw [Nat.toDigits_zero]
      rfl
    · have hne : ∀ tail, Nat.toDigits 10 n ≠ '0' :: tail := fun tail heq =>
        toDigits_head_ne_zero hzero heq rfl
      have htake := takeWhile_run (isDigit_of_mem_toDigits (n := n)) (stops_nil Char.isDigit)
      have hdrop := dropWhile_run (isDigit_of_mem_toDigits (n := n)) (stops_nil Char.isDigit)
      rw [List.append_nil] at htake hdrop
      rw [readWhole_of_ne hne, htake, hdrop, if_neg]
      intro hempty
      exact Nat.toDigits_ne_nil (List.isEmpty_iff.1 hempty)
  unfold readUnsigned
  rw [hwhole]
  rfl

theorem toDigits_begins (n : Nat) :
    ∃ c tail, Nat.toDigits 10 n = c :: tail ∧ c.isDigit = true ∧ c ≠ '-' := by
  cases hdigits : Nat.toDigits 10 n with
  | nil => exact absurd hdigits Nat.toDigits_ne_nil
  | cons c tail =>
    have hc : c.isDigit = true := isDigit_of_mem_toDigits c (hdigits ▸ List.mem_cons_self)
    refine ⟨c, tail, rfl, hc, ?_⟩
    intro heq
    subst heq
    exact absurd hc (by decide)

/-- The number that an integer is written as. -/
def intNumeral (i : Int) : Numeral :=
  ⟨if i < 0 then .minus else .absent, Nat.toDigits 10 i.natAbs, none, none⟩

theorem readNumeral_intText (i : Int) : readNumeral (intText i) = some (intNumeral i, []) := by
  unfold intText intNumeral
  by_cases hneg : i < 0
  · rw [if_pos hneg, if_pos hneg, readNumeral_minus, readUnsigned_toDigits]
  · obtain ⟨c, tail, hdigits, -, hc⟩ := toDigits_begins i.natAbs
    have hne : ∀ t, Nat.toDigits 10 i.natAbs ≠ '-' :: t := by
      intro t heq
      rw [hdigits] at heq
      exact hc (List.cons.inj heq).1
    rw [if_neg hneg, if_neg hneg, readNumeral_of_ne hne, readUnsigned_toDigits]

theorem toInt_intNumeral (i : Int) : (intNumeral i).toInt = i := by
  have hcoefficient : (intNumeral i).coefficient = i.natAbs := by
    show Nat.ofDigitChars 10 (Nat.toDigits 10 i.natAbs ++ []) 0 = i.natAbs
    rw [List.append_nil, Nat.ofDigitChars_ten_toDigits]
  unfold Numeral.toInt
  rw [hcoefficient]
  unfold intNumeral SignMark.apply
  by_cases hneg : i < 0
  · rw [if_pos hneg]
    show -(i.natAbs : Int) = i
    omega
  · rw [if_neg hneg]
    show (i.natAbs : Int) = i
    omega

/-- The integers that are read as integers. -/
def FitsInt (i : Int) : Prop := Int64.minValue.toInt ≤ i ∧ i < UInt64.size

theorem ofNumeral?_intNumeral {i : Int} (h : FitsInt i) :
    ofNumeral? (intNumeral i) = some (.int i) := by
  have hsign : ¬ (i = 0 ∧ (intNumeral i).sign.negative = true) := by
    intro hex
    obtain ⟨rfl, hneg⟩ := hex
    exact absurd hneg (by decide)
  unfold ofNumeral?
  rw [toInt_intNumeral, if_pos ⟨rfl, h.1, h.2, hsign⟩]

theorem intText_begins (i : Int) :
    ∃ c tail, intText i = c :: tail ∧ beginsNumber c = true := by
  unfold intText
  by_cases hneg : i < 0
  · rw [if_pos hneg]
    exact ⟨'-', _, rfl, rfl⟩
  · obtain ⟨c, tail, hdigits, hc, -⟩ := toDigits_begins i.natAbs
    rw [if_neg hneg]
    refine ⟨c, tail, hdigits, ?_⟩
    simp only [beginsNumber, hc, Bool.true_or]

/-! ## §5. Floats. -/

/-- The text of the float gives the float back. -/
def ReadsBack (x : Finite64) : Prop := parse 0 (compact (.float x)) = some (.float x)

theorem readsBack_iff {x : Finite64} :
    ReadsBack x ↔ (match parse 0 (compact (.float x)) with
      | some (.float y) => decide (y = x)
      | _ => false) = true := by
  unfold ReadsBack
  cases hparse : parse 0 (compact (.float x)) with
  | none =>
    constructor
    · intro h
      cases h
    · intro h
      cases h
  | some value =>
    cases value with
    | float y =>
      rw [decide_eq_true_iff]
      constructor
      · intro h
        exact Json.float.inj (Option.some.inj h)
      · intro h
        rw [h]
    | _ =>
      constructor
      · intro h
        cases h
      · intro h
        cases h

instance (x : Finite64) : Decidable (ReadsBack x) := decidable_of_iff _ readsBack_iff.symm

theorem isBlank_of_isDigit {c : Char} (h : c.isDigit = true) : isBlank c = false :=
  (beginsNumber_ne (by simp only [beginsNumber, h, Bool.true_or])).1

theorem digits_not_blank (d : Decimal) : ∀ c ∈ d.digits, isBlank c = false :=
  fun c hc => isBlank_of_isDigit (isDigit_of_mem_toDigits c hc)

theorem zeros_not_blank (n : Nat) : ∀ c ∈ List.replicate n '0', isBlank c = false := by
  intro c hc
  rw [List.eq_of_mem_replicate hc]
  rfl

theorem positionalText_not_blank (showsPoint : Bool) (d : Decimal) :
    ∀ c ∈ d.positionalText showsPoint, isBlank c = false := by
  unfold Decimal.positionalText
  dsimp only
  split
  · simp only [List.forall_mem_cons, List.forall_mem_append]
    exact ⟨rfl, rfl, zeros_not_blank _, digits_not_blank d⟩
  · split
    · simp only [List.forall_mem_append]
      refine ⟨⟨digits_not_blank d, zeros_not_blank _⟩, ?_⟩
      split
      · simp only [List.forall_mem_cons]
        exact ⟨rfl, rfl, fun c hc => absurd hc List.not_mem_nil⟩
      · exact fun c hc => absurd hc List.not_mem_nil
    · simp only [List.forall_mem_cons, List.forall_mem_append]
      exact ⟨fun c hc => digits_not_blank d c (List.mem_of_mem_take hc), rfl,
        fun c hc => digits_not_blank d c (List.mem_of_mem_drop hc)⟩

theorem scientificText_not_blank (d : Decimal) : ∀ c ∈ d.scientificText, isBlank c = false := by
  unfold Decimal.scientificText
  simp only [List.forall_mem_cons, List.forall_mem_append]
  refine ⟨⟨fun c hc => digits_not_blank d c (List.mem_of_mem_take hc), ?_⟩, rfl, ?_,
    fun c hc => isBlank_of_isDigit (isDigit_of_mem_toDigits c hc)⟩
  · split
    · exact fun c hc => absurd hc List.not_mem_nil
    · simp only [List.forall_mem_cons]
      exact ⟨rfl, fun c hc => digits_not_blank d c (List.mem_of_mem_drop hc)⟩
  · split <;> rfl

/-- A decimal is written without blanks. -/
theorem text_not_blank (style : NumberStyle) (d : Decimal) :
    ∀ c ∈ d.text style, isBlank c = false := by
  unfold Decimal.text
  split
  · exact positionalText_not_blank _ d
  · split
    · exact positionalText_not_blank _ d
    · exact scientificText_not_blank d

/-- A decimal is written beginning with a digit. -/
theorem text_begins (style : NumberStyle) (d : Decimal) :
    ∃ c tail, d.text style = c :: tail ∧ c.isDigit = true := by
  obtain ⟨c, tail, hdigits, hc, -⟩ := toDigits_begins d.coefficient
  have hpositional : ∀ showsPoint,
      ∃ c tail, d.positionalText showsPoint = c :: tail ∧ c.isDigit = true := by
    intro showsPoint
    unfold Decimal.positionalText Decimal.digits
    dsimp only
    split
    · exact ⟨'0', _, rfl, rfl⟩
    · split
      · rw [hdigits]
        exact ⟨c, _, rfl, hc⟩
      · rw [hdigits]
        exact ⟨c, _, rfl, hc⟩
  unfold Decimal.text
  split
  · exact hpositional _
  · split
    · exact hpositional _
    · unfold Decimal.scientificText Decimal.digits
      rw [hdigits]
      exact ⟨c, _, rfl, hc⟩

theorem float_text_not_blank (style : NumberStyle) (x : Finite64) :
    ∀ c ∈ x.text style, isBlank c = false := by
  unfold Finite64.text
  simp only [List.forall_mem_append]
  refine ⟨?_, text_not_blank style _⟩
  split
  · simp only [List.forall_mem_cons]
    exact ⟨rfl, fun c hc => absurd hc List.not_mem_nil⟩
  · exact fun c hc => absurd hc List.not_mem_nil

theorem float_text_begins (style : NumberStyle) (x : Finite64) :
    ∃ c tail, x.text style = c :: tail ∧ beginsNumber c = true := by
  unfold Finite64.text
  split
  · exact ⟨'-', _, rfl, rfl⟩
  · obtain ⟨c, tail, htext, hc⟩ := text_begins style (x.shortest style.tie)
    rw [List.nil_append, htext]
    refine ⟨c, tail, rfl, ?_⟩
    simp only [beginsNumber, hc, Bool.true_or]

/-- **What reading back means**: the whole text of the float is one number,
and that number is the float. -/
theorem ReadsBack.readNumeral {x : Finite64} (h : ReadsBack x) :
    ∃ n, Json.readNumeral (x.text numberStyle) = some (n, []) ∧ ofNumeral? n = some (.float x) := by
  obtain ⟨c, tail, htext, hc⟩ := float_text_begins numberStyle x
  unfold ReadsBack compact Json.text parse at h
  rw [String.toList_ofList] at h
  rw [write, List.append_nil, htext] at h
  dsimp only at h
  rw [readValue_number hc] at h
  cases hread : Json.readNumeral (c :: tail) with
  | none =>
    rw [hread] at h
    cases h
  | some result =>
    obtain ⟨n, left⟩ := result
    rw [hread, Option.bind_some] at h
    cases hvalue : ofNumeral? n with
    | none =>
      rw [hvalue] at h
      cases h
    | some value =>
      rw [hvalue] at h
      dsimp only [Option.map_some] at h
      split at h
      next hleft =>
        -- only blanks could be left over, and there are none in the text
        have hnil : left = [] := by
          cases hl : left with
          | nil => rfl
          | cons d rest =>
            subst hl
            have hd : isBlank d = false := by
              refine float_text_not_blank numberStyle x d ?_
              rw [htext]
              exact readNumeral_subset hread List.mem_cons_self
            rw [skipBlanks_of_not_blank hd] at hleft
            cases hleft
        rw [htext, hread, hnil]
        exact ⟨n, rfl, Option.some.inj h ▸ hvalue⟩
      next => cases h

end PropertyGraph.Json
