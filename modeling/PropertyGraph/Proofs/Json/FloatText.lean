/-
  PropertyGraph.Proofs.Json.FloatText
  ───────────────────────────────────
  **EVERY WRITTEN FLOAT IS LEGAL JSON.**

  Not every float is read back from its text, but every one is read as some
  float (`exists_readNumeral_float`): its text is a number as JSON admits it
  (`LegalNumeral`), it is never a whole number, and the value that its
  leading digits have is finite.
-/
import PropertyGraph.Proofs.Json.Number
import PropertyGraph.Proofs.Number.Parts
import PropertyGraph.Proofs.Number.Scaled

namespace PropertyGraph.Json

open PropertyGraph.Text

/-! ## §1. Legal numbers. -/

/-- The parts of a number that JSON admits. -/
structure LegalNumeral (n : Numeral) : Prop where
  sign : n.sign ≠ .plus
  whole : n.whole = ['0'] ∨ ∃ c digits, n.whole = c :: digits ∧ c ≠ '0'
  whole_digits : ∀ c ∈ n.whole, c.isDigit = true
  fraction : ∀ digits, n.fraction = some digits → digits ≠ [] ∧ ∀ c ∈ digits, c.isDigit = true
  power : ∀ p, n.power = some p →
    (p.mark = 'e' ∨ p.mark = 'E') ∧ p.digits ≠ [] ∧ ∀ c ∈ p.digits, c.isDigit = true

theorem readWhole_text {whole rest : List Char}
    (hwhole : whole = ['0'] ∨ ∃ c digits, whole = c :: digits ∧ c ≠ '0')
    (hdigits : ∀ c ∈ whole, c.isDigit = true) (hrest : Stops Char.isDigit rest) :
    readWhole (whole ++ rest) = some (whole, rest) := by
  obtain rfl | ⟨c, digits, rfl, hc⟩ := hwhole
  · rfl
  · have hne : ∀ tail, c :: digits ++ rest ≠ '0' :: tail := fun tail h => hc (List.cons.inj h).1
    rw [readWhole_of_ne hne, takeWhile_run hdigits hrest, dropWhile_run hdigits hrest]
    exact if_neg Bool.false_ne_true

theorem readPower_text {power : Option PowerOfTen}
    (h : ∀ p, power = some p →
      (p.mark = 'e' ∨ p.mark = 'E') ∧ p.digits ≠ [] ∧ ∀ c ∈ p.digits, c.isDigit = true) :
    readPower (powerText power) = some (power, []) := by
  cases power with
  | none => rfl
  | some p =>
    obtain ⟨mark, sign, digits⟩ := p
    obtain ⟨hmark, hne, hdigits⟩ := h _ rfl
    have hstop : Stops (fun c => c == '+' || c == '-') (digits ++ []) :=
      stops_sign_of_digits hdigits hne
    have hsign := signMark_read_text sign hstop
    have htake := takeWhile_run hdigits (stops_nil Char.isDigit)
    have hdrop := dropWhile_run hdigits (stops_nil Char.isDigit)
    rw [List.append_nil] at hsign htake hdrop
    show readPower (mark :: (sign.text ++ digits)) = _
    rw [readPower, if_pos hmark, hsign]
    dsimp only
    rw [htake, hdrop, if_neg (fun hempty => hne (List.isEmpty_iff.1 hempty))]

/-- A power of ten goes on with neither digits nor a point. -/
theorem stops_powerText {power : Option PowerOfTen}
    (h : ∀ p, power = some p → p.mark = 'e' ∨ p.mark = 'E') :
    Stops (fun c => c.isDigit || c == '.') (powerText power) := by
  cases power with
  | none => exact stops_nil _
  | some p =>
    refine stops_cons ?_
    obtain hmark | hmark := h p rfl
    · rw [hmark]
      decide
    · rw [hmark]
      decide

theorem readFraction_text {fraction : Option (List Char)} {rest : List Char}
    (h : ∀ digits, fraction = some digits → digits ≠ [] ∧ ∀ c ∈ digits, c.isDigit = true)
    (hrest : Stops (fun c => c.isDigit || c == '.') rest) :
    readFraction (fractionText fraction ++ rest) = some (fraction, rest) := by
  cases fraction with
  | none =>
    cases rest with
    | nil => rfl
    | cons c tail =>
      have hc := hrest c tail rfl
      simp only [Bool.or_eq_false_iff, beq_eq_false_iff_ne] at hc
      exact readFraction_of_ne hc.2
  | some digits =>
    obtain ⟨hne, hdigits⟩ := h digits rfl
    have hdigit : Stops Char.isDigit rest :=
      hrest.mono (fun c hc => by simp only [hc, Bool.true_or])
    show readFraction ('.' :: (digits ++ rest)) = _
    rw [readFraction, takeWhile_run hdigits hdigit, dropWhile_run hdigits hdigit]
    exact if_neg (fun hempty => hne (List.isEmpty_iff.1 hempty))

/-- **A legal number is read from its text.** -/
theorem readNumeral_text {n : Numeral} (h : LegalNumeral n) :
    readNumeral n.text = some (n, []) := by
  obtain ⟨sign, whole, fraction, power⟩ := n
  have hstop := stops_powerText (fun p hp => (h.power p hp).1)
  have hdigit : Stops Char.isDigit (fractionText fraction ++ powerText power) := by
    cases fraction with
    | none => exact hstop.mono (fun c hc => by simp only [hc, Bool.true_or])
    | some digits => exact stops_cons (by decide)
  have hunsigned : ∀ mark, readUnsigned mark (whole ++ (fractionText fraction ++ powerText power))
      = some (⟨mark, whole, fraction, power⟩, []) := by
    intro mark
    unfold readUnsigned
    rw [readWhole_text h.whole h.whole_digits hdigit]
    show (readFraction (fractionText fraction ++ powerText power)).bind _ = _
    rw [readFraction_text h.fraction hstop]
    show (readPower (powerText power)).bind _ = _
    rw [readPower_text h.power]
    rfl
  rw [numeral_text]
  cases sign with
  | plus => exact absurd rfl h.sign
  | minus => exact (readNumeral_minus _).trans (hunsigned .minus)
  | absent =>
    refine (readNumeral_of_ne ?_).trans (hunsigned .absent)
    -- the first character is a digit and no sign
    intro tail heq
    obtain hzero | ⟨c, digits, hwhole, -⟩ := h.whole
    · dsimp only at hzero
      rw [hzero] at heq
      cases heq
    · dsimp only at hwhole
      rw [hwhole] at heq
      have hc := h.whole_digits c (by dsimp only; rw [hwhole]; exact List.mem_cons_self)
      rw [(List.cons.inj heq).1] at hc
      exact absurd hc (by decide)

/-! ## §2. Written floats. -/

section

variable {sign : SignMark} {d : Decimal}

/-- The digits of a decimal that is not zero do not begin with a zero. -/
theorem exists_digits_eq (h : d.coefficient ≠ 0) :
    ∃ c digits, d.digits = c :: digits ∧ c ≠ '0' := by
  cases hdigits : d.digits with
  | nil => exact absurd hdigits d.digits_ne_nil
  | cons c digits => exact ⟨c, digits, rfl, toDigits_head_ne_zero h hdigits⟩

theorem legalNumeral_positional (hsign : sign ≠ .plus) (h : d.coefficient ≠ 0) :
    LegalNumeral (d.positionalNumeral sign) := by
  obtain ⟨c, digits, hdigits, hc⟩ := exists_digits_eq h
  have hall := d.isDigit_of_mem_digits
  have hzeros : ∀ n, ∀ c ∈ List.replicate n '0', c.isDigit = true := by
    intro n c hc
    rw [List.eq_of_mem_replicate hc]
    decide
  unfold Decimal.positionalNumeral
  dsimp only
  split
  next =>
    refine ⟨hsign, .inl rfl, List.forall_mem_singleton.2 (by decide), ?_, fun p hp => nomatch hp⟩
    intro fraction heq
    obtain rfl := Option.some.inj heq
    exact ⟨List.append_ne_nil_of_right_ne_nil _ d.digits_ne_nil,
      List.forall_mem_append.2 ⟨hzeros _, hall⟩⟩
  next hfirst =>
    split
    next =>
      refine ⟨hsign, .inr ⟨c, _, by rw [hdigits]; rfl, hc⟩,
        List.forall_mem_append.2 ⟨hall, hzeros _⟩, ?_, fun p hp => nomatch hp⟩
      intro fraction heq
      obtain rfl := Option.some.inj heq
      exact ⟨List.cons_ne_nil _ _, List.forall_mem_singleton.2 (by decide)⟩
    next hlonger =>
      refine ⟨hsign, .inr ⟨c, _, by rw [hdigits]; rfl, hc⟩,
        fun c hc => hall c (List.mem_of_mem_take hc), ?_, fun p hp => nomatch hp⟩
      intro fraction heq
      obtain rfl := Option.some.inj heq
      refine ⟨?_, fun c hc => hall c (List.mem_of_mem_drop hc)⟩
      rw [Ne, List.drop_eq_nil_iff]
      omega

theorem legalNumeral_scientific (hsign : sign ≠ .plus) (h : d.coefficient ≠ 0) :
    LegalNumeral (d.scientificNumeral sign) := by
  obtain ⟨c, digits, hdigits, hc⟩ := exists_digits_eq h
  have hall := d.isDigit_of_mem_digits
  refine ⟨hsign, .inr ⟨c, [], ?_, hc⟩, fun c hc => hall c (List.mem_of_mem_take hc), ?_, ?_⟩
  · show d.digits.take 1 = [c]
    rw [hdigits]
    rfl
  · intro fraction heq
    change (if d.digits.drop 1 = [] then none else some (d.digits.drop 1)) = some fraction at heq
    split at heq
    next => cases heq
    next hne =>
      obtain rfl := Option.some.inj heq
      exact ⟨hne, fun c hc => hall c (List.mem_of_mem_drop hc)⟩
  · intro p heq
    obtain rfl := Option.some.inj heq
    exact ⟨.inl rfl, Nat.toDigits_ne_nil, isDigit_of_mem_toDigits⟩

end

/-- The text of a float is a legal number. -/
theorem legalNumeral_numeral (x : Finite64) : LegalNumeral x.numeral := by
  have hsign : (if x.negative then SignMark.minus else .absent) ≠ .plus := by
    split <;> exact fun h => nomatch h
  unfold Finite64.numeral
  by_cases hzero : x.rank = 0
  · have hshortest : x.shortest .even = ⟨0, 0⟩ := by
      unfold Finite64.shortest
      exact if_pos hzero
    rw [hshortest]
    refine ⟨hsign, .inl rfl, List.forall_mem_singleton.2 (by decide), ?_, fun p hp => nomatch hp⟩
    intro fraction heq
    obtain rfl := Option.some.inj heq
    exact ⟨List.cons_ne_nil _ _, List.forall_mem_singleton.2 (by decide)⟩
  · have hne : (x.shortest .even).coefficient ≠ 0 := Finite64.coefficient_shortest_ne_zero hzero
    unfold Decimal.numeral
    split
    · exact legalNumeral_positional hsign hne
    · exact legalNumeral_scientific hsign hne

/-- **Every written float is read as a float.** -/
theorem exists_readNumeral_float (x : Finite64) :
    readNumeral (x.text numberStyle) = some (x.numeral, [])
      ∧ ∃ y, ofNumeral? x.numeral = some (.float y) := by
  refine ⟨?_, ?_⟩
  · rw [← x.numeral_text]
    exact readNumeral_text (legalNumeral_numeral x)
  · obtain ⟨y, hy⟩ := x.exists_toScaledBinary64_numeral
    have hwhole : x.numeral.isWhole = false := Decimal.isWhole_numeral _ _
    refine ⟨y, ?_⟩
    unfold ofNumeral?
    rw [hwhole, if_neg (fun hand => Bool.false_ne_true hand.1), hy]
    rfl

end PropertyGraph.Json
