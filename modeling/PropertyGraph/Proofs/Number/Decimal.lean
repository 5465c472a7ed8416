/-
  PropertyGraph.Proofs.Number.Decimal
  ───────────────────────────────────
  **A DECIMAL IS READ BY ITS VALUE.**

  What a number in the text is read as depends on its decimal value alone:

      ofDecimal_eq_ofRank     — no magnitude is decided by its exponent
      finite_ofDecimal_iff    — finite below 2^1024 − 2^970
      ofDecimal_mul_pow       — zeros at the end move the point
      Finite64.text_injective — different floats are written differently

  The text of a float keeps the value of the decimal that was chosen for it
  (`coefficient_numeral`), and that one reads back.  So the text reads back,
  and two floats with one text are one float.
-/
import PropertyGraph.Proofs.Json.FloatText
import PropertyGraph.Proofs.Number.Nearest

namespace PropertyGraph

/-! ## §1. The rank of a decimal. -/

/-- Equal quotients have equal ranks. -/
theorem nearestRank_congr {num den num' den' : Nat} (hden : 0 < den) (hden' : 0 < den')
    (h : num * den' = num' * den) : nearestRank num den = nearestRank num' den' :=
  Nat.le_antisymm (nearestRank_le_nearestRank hden hden' (Nat.le_of_eq h))
    (nearestRank_le_nearestRank hden' hden (Nat.le_of_eq h.symm))

/-- Less than half of the smallest positive float is rounded to zero. -/
theorem nearestRank_eq_zero {num den : Nat} (h : 2 * num < den) : nearestRank num den = 0 := by
  have hquotient : num / den = 0 := Nat.div_eq_of_lt (by omega)
  have hrest : num % den = num := Nat.mod_eq_of_lt (by omega)
  rw [nearestRank_eq, hquotient]
  show 0 * leadingOne + roundQuotient num (den * 1) = 0
  unfold roundQuotient
  rw [Nat.mul_one, hquotient, hrest, if_pos h, Nat.zero_mul]

theorem pow_ten_pos (n : Nat) : 0 < Nat.pow 10 n := Nat.pow_pos (by decide)

theorem pow_ten_le {m n : Nat} (h : m ≤ n) : Nat.pow 10 m ≤ Nat.pow 10 n :=
  Nat.pow_le_pow_right (by decide) h

theorem pow_ten_add (m n : Nat) : Nat.pow 10 (m + n) = Nat.pow 10 m * Nat.pow 10 n :=
  Nat.pow_add 10 m n

namespace Binary64

theorem ofRank_zero (negative : Bool) : ofRank negative 0 = .finite (Finite64.zero negative) := rfl

/-- The rank of a decimal. -/
def decimalRank (coefficient : Nat) (exponent : Int) : Nat :=
  nearestRank (coefficient * Nat.pow 10 exponent.toNat * unitsInOne) (Nat.pow 10 (-exponent).toNat)

/-- Past `10^400` there is no finite float. -/
theorem le_decimalRank {coefficient : Nat} {exponent : Int} (hne : coefficient ≠ 0)
    (h : 400 < exponent) : 2047 * leadingOne ≤ decimalRank coefficient exponent := by
  have hdown : (-exponent).toNat = 0 := by omega
  unfold decimalRank
  rw [hdown]
  refine Nat.le_of_not_lt (fun hlt => ?_)
  have hbelow := (nearestRank_lt_iff Nat.one_pos).1 hlt
  rw [Nat.mul_one] at hbelow
  obtain ⟨places, hplaces, hlarge⟩ : ∃ places, places = 400
      ∧ firstInfinite ≤ Nat.pow 10 places * unitsInOne := ⟨400, rfl, by decide +kernel⟩
  have hpow : Nat.pow 10 places ≤ coefficient * Nat.pow 10 exponent.toNat :=
    Nat.le_trans (pow_ten_le (by omega))
      (Nat.le_mul_of_pos_left _ (Nat.pos_of_ne_zero hne))
  exact Nat.not_lt.2 (Nat.le_trans hlarge (Nat.mul_le_mul_right unitsInOne hpow)) hbelow

/-- Of the digits of a coefficient nothing is left `400` places further down. -/
theorem decimalRank_eq_zero {coefficient : Nat} {exponent : Int}
    (h : exponent < -(400 + (Nat.log2 coefficient : Int))) :
    decimalRank coefficient exponent = 0 := by
  have hup : exponent.toNat = 0 := by omega
  unfold decimalRank
  rw [hup]
  refine nearestRank_eq_zero ?_
  have hsize : coefficient < 2 ^ (Nat.log2 coefficient + 1) := Nat.lt_log2_self
  obtain ⟨places, hplaces, hunits⟩ : ∃ places, places = 401
      ∧ 4 * unitsInOne ≤ Nat.pow 10 places := ⟨401, rfl, by decide +kernel⟩
  have htens : Nat.pow 10 (places + Nat.log2 coefficient) ≤ Nat.pow 10 (-exponent).toNat :=
    pow_ten_le (by omega)
  have htwos : 2 ^ Nat.log2 coefficient ≤ Nat.pow 10 (Nat.log2 coefficient) :=
    Nat.pow_le_pow_left (by decide) _
  calc 2 * (coefficient * 1 * unitsInOne) < 2 * (2 ^ (Nat.log2 coefficient + 1) * unitsInOne) := by
        rw [Nat.mul_one]
        exact Nat.mul_lt_mul_of_pos_left (Nat.mul_lt_mul_of_pos_right hsize unitsInOne_pos)
          Nat.two_pos
    _ = 4 * unitsInOne * 2 ^ Nat.log2 coefficient := by rw [Nat.pow_succ]; ring
    _ ≤ Nat.pow 10 places * Nat.pow 10 (Nat.log2 coefficient) := Nat.mul_le_mul hunits htwos
    _ = Nat.pow 10 (places + Nat.log2 coefficient) := (pow_ten_add _ _).symm
    _ ≤ Nat.pow 10 (-exponent).toNat := htens

/-- **A decimal is rounded like any quotient**, also where it is decided without
its power of ten. -/
theorem ofDecimal_eq_ofRank (negative : Bool) (coefficient : Nat) (exponent : Int) :
    ofDecimal negative coefficient exponent
      = ofRank negative (decimalRank coefficient exponent) := by
  by_cases hzero : coefficient = 0
  · have hrank : decimalRank coefficient exponent = 0 := by
      unfold decimalRank
      rw [hzero, Nat.zero_mul, Nat.zero_mul, nearestRank_zero]
    rw [hrank, ofRank_zero, ofDecimal, if_pos hzero]
  by_cases hhigh : 400 < exponent
  · rw [ofRank, dif_neg (Nat.not_lt.2 (le_decimalRank hzero hhigh)), ofDecimal, if_neg hzero,
      if_pos hhigh]
  by_cases hlow : exponent < -(400 + (Nat.log2 coefficient : Int))
  · rw [decimalRank_eq_zero hlow, ofRank_zero, ofDecimal, if_neg hzero, if_neg hhigh,
      if_pos hlow]
  · exact ofDecimal_eq hzero (by omega) (by omega)

/-- Zeros at the end of the digits move the point. -/
theorem ofDecimal_mul_pow (negative : Bool) (coefficient : Nat) (exponent : Int) (places : Nat) :
    ofDecimal negative (coefficient * Nat.pow 10 places) (exponent - places)
      = ofDecimal negative coefficient exponent := by
  rw [ofDecimal_eq_ofRank, ofDecimal_eq_ofRank]
  refine congrArg (ofRank negative) (nearestRank_congr (pow_ten_pos _) (pow_ten_pos _) ?_)
  have hplaces : places + (exponent - places).toNat + (-exponent).toNat
      = exponent.toNat + (-(exponent - places)).toNat := by omega
  calc coefficient * Nat.pow 10 places * Nat.pow 10 (exponent - places).toNat * unitsInOne
        * Nat.pow 10 (-exponent).toNat
      = coefficient * unitsInOne
        * (Nat.pow 10 places * Nat.pow 10 (exponent - places).toNat
          * Nat.pow 10 (-exponent).toNat) := by ring
    _ = coefficient * unitsInOne
        * (Nat.pow 10 exponent.toNat * Nat.pow 10 (-(exponent - places)).toNat) := by
      rw [← pow_ten_add, ← pow_ten_add, ← pow_ten_add, hplaces]
    _ = coefficient * Nat.pow 10 exponent.toNat * unitsInOne
        * Nat.pow 10 (-(exponent - places)).toNat := by ring

/-! ## §2. The largest numbers. -/

/-- Half a unit past the largest finite float, `2^1024 − 2^970`. -/
def overflowBound : Nat := (Nat.pow 2 54 - 1) * Nat.pow 2 970

theorem firstInfinite_eq : firstInfinite = overflowBound * unitsInOne := by decide +kernel

/-- **A decimal is read as a finite float** exactly below the half past the
largest one. -/
theorem finite_ofDecimal_iff {negative : Bool} {coefficient : Nat} {exponent : Int} :
    (∃ x, ofDecimal negative coefficient exponent = .finite x)
      ↔ coefficient * Nat.pow 10 exponent.toNat
        < overflowBound * Nat.pow 10 (-exponent).toNat := by
  have hrank : (∃ x, ofRank negative (decimalRank coefficient exponent) = .finite x)
      ↔ decimalRank coefficient exponent < 2047 * leadingOne := by
    unfold ofRank
    split
    next hlt => exact iff_of_true ⟨_, rfl⟩ hlt
    next hge =>
      refine iff_of_false ?_ hge
      rintro ⟨x, heq⟩
      cases heq
  rw [ofDecimal_eq_ofRank, hrank, decimalRank, nearestRank_lt_iff (pow_ten_pos _),
    firstInfinite_eq, Nat.mul_right_comm overflowBound, Nat.mul_lt_mul_right unitsInOne_pos]

end Binary64

/-! ## §3. The text of a float. -/

namespace Decimal

theorem ofDigitChars_digits (d : Decimal) : Nat.ofDigitChars 10 d.digits 0 = d.coefficient :=
  Nat.ofDigitChars_ten_toDigits

/-- In positional notation the point moves over added zeros. -/
theorem coefficient_positionalNumeral (sign : SignMark) (d : Decimal) :
    ∃ places : Nat, (d.positionalNumeral sign).coefficient = d.coefficient * Nat.pow 10 places
      ∧ (d.positionalNumeral sign).exponent = d.exponent - places := by
  have hdigits := ofDigitChars_digits d
  have hfirst : d.firstExponent = d.exponent + (d.digits.length : Int) - 1 := rfl
  unfold positionalNumeral
  dsimp only
  split
  next hneg =>
    refine ⟨0, ?_, ?_⟩
    · show Nat.ofDigitChars 10 ('0' :: (List.replicate _ '0' ++ d.digits)) 0 = d.coefficient * 1
      rw [Nat.ofDigitChars_cons, Nat.ofDigitChars_append, Nat.ofDigitChars_replicate_zero]
      simpa using hdigits
    · simp only [Numeral.exponent, Option.getD_some, List.length_append, List.length_replicate]
      omega
  next hfirst' =>
    split
    next hshort =>
      refine ⟨d.firstExponent.toNat + 1 - d.digits.length + 1, ?_, ?_⟩
      · show Nat.ofDigitChars 10 ((d.digits ++ List.replicate _ '0') ++ List.replicate 1 '0') 0 = _
        rw [List.append_assoc, List.replicate_append_replicate, Nat.ofDigitChars_append, hdigits,
          Nat.ofDigitChars_replicate_zero]
        exact Nat.mul_comm _ _
      · simp only [Numeral.exponent, Option.getD_some, List.length_singleton]
        omega
    next hlong =>
      refine ⟨0, ?_, ?_⟩
      · show Nat.ofDigitChars 10 (d.digits.take _ ++ d.digits.drop _) 0 = d.coefficient * 1
        rw [List.take_append_drop, hdigits, Nat.mul_one]
      · simp only [Numeral.exponent, Option.getD_some, List.length_drop]
        omega

/-- **The text of a decimal keeps its value.** -/
theorem coefficient_numeral (sign : SignMark) (d : Decimal) :
    ∃ places : Nat, (d.numeral sign).coefficient = d.coefficient * Nat.pow 10 places
      ∧ (d.numeral sign).exponent = d.exponent - places := by
  unfold numeral
  split
  · exact coefficient_positionalNumeral sign d
  · refine ⟨0, ?_, ?_⟩
    · rw [coefficient_scientificNumeral]
      exact (Nat.mul_one _).symm
    · rw [exponent_scientificNumeral]
      omega

theorem sign_numeral (sign : SignMark) (d : Decimal) : (d.numeral sign).sign = sign := by
  unfold numeral positionalNumeral scientificNumeral
  dsimp only
  split
  · split
    · rfl
    · split <;> rfl
  · rfl

end Decimal

namespace Finite64

/-- **A float is read back from its text.** -/
theorem toBinary64_numeral (x : Finite64) : x.numeral.toBinary64 = .finite x := by
  have hback := x.readsBack_shortest .even
  unfold readsBack at hback
  rw [decide_eq_true_iff] at hback
  obtain ⟨places, hcoefficient, hexponent⟩ :=
    (x.shortest .even).coefficient_numeral (if x.negative then .minus else .absent)
  have hsign : x.numeral.sign.negative = x.negative := by
    rw [numeral, Decimal.sign_numeral]
    cases x.negative <;> rfl
  rw [Numeral.toBinary64, hsign, numeral, hcoefficient, hexponent, Binary64.ofDecimal_mul_pow,
    hback]

/-- **Different floats are written differently.** -/
theorem text_injective {x y : Finite64} (h : x.text Json.numberStyle = y.text Json.numberStyle) :
    x = y := by
  have hread := (Json.exists_readNumeral_float x).1
  rw [h, (Json.exists_readNumeral_float y).1] at hread
  have hnumeral : y.numeral = x.numeral := (Prod.mk.inj (Option.some.inj hread)).1
  have hvalue := x.toBinary64_numeral
  rw [← hnumeral, toBinary64_numeral] at hvalue
  exact (Binary64.finite.inj hvalue).symm

end Finite64

end PropertyGraph
