/-
  PropertyGraph.Proofs.Number.Scaled
  ──────────────────────────────────
  **A WRITTEN FLOAT IS READ AS A FINITE NUMBER.**

  Data files read a number by its leading digits and round up to three times,
  so what is read need not be what was written.  But it is finite
  (`exists_toScaledBinary64_numeral`):

    * The word of leading digits, times its power of ten, is at most the
      number (`exists_scaledWord`).
    * The number is below the bound `cap` but for the three largest floats,
      since it reads as the float and rounding keeps the order.
    * For each power of ten there is a largest word below `cap`, and its
      product is finite (`staysFinite_of_mem_range`); a smaller word has a
      smaller product.
    * The three largest floats lie between two neighbouring decimals of 16
      digits, so they are written with 17, and are computed
      (`finite_largest`).
-/
import PropertyGraph.Number.Scaled
import PropertyGraph.Proofs.Number.Shortest

namespace PropertyGraph

open PropertyGraph.Text

/-! ## §1. Words. -/

theorem mul_ten_pow_le_ofDigitChars (word : Nat) (digits : List Char) :
    word * Nat.pow 10 digits.length ≤ Nat.ofDigitChars 10 digits word := by
  rw [Nat.ofDigitChars_eq_ofDigitChars_zero, Nat.mul_comm]
  exact Nat.le_add_right _ _

theorem ofDigitChars_lt {digits : List Char} (h : ∀ c ∈ digits, c.isDigit = true) :
    ∀ word : Nat, Nat.ofDigitChars 10 digits word < (word + 1) * Nat.pow 10 digits.length := by
  induction digits with
  | nil =>
    intro word
    rw [Nat.ofDigitChars_nil]
    show word < (word + 1) * 1
    omega
  | cons c digits ih =>
    intro word
    obtain ⟨hc, hdigits⟩ := List.forall_mem_cons.1 h
    have hvalue : c.toNat - '0'.toNat ≤ 9 := by
      have hle : c.toNat ≤ 57 := (Char.isDigit_iff_toNat.1 hc).2
      have hzero : '0'.toNat = 48 := rfl
      omega
    have hrest := ih hdigits (10 * word + (c.toNat - '0'.toNat))
    have hstep : (10 * word + (c.toNat - '0'.toNat) + 1) * Nat.pow 10 digits.length
        ≤ (word + 1) * 10 * Nat.pow 10 digits.length := Nat.mul_le_mul_right _ (by omega)
    rw [Nat.ofDigitChars_cons]
    show _ < (word + 1) * (Nat.pow 10 digits.length * 10)
    rw [Nat.mul_comm _ 10, ← Nat.mul_assoc]
    omega

namespace ScaledWord

theorem collect_cons (word : Nat) (digit : Char) (digits : List Char) :
    collect word (digit :: digits)
      = if Nat.ofDigitChars 10 [digit] word < UInt64.size then
          ((collect (Nat.ofDigitChars 10 [digit] word) digits).1,
            (collect (Nat.ofDigitChars 10 [digit] word) digits).2 + 1)
        else (word, 0) := rfl

/-- What is collected, with a zero for each digit left over, is at most the
number. -/
theorem collect_le (digits : List Char) : ∀ word : Nat,
    (collect word digits).2 ≤ digits.length
      ∧ (collect word digits).1 * Nat.pow 10 (digits.length - (collect word digits).2)
        ≤ Nat.ofDigitChars 10 digits word := by
  induction digits with
  | nil =>
    intro word
    exact ⟨Nat.le_refl 0, Nat.le_of_eq (Nat.mul_one word)⟩
  | cons digit digits ih =>
    intro word
    rw [collect_cons]
    split
    · obtain ⟨htaken, hle⟩ := ih (Nat.ofDigitChars 10 [digit] word)
      refine ⟨Nat.succ_le_succ htaken, ?_⟩
      rw [List.length_cons, Nat.add_sub_add_right]
      exact hle
    · exact ⟨Nat.zero_le _, mul_ten_pow_le_ofDigitChars word _⟩

theorem collect_lt (digits : List Char) : ∀ {word : Nat}, word < UInt64.size →
    (collect word digits).1 < UInt64.size := by
  induction digits with
  | nil => exact fun h => h
  | cons digit digits ih =>
    intro word h
    rw [collect_cons]
    split
    next hfits => exact ih hfits
    next => exact h

/-- All digits are collected if they fit together. -/
theorem collect_of_lt (digits : List Char) : ∀ {word : Nat},
    Nat.ofDigitChars 10 digits word < UInt64.size →
    collect word digits = (Nat.ofDigitChars 10 digits word, digits.length) := by
  induction digits with
  | nil => exact fun _ => rfl
  | cons digit digits ih =>
    intro word h
    have hfits : Nat.ofDigitChars 10 [digit] word < UInt64.size := by
      refine Nat.lt_of_le_of_lt ?_ h
      refine Nat.le_trans ?_ (mul_ten_pow_le_ofDigitChars (Nat.ofDigitChars 10 [digit] word) digits)
      exact Nat.le_mul_of_pos_right _ (Nat.pow_pos (by decide))
    have hrest : collect (Nat.ofDigitChars 10 [digit] word) digits
        = (Nat.ofDigitChars 10 (digit :: digits) word, digits.length) := ih h
    rw [collect_cons, if_pos hfits, hrest]
    rfl

end ScaledWord

namespace Numeral

/-- **The leading digits of a number are at most the number**, if those before
the point fit a word.  Of the digits after the point, `left` are left over. -/
theorem exists_scaledWord {n : Numeral} (hdigits : ∀ c ∈ n.whole, c.isDigit = true)
    (hlength : n.whole.length ≤ 19) :
    ∃ left, left ≤ (n.fraction.getD []).length ∧ n.scaledWord.exponent = n.exponent + (left : Int)
      ∧ n.scaledWord.word * Nat.pow 10 left ≤ n.coefficient ∧ n.scaledWord.word < UInt64.size := by
  have hwhole : Nat.ofDigitChars 10 n.whole 0 < UInt64.size := by
    refine Nat.lt_of_lt_of_le (ofDigitChars_lt hdigits 0) ?_
    rw [Nat.zero_add, Nat.one_mul]
    exact Nat.le_trans (Nat.pow_le_pow_right (by decide) hlength) (by decide)
  have hcollect := ScaledWord.collect_of_lt n.whole hwhole
  obtain ⟨htaken, hle⟩ := ScaledWord.collect_le (n.fraction.getD []) (Nat.ofDigitChars 10 n.whole 0)
  refine ⟨_, Nat.sub_le _ (ScaledWord.collect (Nat.ofDigitChars 10 n.whole 0)
    (n.fraction.getD [])).2, ?_, ?_, ?_⟩
  · unfold scaledWord ScaledWord.ofDigits exponent
    rw [hcollect]
    cases n.power <;> dsimp only <;> omega
  · unfold scaledWord ScaledWord.ofDigits coefficient
    rw [hcollect, Nat.ofDigitChars_append]
    exact hle
  · unfold scaledWord ScaledWord.ofDigits
    rw [hcollect]
    exact ScaledWord.collect_lt _ hwhole

end Numeral

/-! ## §2. The bound. -/

/-- The third largest float. -/
def cap : Nat := (Nat.pow 2 53 - 3) * Nat.pow 2 971

/-- The largest word that stays below the bound with so many zeros. -/
def largestWord (zeros : Nat) : Nat := min (UInt64.size - 1) (cap / Nat.pow 10 zeros)

/-- Where the bound lies among the words, the powers of ten and the floats. -/
theorem cap_bounds : largestWord 288 = UInt64.size - 1 ∧ UInt64.size < cap
    ∧ cap < Nat.pow 10 309 ∧ nearestRank (cap * unitsInOne) 1 = 2047 * leadingOne - 3 := by
  decide +kernel

/-! ## §3. Scaling. -/

namespace Binary64

theorem ofRank_of_lt {negative : Bool} {rank : Nat} (h : rank < 2047 * leadingOne) :
    ofRank negative rank = .finite ⟨negative, rank, h⟩ := by
  unfold ofRank
  rw [dif_pos h]

/-- The float nearest to a word. -/
theorem exists_ofDecimal_word (negative : Bool) {word : Nat} (h : word < UInt64.size) :
    ∃ x, ofDecimal negative word 0 = .finite x ∧ x.rank = nearestRank (word * unitsInOne) 1 := by
  have hrank : nearestRank (word * unitsInOne) 1 < 2047 * leadingOne := by
    have hcap : word ≤ cap := Nat.le_of_lt (Nat.lt_trans h cap_bounds.2.1)
    refine Nat.lt_of_le_of_lt (nearestRank_mono 1 (Nat.mul_le_mul_right unitsInOne hcap)) ?_
    rw [cap_bounds.2.2.2]
    decide
  by_cases hzero : word = 0
  · refine ⟨Finite64.zero negative, ?_, ?_⟩
    · unfold ofDecimal
      rw [if_pos hzero]
    · rw [hzero, Nat.zero_mul]
      rfl
  · refine ⟨⟨negative, _, hrank⟩, ?_, rfl⟩
    rw [ofDecimal_eq hzero (by decide) (by omega), ← ofRank_of_lt hrank]
    show ofRank negative (nearestRank (word * 1 * unitsInOne) 1) = _
    rw [Nat.mul_one]

end Binary64

namespace Finite64

/-- One. -/
def one : Finite64 := ⟨false, 1023 * leadingOne, by decide⟩

theorem units_one : one.units = unitsInOne := by decide +kernel

/-- Division by a float that is not below one does not leave the floats. -/
theorem exists_dividedBy {x y : Finite64} (h : unitsInOne ≤ y.units) :
    ∃ z, x.dividedBy y = .finite z := by
  have htwo : ∀ exponent, 0 < Nat.pow 2 exponent := fun exponent => Nat.two_pow_pos exponent
  have hone : 0 < unitsInOne := by
    unfold unitsInOne
    exact htwo 1074
  have hpos : 0 < y.units := Nat.lt_of_lt_of_le hone h
  have hrank : nearestRank (x.units * unitsInOne) y.units ≤ x.rank := by
    rw [← x.nearestRank_units]
    exact nearestRank_le_nearestRank hpos Nat.one_pos
      (by rw [Nat.mul_one]; exact Nat.mul_le_mul_left _ h)
  exact ⟨_, Binary64.ofRank_of_lt (Nat.lt_of_le_of_lt hrank x.rank_lt)⟩

end Finite64

theorem powerOfTen?_eq_some {places : Nat} {power : Finite64}
    (h : powerOfTen? places = some power) :
    power.rank = nearestRank (Nat.pow 10 places * unitsInOne) 1 := by
  unfold powerOfTen? at h
  by_cases hplaces : (places : Int) ≤ 400
  · have hup : (places : Int).toNat = places := Int.toNat_natCast places
    have hdown : (-(places : Int)).toNat = 0 := by omega
    rw [Binary64.ofDecimal_eq Nat.one_ne_zero hplaces (by omega), hup, hdown] at h
    unfold Binary64.ofRank at h
    split at h
    · obtain rfl := Option.some.inj h
      show nearestRank (1 * Nat.pow 10 places * unitsInOne) 1 = _
      rw [Nat.one_mul]
    · cases h
  · unfold Binary64.ofDecimal at h
    rw [if_neg Nat.one_ne_zero, if_pos (by omega)] at h
    cases h

/-- Powers of ten are not below one. -/
theorem unitsInOne_le_of_powerOfTen? {places : Nat} {power : Finite64}
    (h : powerOfTen? places = some power) : unitsInOne ≤ power.units := by
  rw [← Finite64.units_one]
  refine Finite64.units_le_of_rank_le ?_
  rw [powerOfTen?_eq_some h, ← Finite64.nearestRank_units, Finite64.units_one]
  exact nearestRank_mono 1 (Nat.le_mul_of_pos_left _ (Nat.pow_pos (by decide)))

theorem Finite64.exists_scaleDown (x : Finite64) (places : Nat) :
    ∃ y, x.scaleDown places = .finite y := by
  -- behind another name, so that checking the proof does not divide
  obtain ⟨divide, hname⟩ : ∃ divide, divide = dividedBy := ⟨_, rfl⟩
  have hdivide : ∀ {x y : Finite64}, unitsInOne ≤ y.units → ∃ z, divide x y = .finite z := by
    rw [hname]
    exact exists_dividedBy
  unfold scaleDown
  rw [← hname]
  split
  next power hpower => exact hdivide (unitsInOne_le_of_powerOfTen? hpower)
  next =>
    split
    next first second hfirst hsecond =>
      obtain ⟨y, hy⟩ := @hdivide x first (unitsInOne_le_of_powerOfTen? hfirst)
      rw [hy]
      exact hdivide (unitsInOne_le_of_powerOfTen? hsecond)
    next => exact ⟨_, rfl⟩

/-! ## §4. Words below the bound. -/

/-- Is the product of this word and its power of ten finite? -/
def staysFinite (zeros : Nat) : Bool :=
  match powerOfTen? zeros, (Binary64.ofDecimal false (largestWord zeros) 0).finite? with
  | some power, some x => nearestRank (x.units * power.units) unitsInOne < 2047 * leadingOne
  | _, _ => false

/-- Up to `10^288` every word stays below the bound, and past `10^308` none but
zero does. -/
theorem staysFinite_of_mem_range : ∀ zeros ∈ List.range' 288 21, staysFinite zeros = true := by
  decide +kernel

theorem powerOfTen?_units_le {places more : Nat} {power larger : Finite64} (hle : places ≤ more)
    (hpower : powerOfTen? places = some power) (hlarger : powerOfTen? more = some larger) :
    power.units ≤ larger.units := by
  refine Finite64.units_le_of_rank_le ?_
  rw [powerOfTen?_eq_some hpower, powerOfTen?_eq_some hlarger]
  exact nearestRank_mono 1 (Nat.mul_le_mul_right _ (Nat.pow_le_pow_right (by decide) hle))

theorem exists_powerOfTen_of_le {places more : Nat} {larger : Finite64} (hle : places ≤ more)
    (hmore : more ≤ 400) (hlarger : powerOfTen? more = some larger) :
    ∃ power, powerOfTen? places = some power := by
  have hrank : nearestRank (1 * Nat.pow 10 places * unitsInOne) 1 < 2047 * leadingOne := by
    refine Nat.lt_of_le_of_lt ?_ larger.rank_lt
    rw [powerOfTen?_eq_some hlarger, Nat.one_mul]
    exact nearestRank_mono 1 (Nat.mul_le_mul_right _ (Nat.pow_le_pow_right (by decide) hle))
  have hup : (places : Int).toNat = places := Int.toNat_natCast places
  have hdown : (-(places : Int)).toNat = 0 := by omega
  refine ⟨⟨false, _, hrank⟩, ?_⟩
  unfold powerOfTen?
  rw [Binary64.ofDecimal_eq Nat.one_ne_zero (by omega) (by omega), hup, hdown]
  show (Binary64.ofRank false (nearestRank (1 * Nat.pow 10 places * unitsInOne) 1)).finite? = _
  rw [Binary64.ofRank_of_lt hrank]
  rfl

/-- Up to `10^308` the powers of ten are finite. -/
theorem exists_powerOfTen {places : Nat} (h : places ≤ 308) :
    ∃ power, powerOfTen? places = some power := by
  have hlast := staysFinite_of_mem_range 308 (by decide)
  unfold staysFinite at hlast
  split at hlast
  next larger _ hlarger _ => exact exists_powerOfTen_of_le h (by decide) hlarger
  next => cases hlast

/-- Smaller words and smaller powers of ten have smaller products. -/
theorem Finite64.exists_scaleUp_of_le {x : Finite64} {word zeros more : Nat}
    (hx : x.rank = nearestRank (word * unitsInOne) 1) (hzeros : zeros ≤ 308)
    (hle : zeros ≤ more) (hword : word ≤ largestWord more) (h : staysFinite more = true) :
    ∃ y, x.scaleUp zeros = .finite y := by
  obtain ⟨power, hpower⟩ := exists_powerOfTen hzeros
  unfold staysFinite at h
  split at h
  next larger largest hlarger hlargest =>
    rw [decide_eq_true_iff] at h
    have hsize : largestWord more < UInt64.size :=
      Nat.lt_of_le_of_lt (Nat.min_le_left _ _) (by decide)
    obtain ⟨y, hy, hrank⟩ := Binary64.exists_ofDecimal_word false hsize
    rw [hy] at hlargest
    obtain rfl := Option.some.inj hlargest
    have hunits : x.units ≤ y.units := by
      refine units_le_of_rank_le ?_
      rw [hx, hrank]
      exact nearestRank_mono 1 (Nat.mul_le_mul_right _ hword)
    have hproduct : x.units * power.units ≤ y.units * larger.units :=
      Nat.mul_le_mul hunits (powerOfTen?_units_le hle hpower hlarger)
    unfold scaleUp
    rw [hpower]
    exact ⟨_, Binary64.ofRank_of_lt (Nat.lt_of_le_of_lt (nearestRank_mono _ hproduct) h)⟩
  next => cases h

theorem Finite64.exists_scaleUp_of_rank_eq_zero {x : Finite64} (h : x.rank = 0) (places : Nat) :
    ∃ y, x.scaleUp places = .finite y := by
  unfold scaleUp
  split
  next power _ =>
    have hunits : x.units = 0 := by
      unfold units significand
      rw [h, if_pos (by decide), Nat.zero_mul]
    unfold times
    rw [hunits, Nat.zero_mul, nearestRank_zero]
    exact ⟨_, Binary64.ofRank_of_lt (by decide)⟩
  next =>
    rw [if_pos h]
    exact ⟨x, rfl⟩

theorem zeros_le_of_lt_cap {word zeros : Nat} (hword : word ≠ 0)
    (h : word * Nat.pow 10 zeros < cap) : zeros ≤ 308 := by
  refine Nat.le_of_not_lt (fun hlt => ?_)
  -- for any number of places, so that the power is not computed
  have hbeyond : ∀ places, cap < Nat.pow 10 places → ¬ places ≤ zeros := by
    intro places hplaces hle
    have hpow : Nat.pow 10 places ≤ Nat.pow 10 zeros := Nat.pow_le_pow_right (by decide) hle
    have hone : Nat.pow 10 zeros ≤ word * Nat.pow 10 zeros :=
      Nat.le_mul_of_pos_left _ (Nat.pos_of_ne_zero hword)
    omega
  exact hbeyond 309 cap_bounds.2.2.1 hlt

/-- **A word below the bound stays finite.** -/
theorem Finite64.exists_scaleUp {x : Finite64} {word zeros : Nat}
    (hx : x.rank = nearestRank (word * unitsInOne) 1) (hsize : word < UInt64.size)
    (hcap : word * Nat.pow 10 zeros < cap) : ∃ y, x.scaleUp zeros = .finite y := by
  by_cases hword : word = 0
  · refine exists_scaleUp_of_rank_eq_zero ?_ zeros
    rw [hx, hword, Nat.zero_mul]
    rfl
  have hzeros := zeros_le_of_lt_cap hword hcap
  by_cases hfew : zeros ≤ 288
  · refine exists_scaleUp_of_le hx hzeros hfew ?_ (staysFinite_of_mem_range 288 (by decide))
    rw [cap_bounds.1]
    omega
  · refine exists_scaleUp_of_le hx hzeros (Nat.le_refl zeros) ?_ (staysFinite_of_mem_range zeros ?_)
    · refine Nat.le_min.2 ⟨by omega, ?_⟩
      exact (Nat.le_div_iff_mul_le (Nat.pow_pos (by decide))).2 (Nat.le_of_lt hcap)
    · rw [List.mem_range'_1]
      omega

/-! ## §5. Numbers. -/

/-- A number below the bound, or one without a positive power of ten, is read
as a finite number. -/
theorem Numeral.exists_toScaledBinary64 {n : Numeral}
    (hdigits : ∀ c ∈ n.whole, c.isDigit = true) (hlength : n.whole.length ≤ 19)
    (h : n.power = none
      ∨ n.coefficient * Nat.pow 10 n.exponent.toNat < cap * Nat.pow 10 (-n.exponent).toNat) :
    ∃ y, n.toScaledBinary64 = .finite y := by
  obtain ⟨left, hleft, hexponent, hword, hsize⟩ := exists_scaledWord hdigits hlength
  obtain ⟨x, hx, hrank⟩ := Binary64.exists_ofDecimal_word n.sign.negative hsize
  unfold toScaledBinary64
  dsimp only
  rw [hx]
  dsimp only
  split
  next hnonneg =>
    refine Finite64.exists_scaleUp hrank hsize ?_
    obtain hpower | hcap := h
    · -- without a power of ten there are no zeros to add
      have hzero : n.scaledWord.exponent.toNat = 0 := by
        rw [hexponent]
        unfold exponent
        rw [hpower]
        dsimp only
        omega
      rw [hzero]
      show n.scaledWord.word * 1 < cap
      rw [Nat.mul_one]
      exact Nat.lt_trans hsize cap_bounds.2.1
    · have hplaces : n.scaledWord.exponent.toNat + (-n.exponent).toNat
          = left + n.exponent.toNat := by omega
      refine Nat.lt_of_mul_lt_mul_right (a := 10 ^ (-n.exponent).toNat) ?_
      calc n.scaledWord.word * 10 ^ n.scaledWord.exponent.toNat * 10 ^ (-n.exponent).toNat
          = n.scaledWord.word * 10 ^ left * 10 ^ n.exponent.toNat := by
            rw [Nat.mul_assoc, ← Nat.pow_add, hplaces, Nat.pow_add, Nat.mul_assoc]
        _ ≤ n.coefficient * 10 ^ n.exponent.toNat := Nat.mul_le_mul_right _ hword
        _ < cap * 10 ^ (-n.exponent).toNat := hcap
  next => exact x.exists_scaleDown _

/-! ## §6. Written floats. -/

namespace Decimal

theorem exponent_scientificNumeral (sign : SignMark) (d : Decimal) :
    (d.scientificNumeral sign).exponent = d.exponent := by
  have hpower : (if d.firstExponent < 0 then SignMark.minus else .plus).apply
      (Nat.ofDigitChars 10 (Nat.toDigits 10 d.firstExponent.natAbs) 0) = d.firstExponent := by
    rw [Nat.ofDigitChars_ten_toDigits]
    split
    · show -(d.firstExponent.natAbs : Int) = d.firstExponent
      omega
    · show (d.firstExponent.natAbs : Int) = d.firstExponent
      omega
  have hplaces : ((if d.digits.drop 1 = [] then none else some (d.digits.drop 1)).getD []).length
      = d.digits.length - 1 := by
    split
    next hnil => rw [← List.length_drop, hnil]; rfl
    next => exact List.length_drop
  have hlength : 0 < d.digits.length := List.length_pos_iff.2 d.digits_ne_nil
  unfold Numeral.exponent scientificNumeral
  dsimp only
  rw [hpower, hplaces]
  unfold firstExponent
  omega

theorem isDigit_of_mem_whole (sign : SignMark) (d : Decimal) :
    ∀ c ∈ (d.numeral sign).whole, c.isDigit = true := by
  unfold numeral
  split
  · unfold positionalNumeral
    dsimp only
    split
    next => exact fun c hc => by rw [List.mem_singleton.1 hc]; decide
    next =>
      split
      next =>
        intro c hc
        obtain hc | hc := List.mem_append.1 hc
        · exact isDigit_of_mem_digits c hc
        · rw [List.eq_of_mem_replicate hc]
          decide
      next => exact fun c hc => isDigit_of_mem_digits c (List.mem_of_mem_take hc)
  · exact fun c hc => isDigit_of_mem_digits c (List.mem_of_mem_take hc)

/-- The digits before the point fit a word. -/
theorem length_whole_le (sign : SignMark) (d : Decimal) : (d.numeral sign).whole.length ≤ 19 := by
  unfold numeral
  split
  · unfold positionalNumeral
    dsimp only
    split
    next => exact (by decide : 1 ≤ 19)
    next =>
      split
      next =>
        rw [List.length_append, List.length_replicate]
        omega
      next =>
        rw [List.length_take]
        omega
  · unfold scientificNumeral
    rw [List.length_take]
    omega

end Decimal

namespace Finite64

/-- A decimal that reads as a float below the three largest is below the bound. -/
theorem lt_cap_of_readsBack {x : Finite64} {d : Decimal} (h : x.readsBack d = true)
    (hne : x.rank ≠ 0) (hrank : x.rank < 2047 * leadingOne - 3) :
    d.coefficient * Nat.pow 10 d.exponent.toNat < cap * Nat.pow 10 (-d.exponent).toNat := by
  refine Nat.lt_of_not_le (fun hle => ?_)
  have hunits : cap * unitsInOne * Nat.pow 10 (-d.exponent).toNat
      ≤ d.coefficient * Nat.pow 10 d.exponent.toNat * unitsInOne * 1 := by
    rw [Nat.mul_one, Nat.mul_right_comm]
    exact Nat.mul_le_mul_right _ hle
  have hpos : 0 < Nat.pow 10 (-d.exponent).toNat := Nat.pow_pos (by decide)
  have hmono := nearestRank_le_nearestRank Nat.one_pos hpos hunits
  rw [nearestRank_of_readsBack h hne, cap_bounds.2.2.2] at hmono
  omega

/-- Between two neighbouring decimals of 16 digits there are the three largest
floats. -/
theorem largest_between {places : Nat} (h : places = 293) :
    nearestRank (1797693134862315 * Nat.pow 10 places * unitsInOne) 1 < 2047 * leadingOne - 3
      ∧ 2047 * leadingOne
        ≤ nearestRank ((1797693134862315 + 1) * Nat.pow 10 places * unitsInOne) 1 := by
  subst h
  decide +kernel

/-- So none of 16 digits or fewer reads as one of them. -/
theorem candidate_largest {tie : TieRule} {x : Finite64} {digits : Nat}
    (hrank : 2047 * leadingOne - 3 ≤ x.rank) (hleading : x.leadingExponent = 308)
    (hdigits : digits ≤ 16) : x.candidate tie digits = none := by
  obtain ⟨places, hplaces⟩ : ∃ places, places = 293 := ⟨_, rfl⟩
  obtain ⟨hlow, hhigh⟩ := largest_between hplaces
  exact candidate_eq_none (16 - digits) (by omega) (Nat.lt_of_lt_of_le hlow hrank)
    (Nat.lt_of_lt_of_le x.rank_lt hhigh)

/-- The three largest floats of either sign, one by one. -/
theorem finite_largest : ∀ negative : Bool, ∀ below : Fin 3,
    (Binary64.ofRank negative (2047 * leadingOne - 3 + below.val)).finite?.any (fun x =>
      decide (x.leadingExponent = 308) && (x.candidate .even 17).any (fun d =>
        (d.numeral (if x.negative then .minus else .absent)).toScaledBinary64.finite?.isSome))
      = true := by
  decide +kernel

theorem exists_toScaledBinary64_largest {x : Finite64} (h : 2047 * leadingOne - 3 ≤ x.rank) :
    ∃ y, x.numeral.toScaledBinary64 = .finite y := by
  have hlt := x.rank_lt
  have hlargest := finite_largest x.negative ⟨x.rank - (2047 * leadingOne - 3), by omega⟩
  rw [Nat.add_sub_cancel' h, Binary64.ofRank_rank] at hlargest
  simp only [Binary64.finite?, Option.any_some, Bool.and_eq_true] at hlargest
  obtain ⟨hleading, hfinite⟩ := hlargest
  cases hlast : x.candidate .even 17 with
  | none =>
    rw [hlast] at hfinite
    cases hfinite
  | some d =>
    rw [hlast] at hfinite
    have hshortest : x.shortest .even = d := by
      refine shortest_eq_of_candidate (Nat.ne_of_gt (Nat.lt_of_lt_of_le (by decide) h)) ?_ hlast
      exact fun digits => candidate_largest h (of_decide_eq_true hleading)
    rw [← hshortest] at hfinite
    change x.numeral.toScaledBinary64.finite?.isSome = true at hfinite
    generalize x.numeral.toScaledBinary64 = read at hfinite ⊢
    cases read with
    | finite y => exact ⟨y, rfl⟩
    | nan => cases hfinite
    | infinite negative => cases hfinite

/-- **A written float is read as a finite number.** -/
theorem exists_toScaledBinary64_numeral (x : Finite64) :
    ∃ y, x.numeral.toScaledBinary64 = .finite y := by
  by_cases hlarge : 2047 * leadingOne - 3 ≤ x.rank
  · exact exists_toScaledBinary64_largest hlarge
  refine Numeral.exists_toScaledBinary64 (Decimal.isDigit_of_mem_whole _ _)
    (Decimal.length_whole_le _ _) ?_
  by_cases hzero : x.rank = 0
  · left
    have hshortest : x.shortest .even = ⟨0, 0⟩ := if_pos hzero
    unfold numeral
    rw [hshortest]
    rfl
  unfold numeral Decimal.numeral
  split
  next =>
    left
    unfold Decimal.positionalNumeral
    dsimp only
    split
    · rfl
    · split <;> rfl
  next =>
    right
    rw [Decimal.coefficient_scientificNumeral, Decimal.exponent_scientificNumeral]
    exact lt_cap_of_readsBack (x.readsBack_shortest .even) hzero (Nat.lt_of_not_le hlarge)

end Finite64

end PropertyGraph
