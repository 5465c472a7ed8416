/-
  PropertyGraph.Proofs.Number.Rounding
  ────────────────────────────────────
  **ROUNDING KEEPS THE ORDER AND THE FLOATS.**

  The rank nearest to a quotient depends on the quotient alone, grows with
  it, and gives every float its own rank back:

      nearestRank_mul_right  — a common factor changes nothing
      nearestRank_mono       — larger quotients have larger ranks
      nearestRank_units      — the magnitude of a float has its rank

  Between two powers of two the ranks are the multiples of one unit, and
  there rounding is `roundQuotient`; from one such stretch to the next the
  order holds because each keeps to its own ranks (`nearestRank_le`,
  `le_nearestRank`).
-/
import PropertyGraph.Number.Shortest

namespace PropertyGraph

/-! ## §1. To whole numbers. -/

/-- A common factor changes neither the quotient nor the half. -/
theorem roundQuotient_mul_right (num den : Nat) {m : Nat} (hm : 0 < m) :
    roundQuotient (num * m) (den * m) = roundQuotient num den := by
  unfold roundQuotient
  have hquotient : num * m / (den * m) = num / den := Nat.mul_div_mul_right num den hm
  have hrest : num * m % (den * m) = num % den * m := Nat.mul_mod_mul_right m num den
  have hbelow : 2 * (num % den * m) < den * m ↔ 2 * (num % den) < den := by
    rw [← Nat.mul_assoc]
    exact Nat.mul_lt_mul_right hm
  have habove : den * m < 2 * (num % den * m) ↔ den < 2 * (num % den) := by
    rw [← Nat.mul_assoc]
    exact Nat.mul_lt_mul_right hm
  simp only [hquotient, hrest, hbelow, habove]

theorem div_le_roundQuotient (num den : Nat) : num / den ≤ roundQuotient num den := by
  unfold roundQuotient
  dsimp only
  split
  · exact Nat.le_refl _
  · split <;> omega

theorem roundQuotient_le_succ (num den : Nat) : roundQuotient num den ≤ num / den + 1 := by
  unfold roundQuotient
  dsimp only
  split
  · omega
  · split <;> omega

theorem roundQuotient_mono {num num' : Nat} (den : Nat) (h : num ≤ num') :
    roundQuotient num den ≤ roundQuotient num' den := by
  have hquotient : num / den ≤ num' / den := Nat.div_le_div_right h
  rcases Nat.lt_or_eq_of_le hquotient with hlt | heq
  · -- the larger one is rounded up from further above
    exact Nat.le_trans (roundQuotient_le_succ num den)
      (Nat.le_trans hlt (div_le_roundQuotient num' den))
  · have hnum := Nat.div_add_mod num den
    have hnum' := Nat.div_add_mod num' den
    rw [← heq] at hnum'
    have hrest : num % den ≤ num' % den := by omega
    unfold roundQuotient
    dsimp only
    rw [← heq]
    repeat' split
    all_goals omega

theorem roundQuotient_mul_self (n : Nat) {den : Nat} (hden : 0 < den) :
    roundQuotient (n * den) den = n := by
  unfold roundQuotient
  rw [Nat.mul_div_cancel n hden, Nat.mul_mod_left]
  simp [hden]

theorem roundQuotient_zero (den : Nat) : roundQuotient 0 den = 0 := by
  unfold roundQuotient
  rw [Nat.zero_div, Nat.zero_mod]
  dsimp only
  split
  · rfl
  · split <;> omega

/-! ## §2. To ranks. -/

/-- How many times the significands near the quotient are doubled. -/
def scaleOf (quotient : Nat) : Nat := Nat.log2 quotient - 52

theorem nearestRank_eq (num den : Nat) :
    nearestRank num den = scaleOf (num / den) * leadingOne
      + roundQuotient num (den * Nat.pow 2 (scaleOf (num / den))) := rfl

theorem nearestRank_zero (den : Nat) : nearestRank 0 den = 0 := by
  rw [nearestRank_eq, Nat.zero_div, roundQuotient_zero]
  decide

theorem nearestRank_mul_right (num den : Nat) {m : Nat} (hm : 0 < m) :
    nearestRank (num * m) (den * m) = nearestRank num den := by
  rw [nearestRank_eq, nearestRank_eq, Nat.mul_div_mul_right num den hm, Nat.mul_right_comm,
    roundQuotient_mul_right _ _ hm]

theorem lt_two_pow_scaleOf (quotient : Nat) : quotient < Nat.pow 2 (scaleOf quotient + 53) := by
  have hlt : quotient < 2 ^ (Nat.log2 quotient + 1) := Nat.lt_log2_self
  refine Nat.lt_of_lt_of_le hlt (Nat.pow_le_pow_right (by decide) ?_)
  unfold scaleOf
  omega

theorem two_pow_scaleOf_le {quotient : Nat} (h : 0 < scaleOf quotient) :
    Nat.pow 2 (scaleOf quotient + 52) ≤ quotient := by
  have hlog : scaleOf quotient + 52 = Nat.log2 quotient := by
    unfold scaleOf at h ⊢
    omega
  have hne : quotient ≠ 0 := by
    rintro rfl
    exact absurd h (by decide)
  rw [hlog]
  exact Nat.log2_self_le hne

theorem scaleOf_mono {q q' : Nat} (h : q ≤ q') : scaleOf q ≤ scaleOf q' := by
  -- otherwise the smaller one reached a power of two that the larger one does not reach
  refine Nat.le_of_not_lt (fun hlt => ?_)
  have hle : 2 ^ (scaleOf q + 52) ≤ q := two_pow_scaleOf_le (by omega)
  have hpow : 2 ^ (scaleOf q' + 53) ≤ 2 ^ (scaleOf q + 52) :=
    Nat.pow_le_pow_right (by decide) (by omega)
  have hbelow : q' < 2 ^ (scaleOf q' + 53) := lt_two_pow_scaleOf q'
  omega

/-- The ranks of a stretch end where the next stretch begins. -/
theorem nearestRank_le (num den : Nat) :
    nearestRank num den ≤ (scaleOf (num / den) + 2) * leadingOne := by
  have hquotient : num / (den * Nat.pow 2 (scaleOf (num / den))) < 2 ^ 53 := by
    show num / (den * 2 ^ scaleOf (num / den)) < 2 ^ 53
    rw [← Nat.div_div_eq_div_mul]
    refine Nat.div_lt_of_lt_mul ?_
    rw [← Nat.pow_add]
    exact lt_two_pow_scaleOf (num / den)
  have hround := roundQuotient_le_succ num (den * Nat.pow 2 (scaleOf (num / den)))
  have hones : 2 ^ 53 = 2 * leadingOne := by decide
  rw [nearestRank_eq, Nat.add_mul]
  omega

theorem le_nearestRank {num den : Nat} (h : 0 < scaleOf (num / den)) :
    (scaleOf (num / den) + 1) * leadingOne ≤ nearestRank num den := by
  have hquotient : 2 ^ 52 ≤ num / (den * Nat.pow 2 (scaleOf (num / den))) := by
    show 2 ^ 52 ≤ num / (den * 2 ^ scaleOf (num / den))
    rw [← Nat.div_div_eq_div_mul, Nat.le_div_iff_mul_le (Nat.two_pow_pos _), ← Nat.pow_add,
      Nat.add_comm]
    exact two_pow_scaleOf_le h
  have hround := div_le_roundQuotient num (den * Nat.pow 2 (scaleOf (num / den)))
  have hones : 2 ^ 52 = leadingOne := by decide
  rw [nearestRank_eq, Nat.add_mul]
  omega

/-- **Larger numbers have larger ranks.** -/
theorem nearestRank_mono {num num' : Nat} (den : Nat) (h : num ≤ num') :
    nearestRank num den ≤ nearestRank num' den := by
  have hquotient : num / den ≤ num' / den := Nat.div_le_div_right h
  rcases Nat.lt_or_eq_of_le (scaleOf_mono hquotient) with hlt | heq
  · have hstretch : (scaleOf (num / den) + 2) * leadingOne
        ≤ (scaleOf (num' / den) + 1) * leadingOne := Nat.mul_le_mul_right _ (by omega)
    exact Nat.le_trans (nearestRank_le num den)
      (Nat.le_trans hstretch (le_nearestRank (by omega)))
  · rw [nearestRank_eq, nearestRank_eq, heq]
    exact Nat.add_le_add_left (roundQuotient_mono _ h) _

/-- Larger quotients have larger ranks. -/
theorem nearestRank_le_nearestRank {num den num' den' : Nat} (hden : 0 < den) (hden' : 0 < den')
    (h : num * den' ≤ num' * den) : nearestRank num den ≤ nearestRank num' den' := by
  rw [← nearestRank_mul_right num den hden', ← nearestRank_mul_right num' den' hden,
    Nat.mul_comm den' den]
  exact nearestRank_mono (den * den') h

/-! ## §3. Floats. -/

namespace Finite64

theorem significand_lt (x : Finite64) : x.significand < 2 * leadingOne := by
  have hmod := Nat.mod_lt x.rank (show 0 < leadingOne by decide)
  unfold significand
  split <;> omega

theorem rank_eq (x : Finite64) : x.rank = x.scale * leadingOne + x.significand := by
  have hrank := Nat.div_add_mod x.rank leadingOne
  unfold scale significand
  split
  next hlt => rw [Nat.div_eq_of_lt hlt]; simp
  next hle =>
    obtain ⟨k, hk⟩ : ∃ k, x.rank / leadingOne = k + 1 :=
      Nat.exists_eq_succ_of_ne_zero (Nat.ne_of_gt (Nat.div_pos (by omega) (by decide)))
    rw [hk, Nat.mul_comm, Nat.add_mul] at hrank
    rw [hk, Nat.add_sub_cancel]
    omega

theorem le_significand {x : Finite64} (h : 0 < x.scale) : leadingOne ≤ x.significand := by
  unfold significand
  split
  next hlt =>
    rw [scale, Nat.div_eq_of_lt hlt] at h
    exact absurd h (by decide)
  next => exact Nat.le_add_right _ _

theorem scaleOf_units (x : Finite64) : scaleOf x.units = x.scale := by
  have hlt := x.significand_lt
  have hones : 2 * leadingOne = 2 ^ 53 := by decide
  have hunits : x.units < 2 ^ (x.scale + 53) := by
    rw [Nat.add_comm, Nat.pow_add, ← hones]
    exact Nat.mul_lt_mul_of_pos_right hlt (Nat.two_pow_pos _)
  by_cases hzero : x.units = 0
  · have hscale : x.scale = 0 := by
      refine Nat.eq_zero_of_not_pos (fun hscale => ?_)
      have hle := le_significand hscale
      have hpos : 0 < x.significand * 2 ^ x.scale :=
        Nat.mul_pos (Nat.lt_of_lt_of_le (by decide) hle) (Nat.two_pow_pos _)
      exact absurd hzero (Nat.ne_of_gt hpos)
    rw [hzero, hscale]
    rfl
  have hupper : Nat.log2 x.units < x.scale + 53 := (Nat.log2_lt hzero).2 hunits
  by_cases hscale : 0 < x.scale
  · have hlower : x.scale + 52 ≤ Nat.log2 x.units := by
      refine (Nat.le_log2 hzero).2 ?_
      rw [Nat.add_comm, Nat.pow_add]
      exact Nat.mul_le_mul_right _ (le_significand hscale)
    unfold scaleOf
    omega
  · unfold scaleOf
    omega

/-- **Rounding leaves a float as it is.** -/
theorem nearestRank_units (x : Finite64) : nearestRank x.units 1 = x.rank := by
  have hround : roundQuotient x.units (1 * Nat.pow 2 x.scale) = x.significand := by
    rw [Nat.one_mul]
    exact roundQuotient_mul_self x.significand (Nat.two_pow_pos _)
  rw [nearestRank_eq, Nat.div_one, scaleOf_units, hround, ← rank_eq]

/-- Magnitudes are ordered by rank. -/
theorem units_le_of_rank_le {x y : Finite64} (h : x.rank ≤ y.rank) : x.units ≤ y.units := by
  refine Nat.le_of_not_lt (fun hlt => ?_)
  have hle : nearestRank y.units 1 ≤ nearestRank x.units 1 := nearestRank_mono 1 (by omega)
  rw [nearestRank_units, nearestRank_units] at hle
  -- then the ranks are equal, and they determine the magnitudes
  have heq : x.rank = y.rank := Nat.le_antisymm h hle
  have hunits : x.units = y.units := by
    unfold units significand scale
    rw [heq]
  omega

theorem units_pos_of_rank_ne_zero {x : Finite64} (h : x.rank ≠ 0) : 0 < x.units := by
  refine Nat.pos_of_ne_zero (fun hzero => h ?_)
  have hrank := nearestRank_units x
  rw [hzero] at hrank
  rw [← hrank]
  decide

end Finite64

end PropertyGraph
