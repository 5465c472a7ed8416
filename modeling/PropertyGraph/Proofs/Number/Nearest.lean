/-
  PropertyGraph.Proofs.Number.Nearest
  ───────────────────────────────────
  **ROUNDING FINDS THE NEAREST FLOAT.**

  No float is nearer to a quotient than the one of its rank, and where
  another one is as near, the rank is even:

      nearestRank_nearest  — no rank is nearer
      even_of_tie          — of two nearest ranks the even one
      nearestRank_lt_iff   — finite exactly below 2^1024 − 2^970
      isNearest_of_ofInt   — the float of an integer is nearest to it

  A rank lies in a stretch of multiples of one unit (`unitsOf_stretch`).
  Within the stretch of the quotient, rounding is to a multiple of its unit;
  a magnitude below the stretch is further away than where the stretch begins.
-/
import Mathlib.Algebra.Order.Field.Basic
import Mathlib.Algebra.Order.Ring.Rat
import Mathlib.Data.Nat.Dist
import Mathlib.Tactic.Linarith
import Mathlib.Tactic.Ring
import PropertyGraph.Proofs.Number.Rounding

namespace PropertyGraph

/-! ## §1. Magnitudes by rank. -/

/-- The magnitude of a rank in smallest positive floats, past the finite ones too. -/
def unitsOf (rank : Nat) : Nat :=
  (if rank < leadingOne then rank else leadingOne + rank % leadingOne)
    * Nat.pow 2 (rank / leadingOne - 1)

theorem leadingOne_eq : leadingOne = 4503599627370496 := by decide

/-- Along a stretch the magnitudes are the multiples of its unit. -/
theorem unitsOf_stretch {scale place : Nat} (hlow : 0 < scale → leadingOne ≤ place)
    (hhigh : place ≤ 2 * leadingOne) :
    unitsOf (scale * leadingOne + place) = place * Nat.pow 2 scale := by
  unfold unitsOf
  rw [leadingOne_eq] at *
  rcases Nat.lt_or_eq_of_le hhigh with hlt | rfl
  · by_cases hsmall : scale * 4503599627370496 + place < 4503599627370496
    · obtain rfl : scale = 0 := by omega
      rw [if_pos hsmall, Nat.zero_mul, Nat.zero_add, show place / 4503599627370496 - 1 = 0 by omega]
    · rw [if_neg hsmall,
        show (scale * 4503599627370496 + place) / 4503599627370496 - 1 = scale by omega,
        show 4503599627370496 + (scale * 4503599627370496 + place) % 4503599627370496 = place by
          omega]
  -- the end of the stretch is where the next one begins
  · rw [if_neg (by omega),
      show (scale * 4503599627370496 + 2 * 4503599627370496) / 4503599627370496 - 1 = scale + 1 by
        omega,
      show 4503599627370496 + (scale * 4503599627370496 + 2 * 4503599627370496) % 4503599627370496
        = 4503599627370496 by omega]
    show 4503599627370496 * 2 ^ (scale + 1) = 2 * 4503599627370496 * 2 ^ scale
    rw [Nat.pow_succ]
    omega

/-- A magnitude is a multiple of a unit, or lies below all stretches with
larger ones. -/
theorem unitsOf_grid (rank scale : Nat) :
    (∃ m, unitsOf rank = m * Nat.pow 2 scale)
      ∨ (0 < scale ∧ unitsOf rank < leadingOne * Nat.pow 2 scale) := by
  have hsignificand : (if rank < leadingOne then rank else leadingOne + rank % leadingOne)
      < 2 * leadingOne := by
    have hmod := Nat.mod_lt rank (show 0 < leadingOne by decide)
    split <;> omega
  unfold unitsOf
  generalize (if rank < leadingOne then rank else leadingOne + rank % leadingOne) = m at hsignificand
  generalize rank / leadingOne - 1 = own
  rcases Nat.lt_or_ge own scale with hlt | hge
  · refine .inr ⟨by omega, ?_⟩
    show m * 2 ^ own < leadingOne * 2 ^ scale
    calc m * 2 ^ own < 2 * leadingOne * 2 ^ own :=
          Nat.mul_lt_mul_of_pos_right hsignificand (Nat.two_pow_pos own)
      _ = leadingOne * 2 ^ (own + 1) := by rw [Nat.pow_succ]; ring
      _ ≤ leadingOne * 2 ^ scale := Nat.mul_le_mul_left _ (Nat.pow_le_pow_right (by decide) hlt)
  · refine .inl ⟨m * 2 ^ (own - scale), ?_⟩
    show m * 2 ^ own = m * 2 ^ (own - scale) * 2 ^ scale
    rw [Nat.mul_assoc, ← Nat.pow_add, Nat.sub_add_cancel hge]

/-! ## §2. The nearest whole number. -/

/-- What is left over decides, and an even quotient takes a half. -/
theorem roundQuotient_cases (num den : Nat) :
    (2 * (num % den) < den ∧ roundQuotient num den = num / den)
      ∨ (den < 2 * (num % den) ∧ roundQuotient num den = num / den + 1)
      ∨ (2 * (num % den) = den ∧ roundQuotient num den = num / den + num / den % 2) := by
  unfold roundQuotient
  dsimp only
  split
  · omega
  · split <;> omega

/-- A whole number lies at or below the quotient, or past the next one. -/
theorem mul_le_or_le_mul (num den m : Nat) :
    (m ≤ num / den ∧ m * den ≤ num / den * den)
      ∨ (num / den < m ∧ num / den * den + den ≤ m * den) := by
  rcases Nat.lt_or_ge (num / den) m with hlt | hge
  · refine .inr ⟨hlt, ?_⟩
    rw [← Nat.succ_mul]
    exact Nat.mul_le_mul_right den hlt
  · exact .inl ⟨hge, Nat.mul_le_mul_right den hge⟩

section

variable (num : Nat) {den : Nat} (m : Nat)

/-- **No whole number is nearer** to a quotient than the rounded one. -/
theorem roundQuotient_nearest (hden : 0 < den) :
    Nat.dist num (roundQuotient num den * den) ≤ Nat.dist num (m * den) := by
  have hnum := Nat.div_add_mod' num den
  have hrest := Nat.mod_lt num hden
  have hsucc : (num / den + 1) * den = num / den * den + den := Nat.succ_mul _ _
  have hside := mul_le_or_le_mul num den m
  unfold Nat.dist
  rcases roundQuotient_cases num den with ⟨hhalf, hround⟩ | ⟨hhalf, hround⟩ | ⟨hhalf, hround⟩
  · rw [hround]
    omega
  · rw [hround]
    omega
  -- a half is as far from the one as from the other
  · rcases Nat.mod_two_eq_zero_or_one (num / den) with heven | hodd
    · rw [hround, heven, Nat.add_zero]
      omega
    · rw [hround, hodd]
      omega

/-- As near is another one only if the rounded one is even. -/
theorem roundQuotient_even_of_tie (hden : 0 < den)
    (h : Nat.dist num (roundQuotient num den * den) = Nat.dist num (m * den)) :
    m = roundQuotient num den ∨ roundQuotient num den % 2 = 0 := by
  have hnum := Nat.div_add_mod' num den
  have hrest := Nat.mod_lt num hden
  have hsucc : (num / den + 1) * den = num / den * den + den := Nat.succ_mul _ _
  have hnext := mul_le_or_le_mul num den m
  have hlast : (m + 1) * den = m * den + den := Nat.succ_mul _ _
  unfold Nat.dist at h
  rcases roundQuotient_cases num den with ⟨hhalf, hround⟩ | ⟨hhalf, hround⟩ | ⟨-, hround⟩
  · rw [hround] at h ⊢
    refine .inl ?_
    rcases hnext with ⟨hle, -⟩ | ⟨-, hmul⟩
    · refine Nat.le_antisymm hle (Nat.le_of_not_lt (fun hlt => ?_))
      have hmul := Nat.mul_le_mul_right den (show m + 1 ≤ num / den from hlt)
      omega
    · omega
  · rw [hround] at h ⊢
    refine .inl ?_
    rcases hnext with ⟨-, hmul⟩ | ⟨hlt, -⟩
    · omega
    · refine Nat.le_antisymm (Nat.le_of_not_lt (fun hgt => ?_)) hlt
      have hmul := Nat.mul_le_mul_right den (show num / den + 1 + 1 ≤ m from hgt)
      have hsecond : (num / den + 1 + 1) * den = (num / den + 1) * den + den := Nat.succ_mul _ _
      omega
  · omega

end

/-! ## §3. The nearest rank. -/

section

variable (num : Nat) {den : Nat}

/-- The place of the nearest rank in the stretch of the quotient. -/
theorem exists_place (hden : 0 < den) :
    ∃ scale, nearestRank num den
        = scale * leadingOne + roundQuotient num (den * Nat.pow 2 scale)
      ∧ unitsOf (nearestRank num den) * den
        = roundQuotient num (den * Nat.pow 2 scale) * (den * Nat.pow 2 scale)
      ∧ (0 < scale → leadingOne * Nat.pow 2 scale * den ≤ num) := by
  have hhigh := nearestRank_le num den
  have hlow : 0 < scaleOf (num / den) →
      (scaleOf (num / den) + 1) * leadingOne ≤ nearestRank num den := le_nearestRank
  refine ⟨scaleOf (num / den), nearestRank_eq num den, ?_, fun hscale => ?_⟩
  · rw [nearestRank_eq, Nat.add_mul] at hhigh
    rw [nearestRank_eq, unitsOf_stretch (fun hscale => ?_) (by omega)]
    · ring
    · have hstart := hlow hscale
      rw [nearestRank_eq, Nat.add_mul] at hstart
      omega
  · have hle := two_pow_scaleOf_le hscale
    have hpow : leadingOne * Nat.pow 2 (scaleOf (num / den))
        = Nat.pow 2 (scaleOf (num / den) + 52) := by
      show 2 ^ 52 * 2 ^ scaleOf (num / den) = 2 ^ (scaleOf (num / den) + 52)
      rw [← Nat.pow_add, Nat.add_comm]
    rw [hpow]
    exact (Nat.le_div_iff_mul_le hden).1 hle

/-- **No rank is nearer** to a quotient than the one it is rounded to. -/
theorem nearestRank_nearest (hden : 0 < den) (rank : Nat) :
    Nat.dist num (unitsOf (nearestRank num den) * den) ≤ Nat.dist num (unitsOf rank * den) := by
  obtain ⟨scale, -, hunits, hstart⟩ := exists_place num hden
  have hpos : 0 < den * Nat.pow 2 scale := Nat.mul_pos hden (Nat.two_pow_pos scale)
  rw [hunits]
  rcases unitsOf_grid rank scale with ⟨m, hm⟩ | ⟨hscale, hbelow⟩
  · rw [hm, Nat.mul_assoc, Nat.mul_comm (Nat.pow 2 scale)]
    exact roundQuotient_nearest num m hpos
  -- below the stretch, its first magnitude lies between
  · have hfirst := roundQuotient_nearest num leadingOne hpos
    have hle := hstart hscale
    have hlt := Nat.mul_lt_mul_of_pos_right hbelow hden
    rw [show leadingOne * (den * Nat.pow 2 scale) = leadingOne * Nat.pow 2 scale * den by ring]
      at hfirst
    unfold Nat.dist at hfirst ⊢
    omega

/-- **Of two nearest ranks** the even one is taken. -/
theorem even_of_tie (hden : 0 < den) (rank : Nat)
    (h : Nat.dist num (unitsOf (nearestRank num den) * den) = Nat.dist num (unitsOf rank * den)) :
    unitsOf rank = unitsOf (nearestRank num den) ∨ nearestRank num den % 2 = 0 := by
  obtain ⟨scale, hrank, hunits, hstart⟩ := exists_place num hden
  have hpos : 0 < den * Nat.pow 2 scale := Nat.mul_pos hden (Nat.two_pow_pos scale)
  rcases unitsOf_grid rank scale with ⟨m, hm⟩ | ⟨hscale, hbelow⟩
  · have hmul : unitsOf rank * den = m * (den * Nat.pow 2 scale) := by rw [hm]; ring
    rw [hunits, hmul] at h
    refine (roundQuotient_even_of_tie num m hpos h).imp (fun heq => ?_) (fun heven => ?_)
    · rw [heq, ← hunits] at hmul
      exact Nat.eq_of_mul_eq_mul_right hden hmul
    · rw [hrank, leadingOne_eq]
      omega
  · have hfirst := roundQuotient_nearest num leadingOne hpos
    have hle := hstart hscale
    have hlt := Nat.mul_lt_mul_of_pos_right hbelow hden
    rw [hunits] at h
    rw [show leadingOne * (den * Nat.pow 2 scale) = leadingOne * Nat.pow 2 scale * den by ring]
      at hfirst
    unfold Nat.dist at h hfirst
    omega

end

/-! ## §4. The largest finite float. -/

/-- The magnitude half a unit past the significands of 53 bits. -/
def halfway (k : Nat) : Nat := (Nat.pow 2 54 - 1) * Nat.pow 2 k

theorem two_mul_halfway (k den : Nat) :
    2 * (halfway k * den) = 18014398509481983 * (den * Nat.pow 2 (k + 1)) := by
  show 2 * ((2 ^ 54 - 1) * 2 ^ k * den) = (2 ^ 54 - 1) * (den * 2 ^ (k + 1))
  rw [Nat.pow_succ]
  ring

theorem unitsInOne_pos : 0 < unitsInOne := Nat.pos_of_ne_zero (by decide +kernel)

/-- Halfway between the largest finite float and the next power of two,
`2^1024 − 2^970`, in smallest positive floats. -/
def firstInfinite : Nat := halfway 2044

theorem nearestRank_firstInfinite : nearestRank firstInfinite 1 = 2047 * leadingOne := by
  decide +kernel

/-- Rounding by a unit reaches the end of the last stretch from a half before it. -/
theorem roundQuotient_lt_of_lt {num unit : Nat} (h : 2 * num < 18014398509481983 * unit) :
    roundQuotient num unit < 9007199254740992 := by
  have hunit : 0 < unit := by omega
  have hnum := Nat.div_add_mod' num unit
  have hquotient : num / unit < 9007199254740992 := (Nat.div_lt_iff_lt_mul hunit).2 (by omega)
  have hcases := roundQuotient_cases num unit
  by_cases hend : num / unit = 9007199254740991
  · rw [hend] at hnum hcases
    omega
  · omega

/-- **A quotient is rounded to a finite float** exactly if it lies below the
half to the next power of two, where the half itself goes to the even rank. -/
theorem nearestRank_lt_iff {num den : Nat} (hden : 0 < den) :
    nearestRank num den < 2047 * leadingOne ↔ num < firstInfinite * den := by
  constructor
  · intro hlt
    refine Nat.lt_of_not_le (fun hle => ?_)
    have hmono := nearestRank_mono den hle
    have hhalf := nearestRank_mul_right firstInfinite 1 hden
    rw [Nat.one_mul, nearestRank_firstInfinite] at hhalf
    rw [hhalf] at hmono
    exact Nat.not_lt.2 hmono hlt
  · intro hlt
    have hscale : scaleOf (num / den) ≤ 2044 + 1 := by
      have hdiv : num / den ≤ firstInfinite := Nat.le_of_lt ((Nat.div_lt_iff_lt_mul hden).2 hlt)
      exact Nat.le_trans (scaleOf_mono hdiv) (by decide +kernel)
    rcases Nat.lt_or_eq_of_le hscale with hbelow | hlast
    · have hle := nearestRank_le num den
      have hmul : (scaleOf (num / den) + 2) * leadingOne ≤ 2046 * leadingOne :=
        Nat.mul_le_mul_right _ (by omega)
      have hend : 2046 * leadingOne < 2047 * leadingOne := by decide
      exact Nat.lt_of_le_of_lt (Nat.le_trans hle hmul) hend
    -- in the last stretch the half is the last place that is rounded up past the end
    · have htwice := Nat.mul_lt_mul_of_pos_left hlt Nat.two_pos
      rw [firstInfinite, two_mul_halfway] at htwice
      have hplace := roundQuotient_lt_of_lt htwice
      rw [nearestRank_eq, hlast, show 2047 * leadingOne = (2044 + 1) * leadingOne + 9007199254740992
        by decide]
      exact Nat.add_lt_add_left hplace _

/-! ## §5. Values. -/

namespace Finite64

/-- The value in smallest positive floats. -/
def scaled (x : Finite64) : Int := if x.negative then -(x.units : Int) else x.units

theorem scaled_eq_or (x : Finite64) : x.scaled = x.units ∨ x.scaled = -(x.units : Int) := by
  unfold scaled
  split
  · exact .inr rfl
  · exact .inl rfl

/-- The value of a finite float. -/
def value (x : Finite64) : Rat := x.scaled / unitsInOne

theorem unitsInOne_ne : (unitsInOne : Rat) ≠ 0 :=
  Nat.cast_ne_zero.2 (Nat.ne_of_gt unitsInOne_pos)

theorem value_eq_int_iff {x : Finite64} {i : Int} :
    x.value = i ↔ x.scaled = i * unitsInOne := by
  unfold value
  rw [div_eq_iff unitsInOne_ne]
  norm_cast

theorem value_eq_iff {x y : Finite64} : x.value = y.value ↔ x.scaled = y.scaled := by
  unfold value
  rw [div_left_inj' unitsInOne_ne]
  norm_cast

/-- How far a float is from an integer. -/
theorem abs_value_sub (x : Finite64) (i : Int) :
    |x.value - i| = ((x.scaled - i * unitsInOne).natAbs : Rat) / unitsInOne := by
  have hsub : x.value - i = ((x.scaled - i * unitsInOne : Int) : Rat) / unitsInOne := by
    unfold value
    rw [Int.cast_sub, Int.cast_mul, sub_div, Int.cast_natCast,
      mul_div_cancel_right₀ _ unitsInOne_ne]
  rw [hsub, abs_div, Nat.abs_cast, Nat.cast_natAbs, Int.cast_abs]

theorem rank_eq_of_units_eq {x y : Finite64} (h : x.units = y.units) : x.rank = y.rank := by
  rw [← nearestRank_units x, ← nearestRank_units y, h]

theorem units_eq_zero_iff {x : Finite64} : x.units = 0 ↔ x.rank = 0 := by
  constructor
  · exact fun h => by_contra (fun hne => absurd h (Nat.ne_of_gt (units_pos_of_rank_ne_zero hne)))
  · intro h
    unfold units significand
    rw [h]
    simp [leadingOne_eq]

/-- **Two floats are the same number** if they have the same value. -/
theorem sameNumber_iff {x y : Finite64} :
    (Binary64.finite x).sameNumber (.finite y) = true ↔ x.value = y.value := by
  rw [value_eq_iff, Binary64.sameNumber]
  simp only [Bool.and_eq_true, Bool.or_eq_true, beq_iff_eq]
  have hzero := units_eq_zero_iff (x := x)
  constructor
  · rintro ⟨hrank, hsign⟩
    have hunits : x.units = y.units := by
      unfold units significand scale
      rw [hrank]
    unfold scaled
    rcases hsign with hsign | hsign
    · rw [hunits, hsign]
    · rw [← hunits, hzero.2 hsign]
      simp
  · intro heq
    unfold scaled at heq
    have hunits : x.units = y.units := by
      split at heq <;> split at heq <;> omega
    refine ⟨rank_eq_of_units_eq hunits, ?_⟩
    -- with different signs both are zero
    by_cases hsign : x.negative = y.negative
    · exact .inl hsign
    · refine .inr (hzero.1 ?_)
      rw [Bool.eq_not.2 hsign] at heq
      cases hy : y.negative <;> simp [hy] at heq <;> omega

/-! ## §6. The float of an integer. -/

/-- **The float nearest to a number**: no float is nearer, and if another one is
as near, the rank is even. -/
structure IsNearest (x : Finite64) (q : Rat) : Prop where
  nearest : ∀ y : Finite64, |x.value - q| ≤ |y.value - q|
  even_of_tie : ∀ y : Finite64, |x.value - q| = |y.value - q| → y.value = x.value ∨ x.rank % 2 = 0

/-- The parts of the float of an integer. -/
theorem parts_of_ofInt {i : Int} {x : Finite64} (h : Binary64.ofInt i = .finite x) :
    x.negative = decide (i < 0) ∧ x.rank = nearestRank (i.natAbs * unitsInOne) 1 := by
  unfold Binary64.ofInt Binary64.ofRank at h
  split at h
  · obtain rfl := Binary64.finite.inj h
    exact ⟨rfl, rfl⟩
  · cases h

/-- How far the float of an integer is from it, in smallest positive floats. -/
theorem natAbs_scaled_sub {i : Int} {x : Finite64} (h : Binary64.ofInt i = .finite x) :
    (x.scaled - i * unitsInOne).natAbs = Nat.dist (i.natAbs * unitsInOne) x.units := by
  obtain ⟨hsign, -⟩ := parts_of_ofInt h
  have hmul : (i * (unitsInOne : Int)).natAbs = i.natAbs * unitsInOne := by
    rw [Int.natAbs_mul, Int.natAbs_natCast]
  have hneg : i * (unitsInOne : Int) < 0 ↔ i < 0 := by
    have hpos : (0 : Int) < unitsInOne := Int.natCast_pos.2 unitsInOne_pos
    constructor
    · exact fun hlt => by_contra (fun hge =>
        absurd (mul_nonneg (not_lt.1 hge) hpos.le) (not_le.2 hlt))
    · exact fun hlt => mul_neg_of_neg_of_pos hlt hpos
  unfold scaled Nat.dist
  rw [hsign, ← hmul]
  generalize i * (unitsInOne : Int) = v at *
  by_cases hlt : i < 0
  · rw [decide_eq_true hlt, if_pos rfl]
    have := hneg.2 hlt
    omega
  · rw [decide_eq_false hlt, if_neg Bool.false_ne_true]
    have : ¬ v < 0 := fun hv => hlt (hneg.1 hv)
    omega

/-- Any float is at least as far from an integer as its magnitude from that of
the integer. -/
theorem dist_le_natAbs (y : Finite64) (i : Int) :
    Nat.dist (i.natAbs * unitsInOne) y.units ≤ (y.scaled - i * unitsInOne).natAbs := by
  have hmul : (i * (unitsInOne : Int)).natAbs = i.natAbs * unitsInOne := by
    rw [Int.natAbs_mul, Int.natAbs_natCast]
  unfold scaled Nat.dist
  rw [← hmul]
  split <;> omega

section

variable {i : Int} {x : Finite64} (h : Binary64.ofInt i = .finite x) (y : Finite64)
include h

theorem units_of_ofInt : x.units = unitsOf (nearestRank (i.natAbs * unitsInOne) 1) := by
  rw [← (parts_of_ofInt h).2]
  rfl

/-- No magnitude is nearer to that of the integer. -/
theorem dist_units_le : Nat.dist (i.natAbs * unitsInOne) x.units
    ≤ Nat.dist (i.natAbs * unitsInOne) y.units := by
  have hnearest := nearestRank_nearest (i.natAbs * unitsInOne) Nat.one_pos y.rank
  rw [Nat.mul_one, Nat.mul_one, ← units_of_ofInt h] at hnearest
  exact hnearest

theorem units_eq_or_even (heq : Nat.dist (i.natAbs * unitsInOne) x.units
    = Nat.dist (i.natAbs * unitsInOne) y.units) : y.units = x.units ∨ x.rank % 2 = 0 := by
  have htie := even_of_tie (i.natAbs * unitsInOne) Nat.one_pos y.rank
  rw [Nat.mul_one, Nat.mul_one, ← units_of_ofInt h, ← (parts_of_ofInt h).2] at htie
  exact htie heq

/-- Of two floats with one magnitude only zero is as far away as the other. -/
theorem value_eq_of_units_eq (hunits : y.units = x.units)
    (hsame : (x.scaled - i * unitsInOne).natAbs = (y.scaled - i * unitsInOne).natAbs) :
    y.value = x.value := by
  have hzero : i * (unitsInOne : Int) = 0 → x.units = 0 := by
    intro hmul
    obtain rfl : i = 0 := (mul_eq_zero.1 hmul).resolve_right
      (Int.natCast_ne_zero.2 (Nat.ne_of_gt unitsInOne_pos))
    rw [units_eq_zero_iff, (parts_of_ofInt h).2, Int.natAbs_zero, Nat.zero_mul]
    exact nearestRank_zero 1
  have hdist := natAbs_scaled_sub h
  have hxsign := x.scaled_eq_or
  have hysign := y.scaled_eq_or
  rw [hunits] at hysign
  refine value_eq_iff.2 ?_
  generalize i * (unitsInOne : Int) = v at *
  unfold Nat.dist at hdist
  omega

/-- **The float of an integer is nearest to it.** -/
theorem isNearest_of_ofInt : x.IsNearest i := by
  have hdist := natAbs_scaled_sub h
  constructor
  · intro y
    have hle := Nat.le_trans (dist_units_le h y) (dist_le_natAbs y i)
    rw [abs_value_sub, abs_value_sub, hdist]
    exact div_le_div_of_nonneg_right (Nat.cast_le.2 hle) (Nat.cast_nonneg _)
  · intro y hsame
    rw [abs_value_sub, abs_value_sub, div_left_inj' unitsInOne_ne, Nat.cast_inj] at hsame
    -- as near as the nearest one is only a magnitude that is as near
    have heq : Nat.dist (i.natAbs * unitsInOne) x.units
        = Nat.dist (i.natAbs * unitsInOne) y.units := by
      refine Nat.le_antisymm (dist_units_le h y) ?_
      rw [← hdist, hsame]
      exact dist_le_natAbs y i
    exact (units_eq_or_even h y heq).imp_left (fun hunits => value_eq_of_units_eq h y hunits hsame)

end

end Finite64

end PropertyGraph
