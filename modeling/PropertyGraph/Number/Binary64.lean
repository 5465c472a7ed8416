/-
  PropertyGraph.Number.Binary64
  ─────────────────────────────
  **FLOATING-POINT VALUES AS EXACT DATA.**

  A finite 64-bit float is a sign and a RANK: its place among the
  non-negative floats in ascending order.  Rank 0 is zero, rank 1 the
  smallest positive float, and the last rank stands just below infinity, so
  a bound on the rank is all that finiteness asks for.  The magnitude is

      units / 2^1074,   units = significand · 2^scale,

  a natural number of the smallest positive float, and every operation here
  is exact arithmetic on natural numbers:

      nearestRank  — the rank nearest to a quotient, ties to the even rank
      ofDecimal    — the float nearest to  coefficient · 10^exponent
      ofInt        — the float nearest to an integer
      times        — the float nearest to a product
      dividedBy    — the float nearest to a quotient
      sameNumber   — numerical equality (0 = −0, NaN differs from itself)
-/

namespace PropertyGraph

/-! ## §1. Finite floats. -/

/-- The leading one of a significand, `2^52`; so many ranks lie between one
power of two and the next. -/
def leadingOne : Nat := Nat.pow 2 52

/-- Smallest positive floats in one, `2^1074`. -/
def unitsInOne : Nat := Nat.pow 2 1074

/-- A finite float: a sign and a rank among the magnitudes. -/
structure Finite64 where
  /-- Is the sign bit set?  Zero has both signs. -/
  negative : Bool
  /-- Place in the ascending list of magnitudes. -/
  rank : Nat
  /-- Ranks from here on would be infinite. -/
  rank_lt : rank < 2047 * leadingOne
  deriving DecidableEq

namespace Finite64

/-- Zero with a sign. -/
def zero (negative : Bool) : Finite64 := ⟨negative, 0, by decide⟩

instance : Inhabited Finite64 := ⟨zero false⟩

/-- The leading bits of the magnitude; below rank `leadingOne` there is
no implied one. -/
def significand (x : Finite64) : Nat :=
  if x.rank < leadingOne then x.rank else leadingOne + x.rank % leadingOne

/-- How many times the significand is doubled. -/
def scale (x : Finite64) : Nat := x.rank / leadingOne - 1

/-- The magnitude, counted in smallest positive floats. -/
def units (x : Finite64) : Nat := x.significand * Nat.pow 2 x.scale

end Finite64

/-! ## §2. All floats. -/

/-- A float: not a number, an infinity, or finite. -/
inductive Binary64 where
  | nan
  | infinite (negative : Bool)
  | finite (x : Finite64)
  deriving DecidableEq

namespace Binary64

instance : Inhabited Binary64 := ⟨.nan⟩

/-- Numerical equality: the two zeros are one number, and `nan` is none. -/
def sameNumber : Binary64 → Binary64 → Bool
  | .finite x, .finite y => x.rank == y.rank && (x.negative == y.negative || x.rank == 0)
  | .infinite s, .infinite t => s == t
  | _, _ => false

/-- The finite float, if it is one. -/
def finite? : Binary64 → Option Finite64
  | .finite x => some x
  | _ => none

theorem sameNumber_comm (x y : Binary64) : x.sameNumber y = y.sameNumber x := by
  cases x <;> cases y <;> simp only [sameNumber]
  · exact Bool.beq_comm
  next x y =>
    rw [Bool.eq_iff_iff]
    simp only [Bool.and_eq_true, Bool.or_eq_true, beq_iff_eq]
    constructor <;> rintro ⟨h, h'⟩ <;> exact ⟨h.symm, h'.imp Eq.symm (h ▸ ·)⟩

theorem sameNumber_self_iff (x : Binary64) : x.sameNumber x = true ↔ x ≠ .nan := by
  cases x with
  | nan => simp [sameNumber]
  | infinite => simp only [sameNumber, beq_self_eq_true, ne_eq, reduceCtorEq, not_false_eq_true]
  | finite x =>
    simp only [sameNumber, beq_self_eq_true, Bool.true_or, Bool.and_true, ne_eq, reduceCtorEq,
      not_false_eq_true]

end Binary64

/-! ## §3. Rounding. -/

/-- The whole number nearest to `num / den`; a half goes to the even one. -/
def roundQuotient (num den : Nat) : Nat :=
  let quotient := num / den
  let rest := num % den
  if 2 * rest < den then quotient
  else if den < 2 * rest then quotient + 1
  else quotient + quotient % 2

/-- The rank nearest to `num / den` units.  From `2^53` units on the ranks lie
`2^scale` units apart, with 53 bits above that place. -/
def nearestRank (num den : Nat) : Nat :=
  let scale := Nat.log2 (num / den) - 52
  scale * leadingOne + roundQuotient num (den * Nat.pow 2 scale)

namespace Binary64

/-- The float of a rank; the ranks past the finite ones are infinite. -/
def ofRank (negative : Bool) (rank : Nat) : Binary64 :=
  if h : rank < 2047 * leadingOne then .finite ⟨negative, rank, h⟩ else .infinite negative

/-- The float nearest to `± coefficient · 10^exponent`.  Magnitudes that are
plainly past every float, or plainly below every positive one, are decided
without their powers of ten. -/
def ofDecimal (negative : Bool) (coefficient : Nat) (exponent : Int) : Binary64 :=
  if coefficient = 0 then .finite (Finite64.zero negative)
  -- the largest finite float is below 10^309
  else if 400 < exponent then .infinite negative
  -- the coefficient is below 2 · 10^(its binary logarithm), the smallest positive float
  -- above 10^(-324)
  else if exponent < -(400 + (Nat.log2 coefficient : Int)) then
    .finite (Finite64.zero negative)
  else
    ofRank negative
      (nearestRank (coefficient * Nat.pow 10 exponent.toNat * unitsInOne)
        (Nat.pow 10 (-exponent).toNat))

/-- The float nearest to an integer. -/
def ofInt (i : Int) : Binary64 :=
  ofRank (i < 0) (nearestRank (i.natAbs * unitsInOne) 1)

end Binary64

/-! ## §4. Products and quotients. -/

namespace Finite64

/-- The float nearest to the product. -/
def times (x y : Finite64) : Binary64 :=
  .ofRank (x.negative != y.negative) (nearestRank (x.units * y.units) unitsInOne)

/-- The float nearest to the quotient by a float that is not zero. -/
def dividedBy (x y : Finite64) : Binary64 :=
  .ofRank (x.negative != y.negative) (nearestRank (x.units * unitsInOne) y.units)

end Finite64

end PropertyGraph
