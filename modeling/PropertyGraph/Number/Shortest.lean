/-
  PropertyGraph.Number.Shortest
  ─────────────────────────────
  **THE FEWEST DIGITS THAT READ BACK.**

  A float is written with the fewest decimal digits that read back as the
  same float, and among those with the digits nearest to it.  The search
  goes through the grids of 1, 2, … 17 digits; on each grid only the two
  neighbours of the value can be nearest, and each is put to the test
  `readsBack` itself, so what is chosen on a grid reads back
  (`readsBack_of_candidate`).  Should no grid have a hit, all digits of the
  exact value are written.

  `NumberStyle` holds what remains to be decided about the text: the tie
  between two equally near candidates, where positional notation ends, and
  whether a whole number shows a point.
-/
import PropertyGraph.Number.Numeral

namespace PropertyGraph

/-! ## §1. Digits. -/

/-- A decimal magnitude `coefficient · 10^exponent`. -/
structure Decimal where
  coefficient : Nat
  exponent : Int
  deriving DecidableEq

/-- Which of two equally near decimals is taken. -/
inductive TieRule where
  /-- The one whose last digit is even. -/
  | even
  /-- The larger one. -/
  | up
  deriving DecidableEq

namespace Finite64

/-- Does the decimal, with the sign of `x`, read as `x`? -/
def readsBack (x : Finite64) (d : Decimal) : Bool :=
  Binary64.ofDecimal x.negative d.coefficient d.exponent = .finite x

/-- The magnitude of `x` is `num / den`. -/
def fraction (x : Finite64) (exponent : Int) : Nat × Nat :=
  (x.units * Nat.pow 10 (-exponent).toNat, unitsInOne * Nat.pow 10 exponent.toNat)

/-- Is the magnitude of `x` at least `10^exponent`? -/
def atLeastPowerOfTen (x : Finite64) (exponent : Int) : Bool :=
  let (num, den) := x.fraction exponent
  den ≤ num

/-- The exponent of the first decimal digit: estimated from the binary
logarithm and mended by one step. -/
def leadingExponent (x : Finite64) : Int :=
  -- 30103 / 100000 is the decimal logarithm of two to five places
  let estimate := (((Nat.log2 x.units : Nat) : Int) - 1074) * 30103 / 100000
  if x.atLeastPowerOfTen (estimate + 1) then estimate + 1
  else if x.atLeastPowerOfTen estimate then estimate
  else estimate - 1

/-- A whole number of grid steps as a decimal; a power of ten is one digit. -/
def gridPoint (digits : Nat) (steps : Nat) (exponent : Int) : Decimal :=
  if steps = Nat.pow 10 digits then ⟨1, exponent + digits⟩ else ⟨steps, exponent⟩

/-- The nearest decimal with this many digits that reads back as `x`. -/
def candidate (tie : TieRule) (x : Finite64) (digits : Nat) : Option Decimal :=
  let exponent := x.leadingExponent + 1 - digits
  let (num, den) := x.fraction exponent
  let below := num / den
  let rest := num % den
  let low := gridPoint digits below exponent
  let high := gridPoint digits (below + 1) exponent
  match x.readsBack low, x.readsBack high with
  | true, true =>
    -- both neighbours read back: the nearer one, and between equals the rule for ties
    if 2 * rest < den then some low
    else if den < 2 * rest then some high
    else match tie with
      | .even => if below % 2 = 0 then some low else some high
      | .up => some high
  | true, false => some low
  | false, true => some high
  | false, false => none

/-- The exact magnitude of `x`. -/
def exactDecimal (x : Finite64) : Decimal := ⟨x.units * Nat.pow 5 1074, -1074⟩

/-- The fewest digits that read back as `x`, and of those the nearest. -/
def shortest (tie : TieRule) (x : Finite64) : Decimal :=
  if x.rank = 0 then ⟨0, 0⟩
  else ((List.range 17).findSome? (fun n => x.candidate tie (n + 1))).getD x.exactDecimal

theorem readsBack_of_candidate {tie : TieRule} {x : Finite64} {digits : Nat} {d : Decimal}
    (h : x.candidate tie digits = some d) : x.readsBack d = true := by
  unfold candidate at h
  simp only at h
  split at h
  next hl hh =>
    split at h
    · cases h; exact hl
    · split at h
      · cases h; exact hh
      · split at h
        · split at h <;> cases h
          · exact hl
          · exact hh
        · cases h; exact hh
  next hl _ => cases h; exact hl
  next _ hh => cases h; exact hh
  next => simp at h

end Finite64

/-! ## §2. Layout. -/

/-- How a float is laid out as text. -/
structure NumberStyle where
  tie : TieRule
  /-- Exponents of the first digit that are written positionally, from the
  first to the second; all, if absent. -/
  positional : Option (Int × Int)
  /-- Does a whole number end in `.0`? -/
  showsPoint : Bool

namespace Decimal

/-- The digits of the coefficient. -/
def digits (d : Decimal) : List Char := Nat.toDigits 10 d.coefficient

/-- The exponent of the first digit. -/
def firstExponent (d : Decimal) : Int := d.exponent + (d.digits.length : Int) - 1

/-- All digits around a point: `0.05`, `12.5`, `300.0`. -/
def positionalText (showsPoint : Bool) (d : Decimal) : List Char :=
  let digits := d.digits
  let first := d.firstExponent
  if first < 0 then
    '0' :: '.' :: (List.replicate (-first - 1).toNat '0' ++ digits)
  else if digits.length ≤ first.toNat + 1 then
    digits ++ List.replicate (first.toNat + 1 - digits.length) '0'
      ++ (if showsPoint then ['.', '0'] else [])
  else
    digits.take (first.toNat + 1) ++ '.' :: digits.drop (first.toNat + 1)

/-- One digit before the point and a signed power of ten: `1.5e+300`. -/
def scientificText (d : Decimal) : List Char :=
  let first := d.firstExponent
  d.digits.take 1
    ++ (match d.digits.drop 1 with
        | [] => []
        | rest => '.' :: rest)
    ++ 'e' :: (if first < 0 then '-' else '+') :: Nat.toDigits 10 first.natAbs

/-- The text of a magnitude in a style. -/
def text (style : NumberStyle) (d : Decimal) : List Char :=
  match style.positional with
  | none => d.positionalText style.showsPoint
  | some (lowest, highest) =>
    if lowest ≤ d.firstExponent ∧ d.firstExponent ≤ highest then d.positionalText style.showsPoint
    else d.scientificText

end Decimal

/-- The text of a finite float in a style. -/
def Finite64.text (style : NumberStyle) (x : Finite64) : List Char :=
  (if x.negative then ['-'] else []) ++ (x.shortest style.tie).text style

end PropertyGraph
