/-
  PropertyGraph.Number.Scaled
  ───────────────────────────
  **A WORD OF DIGITS AND A POWER OF TEN.**

  Data files read a number in one pass and with little arithmetic.  The
  leading digits are collected as long as they fit a word of 64 bits; digits
  after that only move the point.  The float nearest to the word is then
  multiplied or divided by the float nearest to a power of ten:

      72057594037927945e-3   word 72057594037927945, exponent -3
      184467440737095516160  word 18446744073709551616 would not fit, so
                             word 1844674407370955161, exponent 2

  Up to three steps round (the word, the power, the result), so the outcome
  may be a neighbour of the float nearest to the number.  It is that float
  where nothing rounds before the last step: a word up to `2^53` and a power
  up to `10^22`.
-/
import PropertyGraph.Number.Numeral

namespace PropertyGraph

/-! ## §1. The word. -/

/-- The leading digits of a number as one word, and the power of ten that
belongs to it. -/
structure ScaledWord where
  word : Nat
  exponent : Int
  deriving DecidableEq

namespace ScaledWord

/-- Appends digits to a word while it fits 64 bits, and counts those that it
took. -/
def collect (word : Nat) : List Char → Nat × Nat
  | [] => (word, 0)
  | digit :: digits =>
    let longer := Nat.ofDigitChars 10 [digit] word
    if longer < UInt64.size then
      let (word, taken) := collect longer digits
      (word, taken + 1)
    else (word, 0)

/-- The word of digits around a point.  Each whole digit left over is a power
of ten more, each digit taken after the point one less. -/
def ofDigits (whole fraction : List Char) : ScaledWord :=
  let (word, taken) := collect 0 whole
  -- the word may have room again for a smaller digit after the point
  let (word, places) := collect word fraction
  ⟨word, ((whole.length - taken : Nat) : Int) - (places : Int)⟩

end ScaledWord

/-! ## §2. Powers of ten. -/

/-- The float nearest to `10^places`, up to the last that is finite. -/
def powerOfTen? (places : Nat) : Option Finite64 := (Binary64.ofDecimal false 1 places).finite?

namespace Finite64

/-- The float times a power of ten.  Past the last finite power only zero
stays finite. -/
def scaleUp (x : Finite64) (places : Nat) : Binary64 :=
  match powerOfTen? places with
  | some power => x.times power
  | none => if x.rank = 0 then .finite x else .infinite x.negative

/-- The float divided by a power of ten.  Past `10^308` it takes two steps,
and past `10^616` nothing is left of a word. -/
def scaleDown (x : Finite64) (places : Nat) : Binary64 :=
  match powerOfTen? places with
  | some power => x.dividedBy power
  | none =>
    match powerOfTen? 308, powerOfTen? (places - 308) with
    | some first, some second =>
      match x.dividedBy first with
      | .finite y => y.dividedBy second
      | other => other
    | _, _ => .finite (zero x.negative)

end Finite64

/-! ## §3. Numbers. -/

namespace Numeral

/-- The leading digits of a written number and their power of ten. -/
def scaledWord (n : Numeral) : ScaledWord :=
  let scaled := ScaledWord.ofDigits n.whole (n.fraction.getD [])
  { scaled with
    exponent := scaled.exponent +
      (match n.power with
        | some p => p.sign.apply (Nat.ofDigitChars 10 p.digits 0)
        | none => 0) }

/-- The float of a written number by its leading digits. -/
def toScaledBinary64 (n : Numeral) : Binary64 :=
  let scaled := n.scaledWord
  match Binary64.ofDecimal n.sign.negative scaled.word 0 with
  | .finite x =>
    if 0 ≤ scaled.exponent then x.scaleUp scaled.exponent.toNat
    else x.scaleDown (-scaled.exponent).toNat
  | other => other

end Numeral

end PropertyGraph
