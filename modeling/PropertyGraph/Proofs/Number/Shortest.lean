/-
  PropertyGraph.Proofs.Number.Shortest
  ────────────────────────────────────
  **WHAT A FLOAT IS WRITTEN AS.**

  The decimal that is chosen for a float always reads as that float
  (`readsBack_shortest`): a candidate on a grid is put to the test, and all
  digits of the exact value need none.  It lies on the grid of the search, so
  between two neighbours of a grid there is nothing on a coarser one
  (`candidate_eq_none`).

  Its text is that of a `Numeral` whose parts are known (`numeral_text`).  A
  number in data files always shows a point or a power of ten, so it is never
  taken for an integer; with a power of ten, its digits and exponent are those
  of the decimal (`coefficient_scientificNumeral`).
-/
import PropertyGraph.Json.Printer
import PropertyGraph.Proofs.Number.Rounding
import PropertyGraph.Proofs.Text.Run

namespace PropertyGraph

open PropertyGraph.Text

/-! ## §1. It reads back. -/

/-- A decimal that is neither plainly infinite nor plainly zero. -/
theorem Binary64.ofDecimal_eq {negative : Bool} {coefficient : Nat} {exponent : Int}
    (hne : coefficient ≠ 0) (hhigh : exponent ≤ 400)
    (hlow : -(400 + (Nat.log2 coefficient : Int)) ≤ exponent) :
    ofDecimal negative coefficient exponent
      = ofRank negative (nearestRank (coefficient * Nat.pow 10 exponent.toNat * unitsInOne)
          (Nat.pow 10 (-exponent).toNat)) := by
  unfold ofDecimal
  rw [if_neg hne, if_neg (by omega), if_neg (by omega)]

theorem Binary64.ofRank_rank (x : Finite64) : ofRank x.negative x.rank = .finite x := by
  unfold ofRank
  rw [dif_pos x.rank_lt]

namespace Finite64

/-- All digits of a magnitude, for any number of places that the units have. -/
theorem ofDecimal_units {x : Finite64} {places : Nat} (hone : unitsInOne = Nat.pow 2 places)
    (h : 0 < x.units) :
    Binary64.ofDecimal x.negative (x.units * Nat.pow 5 places) (-(places : Int)) = .finite x := by
  have hpos : 0 < x.units * Nat.pow 5 places := Nat.mul_pos h (Nat.pow_pos (by decide))
  have hlog : places ≤ Nat.log2 (x.units * Nat.pow 5 places) := by
    refine (Nat.le_log2 (Nat.ne_of_gt hpos)).2 ?_
    calc 2 ^ places ≤ 5 ^ places := Nat.pow_le_pow_left (by decide) places
      _ ≤ x.units * 5 ^ places := Nat.le_mul_of_pos_left _ h
  have hup : (-(places : Int)).toNat = 0 := by omega
  have hdown : (-(-(places : Int))).toNat = places := by omega
  have hten : Nat.pow 5 places * Nat.pow 2 places = Nat.pow 10 places :=
    (Nat.mul_pow 5 2 places).symm
  have hrank : nearestRank (x.units * Nat.pow 10 places) (1 * Nat.pow 10 places) = x.rank :=
    (nearestRank_mul_right x.units 1 (Nat.pow_pos (by decide))).trans x.nearestRank_units
  rw [Binary64.ofDecimal_eq (Nat.ne_of_gt hpos) (by omega) (by omega), hup, hdown, hone]
  show Binary64.ofRank x.negative
    (nearestRank (x.units * Nat.pow 5 places * 1 * Nat.pow 2 places) (Nat.pow 10 places)) = _
  rw [Nat.one_mul] at hrank
  rw [Nat.mul_one, Nat.mul_assoc, hten, hrank, Binary64.ofRank_rank]

theorem readsBack_exactDecimal {x : Finite64} (h : x.rank ≠ 0) :
    x.readsBack x.exactDecimal = true := by
  -- for any number of places, so that the powers are not computed
  have hback : ∀ places, unitsInOne = Nat.pow 2 places →
      x.readsBack ⟨x.units * Nat.pow 5 places, -(places : Int)⟩ = true :=
    fun places hone => decide_eq_true (ofDecimal_units hone (units_pos_of_rank_ne_zero h))
  have hexact := hback 1074
  unfold unitsInOne at hexact
  exact hexact (Eq.refl _)

/-- **What is chosen for a float reads as that float.** -/
theorem readsBack_shortest (tie : TieRule) (x : Finite64) :
    x.readsBack (x.shortest tie) = true := by
  unfold shortest
  split
  next hzero =>
    have hx : x = zero x.negative := by
      cases x
      subst hzero
      rfl
    unfold readsBack
    rw [decide_eq_true_iff, hx]
    rfl
  next hne =>
    cases hfound : (List.range 17).findSome? (fun n => x.candidate tie (n + 1)) with
    | none => exact readsBack_exactDecimal hne
    | some d =>
      obtain ⟨n, -, hn⟩ := List.exists_of_findSome?_eq_some hfound
      exact readsBack_of_candidate hn

/-- What reads as a float other than zero is rounded to its rank. -/
theorem nearestRank_of_readsBack {x : Finite64} {d : Decimal} (h : x.readsBack d = true)
    (hne : x.rank ≠ 0) :
    nearestRank (d.coefficient * Nat.pow 10 d.exponent.toNat * unitsInOne)
      (Nat.pow 10 (-d.exponent).toNat) = x.rank := by
  have hzero : Binary64.finite (zero x.negative) ≠ .finite x :=
    fun heq => hne (congrArg rank (Binary64.finite.inj heq)).symm
  unfold readsBack Binary64.ofDecimal at h
  rw [decide_eq_true_iff] at h
  split at h
  next => exact absurd h hzero
  split at h
  next => cases h
  split at h
  next => exact absurd h hzero
  next =>
    unfold Binary64.ofRank at h
    split at h
    next => exact congrArg rank (Binary64.finite.inj h)
    next => cases h

theorem coefficient_shortest_ne_zero {tie : TieRule} {x : Finite64} (h : x.rank ≠ 0) :
    (x.shortest tie).coefficient ≠ 0 := by
  intro hzero
  have hback := x.readsBack_shortest tie
  unfold readsBack Binary64.ofDecimal at hback
  rw [hzero, if_pos rfl, decide_eq_true_iff] at hback
  exact h (congrArg Finite64.rank (Binary64.finite.inj hback)).symm

/-! ## §2. It lies on a grid. -/

theorem exists_gridPoint_of_candidate {tie : TieRule} {x : Finite64} {digits : Nat} {d : Decimal}
    (h : x.candidate tie digits = some d) :
    ∃ steps, d = gridPoint digits steps (x.leadingExponent + 1 - digits) := by
  unfold candidate at h
  dsimp only at h
  split at h
  · split at h
    · exact ⟨_, (Option.some.inj h).symm⟩
    · split at h
      · exact ⟨_, (Option.some.inj h).symm⟩
      · split at h
        · split at h
          · exact ⟨_, (Option.some.inj h).symm⟩
          · exact ⟨_, (Option.some.inj h).symm⟩
        · exact ⟨_, (Option.some.inj h).symm⟩
  · exact ⟨_, (Option.some.inj h).symm⟩
  · exact ⟨_, (Option.some.inj h).symm⟩
  · cases h

/-- A point of a grid of whole numbers is so many steps from zero. -/
theorem gridPoint_value (digits steps places : Nat) :
    ∃ coefficient more : Nat, gridPoint digits steps places = ⟨coefficient, more⟩
      ∧ coefficient * Nat.pow 10 more = steps * Nat.pow 10 places := by
  unfold gridPoint
  split
  next heq =>
    refine ⟨1, places + digits, by rw [Int.natCast_add], ?_⟩
    rw [heq, Nat.one_mul]
    exact (Nat.pow_add 10 places digits).trans (Nat.mul_comm _ _)
  next => exact ⟨steps, places, rfl, rfl⟩

/-- **Between two neighbours of a grid** there is no point of a coarser one, so a
float there has no decimal on it. -/
theorem candidate_eq_none {tie : TieRule} {x : Finite64} {digits low places : Nat} (more : Nat)
    (hgrid : x.leadingExponent + 1 - digits = ((places + more : Nat) : Int))
    (hlow : nearestRank (low * Nat.pow 10 places * unitsInOne) 1 < x.rank)
    (hhigh : x.rank < nearestRank ((low + 1) * Nat.pow 10 places * unitsInOne) 1) :
    x.candidate tie digits = none := by
  refine Option.eq_none_iff_forall_ne_some.2 (fun d hd => ?_)
  obtain ⟨steps, rfl⟩ := exists_gridPoint_of_candidate hd
  rw [hgrid] at hd
  obtain ⟨coefficient, up, hpoint, hvalue⟩ := gridPoint_value digits steps (places + more)
  have hback := nearestRank_of_readsBack (readsBack_of_candidate hd) (Nat.ne_of_gt (by omega))
  have hmultiple : coefficient * Nat.pow 10 up
      = steps * Nat.pow 10 more * Nat.pow 10 places := by
    rw [hvalue, Nat.mul_assoc, Nat.mul_comm (Nat.pow 10 more)]
    exact congrArg (steps * ·) (Nat.pow_add 10 places more)
  have hdown : (-(up : Int)).toNat = 0 := by omega
  rw [hpoint] at hback
  dsimp only at hback
  rw [Int.toNat_natCast, hdown] at hback
  change nearestRank (coefficient * Nat.pow 10 up * unitsInOne) 1 = x.rank at hback
  rw [hmultiple] at hback
  rcases Nat.lt_or_ge low (steps * Nat.pow 10 more) with habove | hbelow
  · have hle := nearestRank_mono 1 (Nat.mul_le_mul_right unitsInOne
      (Nat.mul_le_mul_right (Nat.pow 10 places) (Nat.succ_le_of_lt habove)))
    rw [hback] at hle
    exact absurd hhigh (Nat.not_lt.2 hle)
  · have hle := nearestRank_mono 1 (Nat.mul_le_mul_right unitsInOne
      (Nat.mul_le_mul_right (Nat.pow 10 places) hbelow))
    rw [hback] at hle
    exact absurd hlow (Nat.not_lt.2 hle)

/-- If no shorter decimal reads back, the search comes to the last grid. -/
theorem shortest_eq_of_candidate {tie : TieRule} {x : Finite64} {d : Decimal} (hne : x.rank ≠ 0)
    (hnone : ∀ digits, digits ≤ 16 → x.candidate tie digits = none)
    (h : x.candidate tie 17 = some d) : x.shortest tie = d := by
  have hshorter : (List.range 16).findSome? (fun n => x.candidate tie (n + 1)) = none :=
    List.findSome?_eq_none_iff.2 (fun n hn => hnone (n + 1) (List.mem_range.1 hn))
  unfold shortest
  rw [if_neg hne, List.range_succ, List.findSome?_append, hshorter, Option.none_or,
    List.findSome?_singleton, h]
  rfl

end Finite64

/-! ## §3. Its parts. -/

namespace Decimal

/-- The parts of a decimal in positional notation with a point. -/
def positionalNumeral (sign : SignMark) (d : Decimal) : Numeral :=
  let first := d.firstExponent
  if first < 0 then
    ⟨sign, ['0'], some (List.replicate (-first - 1).toNat '0' ++ d.digits), none⟩
  else if d.digits.length ≤ first.toNat + 1 then
    ⟨sign, d.digits ++ List.replicate (first.toNat + 1 - d.digits.length) '0', some ['0'], none⟩
  else
    ⟨sign, d.digits.take (first.toNat + 1), some (d.digits.drop (first.toNat + 1)), none⟩

/-- The parts of a decimal with a power of ten. -/
def scientificNumeral (sign : SignMark) (d : Decimal) : Numeral :=
  ⟨sign, d.digits.take 1, if d.digits.drop 1 = [] then none else some (d.digits.drop 1),
    some ⟨'e', if d.firstExponent < 0 then .minus else .plus,
      Nat.toDigits 10 d.firstExponent.natAbs⟩⟩

/-- The parts of a decimal as data files show it. -/
def numeral (sign : SignMark) (d : Decimal) : Numeral :=
  if -5 ≤ d.firstExponent ∧ d.firstExponent ≤ 15 then d.positionalNumeral sign
  else d.scientificNumeral sign

theorem positionalNumeral_text (sign : SignMark) (d : Decimal) :
    (d.positionalNumeral sign).text = sign.text ++ d.positionalText true := by
  unfold positionalNumeral positionalText Numeral.text
  dsimp only
  split
  · simp
  · split <;> simp

theorem scientificNumeral_text (sign : SignMark) (d : Decimal) :
    (d.scientificNumeral sign).text = sign.text ++ d.scientificText := by
  have hsign : (if d.firstExponent < 0 then SignMark.minus else .plus).text
      = [if d.firstExponent < 0 then '-' else '+'] := by
    split <;> rfl
  unfold scientificNumeral scientificText Numeral.text
  dsimp only
  rw [hsign]
  cases hrest : d.digits.drop 1 with
  | nil => simp
  | cons c rest => simp

theorem numeral_text (sign : SignMark) (d : Decimal) :
    (d.numeral sign).text = sign.text ++ d.text Json.numberStyle := by
  show _ = sign.text ++ (if -5 ≤ d.firstExponent ∧ d.firstExponent ≤ 15 then
    d.positionalText true else d.scientificText)
  unfold numeral
  split
  · exact positionalNumeral_text sign d
  · exact scientificNumeral_text sign d

/-- A float is not written as an integer. -/
theorem isWhole_numeral (sign : SignMark) (d : Decimal) : (d.numeral sign).isWhole = false := by
  unfold numeral
  split
  · unfold positionalNumeral Numeral.isWhole
    dsimp only
    split
    · rfl
    · split <;> rfl
  · unfold scientificNumeral Numeral.isWhole
    exact Bool.and_false _

theorem digits_ne_nil (d : Decimal) : d.digits ≠ [] := Nat.toDigits_ne_nil

theorem isDigit_of_mem_digits {d : Decimal} : ∀ c ∈ d.digits, c.isDigit = true :=
  isDigit_of_mem_toDigits

/-- All digits of a decimal are in its parts. -/
theorem coefficient_scientificNumeral (sign : SignMark) (d : Decimal) :
    (d.scientificNumeral sign).coefficient = d.coefficient := by
  have hdigits : d.digits.take 1
      ++ (if d.digits.drop 1 = [] then none else some (d.digits.drop 1)).getD [] = d.digits := by
    split
    next hnil =>
      have hall := List.take_append_drop 1 d.digits
      rwa [hnil] at hall
    next => exact List.take_append_drop 1 d.digits
  unfold Numeral.coefficient scientificNumeral
  dsimp only
  rw [hdigits]
  exact Nat.ofDigitChars_ten_toDigits

end Decimal

/-- The parts of the text of a float in data files. -/
def Finite64.numeral (x : Finite64) : Numeral :=
  (x.shortest .even).numeral (if x.negative then .minus else .absent)

theorem Finite64.numeral_text (x : Finite64) : x.numeral.text = x.text Json.numberStyle := by
  unfold numeral text
  rw [Decimal.numeral_text]
  cases x.negative <;> rfl

end PropertyGraph
