/-
  PropertyGraph.Proofs.Value.Comparison
  ─────────────────────────────────────
  **INTEGERS AND FLOATS IN ONE COMPARISON.**

  An integer is compared with a float through the float nearest to it.  Up to
  `2^53` that is the integer itself and the comparison is exact.  Beyond,
  neighbouring integers share a float:

      9007199254740993  alike  9007199254740992.0  alike  9007199254740992

  and the first and last of these three are not alike.  That is the only way
  in which the comparison fails to be transitive: whenever `a` is alike `b`
  and `b` alike `c`, then `a` is alike `c` exactly if wherever both have an
  integer it is the same one (`alike_trans_iff`), and so for all values whose
  integers are floats (`alike_trans_of_exact`).
-/
import PropertyGraph.Proofs.Number.Nearest
import PropertyGraph.Proofs.Value.Alike

namespace PropertyGraph

/-! ## §1. Numbers. -/

namespace Binary64

theorem eq_finite_of_sameNumber {x : Finite64} {f : Binary64}
    (h : (Binary64.finite x).sameNumber f = true) : ∃ y, f = .finite y ∧ y.value = x.value := by
  cases f with
  | nan => cases h
  | infinite => cases h
  | finite y => exact ⟨y, rfl, (Finite64.sameNumber_iff.1 h).symm⟩

theorem sameNumber_trans {x y z : Binary64} (h : x.sameNumber y = true)
    (h' : y.sameNumber z = true) : x.sameNumber z = true := by
  cases y with
  | nan => cases h'
  | infinite s =>
    cases x <;> simp only [sameNumber, Bool.false_eq_true, beq_iff_eq] at h
    exact h ▸ h'
  | finite y =>
    rw [sameNumber_comm] at h
    obtain ⟨x, rfl, hx⟩ := eq_finite_of_sameNumber h
    obtain ⟨z, rfl, hz⟩ := eq_finite_of_sameNumber h'
    exact Finite64.sameNumber_iff.2 (hx.trans hz.symm)

end Binary64

/-! ## §2. Integers. -/

namespace Binary64

/-- The float nearest to a 64-bit integer is finite. -/
theorem exists_ofInt (i : Int64) : ∃ x, ofInt i.toInt = .finite x := by
  have hbound : i.toInt.natAbs ≤ 9223372036854775808 := by
    have hlow := i.minValue_le_toInt
    have hhigh := i.toInt_le
    rw [show Int64.minValue.toInt = -9223372036854775808 by decide] at hlow
    rw [show Int64.maxValue.toInt = 9223372036854775807 by decide] at hhigh
    omega
  have hrank : nearestRank (i.toInt.natAbs * unitsInOne) 1 < 2047 * leadingOne :=
    Nat.lt_of_le_of_lt (nearestRank_mono 1 (Nat.mul_le_mul_right unitsInOne hbound))
      (by decide +kernel)
  refine ⟨⟨decide (i.toInt < 0), _, hrank⟩, ?_⟩
  rw [ofInt, ofRank, dif_pos hrank]

/-- The integer is the value of a float. -/
def Holds (i : Int64) : Prop := ∃ x : Finite64, x.value = i.toInt

/-- Such an integer is the value of the float nearest to it. -/
theorem value_of_ofInt {i : Int64} (h : Holds i) {x : Finite64}
    (hx : ofInt i.toInt = .finite x) : x.value = i.toInt := by
  obtain ⟨y, hy⟩ := h
  have hnearest := (Finite64.isNearest_of_ofInt hx).nearest y
  rw [hy, sub_self, abs_zero] at hnearest
  exact sub_eq_zero.1 (abs_eq_zero.1 (le_antisymm hnearest (abs_nonneg _)))

end Binary64

/-- Every multiple of a power of two with at most 53 bits is a magnitude. -/
theorem exists_unitsOf (scale : Nat) {m : Nat} (h : m ≤ 2 * leadingOne) :
    ∃ rank ≤ (scale + 2) * leadingOne, unitsOf rank = m * Nat.pow 2 scale := by
  induction scale generalizing m with
  | zero =>
    refine ⟨m, by omega, ?_⟩
    have hunits : unitsOf (0 * leadingOne + m) = m * Nat.pow 2 0 :=
      unitsOf_stretch (fun hpos => absurd hpos (by decide)) h
    rwa [Nat.zero_mul, Nat.zero_add] at hunits
  | succ scale ih =>
    by_cases hlow : leadingOne ≤ m
    · refine ⟨(scale + 1) * leadingOne + m, ?_, unitsOf_stretch (fun _ => hlow) h⟩
      rw [Nat.add_mul (scale + 1)]
      omega
    -- a small one is twice as much in the stretch before
    · obtain ⟨rank, hle, hunits⟩ := ih (m := m * 2) (by omega)
      refine ⟨rank, Nat.le_trans hle (Nat.mul_le_mul_right _ (by omega)), ?_⟩
      rw [hunits]
      show m * 2 * 2 ^ scale = m * 2 ^ (scale + 1)
      rw [Nat.pow_succ]
      ring

/-- **Integers up to `2^53`** are values of floats. -/
theorem Binary64.holds_of_le {i : Int64} (h : i.toInt.natAbs ≤ Nat.pow 2 53) : Holds i := by
  -- for any number of places, so that the power is not computed
  have hholds : ∀ places ≤ 1074, unitsInOne = Nat.pow 2 places → Holds i := by
    intro places hplaces hone
    obtain ⟨rank, hle, hunits⟩ := exists_unitsOf places h
    have hrank : rank < 2047 * leadingOne := by
      refine Nat.lt_of_le_of_lt (Nat.le_trans hle (Nat.mul_le_mul_right _ ?_))
        (show 1076 * leadingOne < 2047 * leadingOne by decide)
      omega
    refine ⟨⟨decide (i.toInt < 0), rank, hrank⟩, Finite64.value_eq_int_iff.2 ?_⟩
    rw [← hone] at hunits
    have hsize : (⟨decide (i.toInt < 0), rank, hrank⟩ : Finite64).units
        = i.toInt.natAbs * unitsInOne := hunits
    unfold Finite64.scaled
    rw [hsize, Nat.cast_mul]
    by_cases hneg : i.toInt < 0
    · rw [if_pos (decide_eq_true hneg), Int.ofNat_natAbs_of_nonpos hneg.le, neg_mul, neg_neg]
    · rw [if_neg (by simpa using hneg), Int.natAbs_of_nonneg (not_lt.1 hneg)]
  have hplaces := hholds 1074 (Nat.le_refl _)
  unfold unitsInOne at hplaces
  exact hplaces (Eq.refl _)

/-! ## §3. Which values are alike. -/

namespace Value

mutual

/-- Wherever both values have an integer, it is the same one. -/
def SameIntegers : Value → Value → Prop
  | .int i, .int j => i = j
  | .list xs, .list ys => SameIntegersItems xs ys
  | .map xs, .map ys => SameIntegersEntries xs ys
  | _, _ => True

/-- The same integers item by item. -/
def SameIntegersItems : List Value → List Value → Prop
  | x :: xs, y :: ys => SameIntegers x y ∧ SameIntegersItems xs ys
  | _, _ => True

/-- The same integers entry by entry. -/
def SameIntegersEntries : List (String × Value) → List (String × Value) → Prop
  | (_, x) :: xs, (_, y) :: ys => SameIntegers x y ∧ SameIntegersEntries xs ys
  | _, _ => True

end

mutual

/-- Every integer inside, at any depth, is the value of a float. -/
def Exact : Value → Prop
  | .int i => Binary64.Holds i
  | .list items => ExactItems items
  | .map entries => ExactEntries entries
  | .null | .bool _ | .float _ | .str _ => True

/-- Every one in any item. -/
def ExactItems : List Value → Prop
  | [] => True
  | item :: items => Exact item ∧ ExactItems items

/-- Every one in the value of any entry. -/
def ExactEntries : List (String × Value) → Prop
  | [] => True
  | (_, value) :: entries => Exact value ∧ ExactEntries entries

end

/-- A number as the comparison takes it. -/
def number? : Value → Option Binary64
  | .int i => some (Binary64.ofInt i.toInt)
  | .float x => some x
  | _ => none

section

variable {value : Value}

theorem null_alike_iff : Value.null.alike value = true ↔ value = .null := by
  cases value <;> simp [alike]

theorem bool_alike_iff {b : Bool} : (Value.bool b).alike value = true ↔ .bool b = value := by
  cases value <;> simp [alike]

theorem str_alike_iff {s : String} : (Value.str s).alike value = true ↔ .str s = value := by
  cases value <;> simp [alike]

theorem int_alike_iff {i : Int64} :
    (Value.int i).alike value = true
      ↔ .int i = value ∨ ∃ x, value = .float x ∧ (Binary64.ofInt i.toInt).sameNumber x = true := by
  cases value <;> simp [alike]

theorem float_alike_iff {x : Binary64} :
    (Value.float x).alike value = true ↔ ∃ y, value.number? = some y ∧ x.sameNumber y = true := by
  cases value <;> simp [alike, number?, Binary64.sameNumber_comm]

theorem list_alike_iff {xs : List Value} :
    (Value.list xs).alike value = true ↔ ∃ ys, value = .list ys ∧ alikeItems xs ys = true := by
  cases value <;> simp [alike]

theorem map_alike_iff {xs : List (String × Value)} :
    (Value.map xs).alike value = true ↔ ∃ ys, value = .map ys ∧ alikeEntries xs ys = true := by
  cases value <;> simp [alike]

end

/-- A number that is the same as a float is alike all that the float is alike. -/
theorem number?_alike {b c : Value} {x y : Binary64} (hb : b.number? = some y)
    (hsame : x.sameNumber y = true) (h : b.alike c = true) :
    ∃ z, c.number? = some z ∧ x.sameNumber z = true := by
  cases b with
  | int i =>
    obtain rfl := Option.some.inj hb
    rcases int_alike_iff.1 h with rfl | ⟨z, rfl, hz⟩
    · exact ⟨_, rfl, hsame⟩
    · exact ⟨z, rfl, Binary64.sameNumber_trans hsame hz⟩
  | float z =>
    obtain rfl := Option.some.inj hb
    obtain ⟨w, hw, hz⟩ := float_alike_iff.1 h
    exact ⟨w, hw, Binary64.sameNumber_trans hsame hz⟩
  | _ => cases hb

theorem int_alike_int_iff {i j : Int64} : (Value.int i).alike (.int j) = true ↔ i = j := by
  simp [alike]

theorem alikeItems_cons_iff {x y : Value} {xs ys : List Value} :
    alikeItems (x :: xs) (y :: ys) = true ↔ x.alike y = true ∧ alikeItems xs ys = true := by
  simp only [alikeItems, Bool.and_eq_true]

theorem alikeEntries_cons_iff {k l : String} {x y : Value} {xs ys : List (String × Value)} :
    alikeEntries ((k, x) :: xs) ((l, y) :: ys) = true
      ↔ k = l ∧ x.alike y = true ∧ alikeEntries xs ys = true := by
  simp only [alikeEntries, Bool.and_eq_true, beq_iff_eq, and_assoc]

/-! ## §4. Transitivity. -/

mutual

/-- **What is alike a common value** is alike, up to the integers in the same
places. -/
theorem alike_trans_iff : ∀ {a b c : Value}, a.alike b = true → b.alike c = true →
    (a.alike c = true ↔ SameIntegers a c)
  | .null, b, c, h, h' => by
    obtain rfl := null_alike_iff.1 h
    simp [h', SameIntegers]
  | .bool _, b, c, h, h' => by
    obtain rfl := bool_alike_iff.1 h
    simp [h', SameIntegers]
  | .str _, b, c, h, h' => by
    obtain rfl := str_alike_iff.1 h
    simp [h', SameIntegers]
  | .int i, b, c, h, h' => by
    rcases int_alike_iff.1 h with rfl | ⟨x, rfl, hx⟩
    · rcases int_alike_iff.1 h' with rfl | ⟨y, rfl, -⟩
      · simp [h', SameIntegers]
      · simp [h', SameIntegers]
    · obtain ⟨y, hy, hsame⟩ := float_alike_iff.1 h'
      cases c with
      | int j => exact int_alike_int_iff
      | float z =>
        obtain rfl := Option.some.inj hy
        simpa [alike, SameIntegers] using Binary64.sameNumber_trans hx hsame
      | _ => cases hy
  | .float x, b, c, h, h' => by
    obtain ⟨y, hb, hsame⟩ := float_alike_iff.1 h
    have halike := float_alike_iff.2 (number?_alike hb hsame h')
    simp [halike, SameIntegers]
  | .list xs, b, c, h, h' => by
    obtain ⟨ys, rfl, hxy⟩ := list_alike_iff.1 h
    obtain ⟨zs, rfl, hyz⟩ := list_alike_iff.1 h'
    simpa [alike, SameIntegers] using alikeItems_trans_iff hxy hyz
  | .map xs, b, c, h, h' => by
    obtain ⟨ys, rfl, hxy⟩ := map_alike_iff.1 h
    obtain ⟨zs, rfl, hyz⟩ := map_alike_iff.1 h'
    simpa [alike, SameIntegers] using alikeEntries_trans_iff hxy hyz

theorem alikeItems_trans_iff : ∀ {xs ys zs : List Value}, alikeItems xs ys = true →
    alikeItems ys zs = true → (alikeItems xs zs = true ↔ SameIntegersItems xs zs)
  | [], [], [], _, _ => by simp [alikeItems, SameIntegersItems]
  | x :: xs, y :: ys, z :: zs, h, h' => by
    rw [alikeItems_cons_iff] at h h' ⊢
    exact and_congr (alike_trans_iff h.1 h'.1) (alikeItems_trans_iff h.2 h'.2)

theorem alikeEntries_trans_iff : ∀ {xs ys zs : List (String × Value)},
    alikeEntries xs ys = true → alikeEntries ys zs = true →
    (alikeEntries xs zs = true ↔ SameIntegersEntries xs zs)
  | [], [], [], _, _ => by simp [alikeEntries, SameIntegersEntries]
  | (k, x) :: xs, (l, y) :: ys, (m, z) :: zs, h, h' => by
    rw [alikeEntries_cons_iff] at h h' ⊢
    rw [and_iff_right (h.1.trans h'.1)]
    exact and_congr (alike_trans_iff h.2.1 h'.2.1) (alikeEntries_trans_iff h.2.2 h'.2.2)

end

/-- Two integers that are floats, alike a common one, are the same. -/
theorem eq_of_common_float {i j : Int64} {x : Binary64} (hi : Binary64.Holds i)
    (hj : Binary64.Holds j) (h : (Binary64.ofInt i.toInt).sameNumber x = true)
    (h' : x.sameNumber (Binary64.ofInt j.toInt) = true) : i = j := by
  obtain ⟨y, hy⟩ := Binary64.exists_ofInt i
  obtain ⟨z, hz⟩ := Binary64.exists_ofInt j
  have hsame := Binary64.sameNumber_trans h h'
  rw [hy, hz] at hsame
  have hvalue := Finite64.sameNumber_iff.1 hsame
  rw [Binary64.value_of_ofInt hi hy, Binary64.value_of_ofInt hj hz] at hvalue
  exact Int64.toInt_inj.1 (Int.cast_inj.1 hvalue)

mutual

theorem sameIntegers_of_exact : ∀ {a b c : Value}, a.alike b = true → b.alike c = true →
    a.Exact → c.Exact → SameIntegers a c
  | .null, _, _, _, _, _, _ => trivial
  | .bool _, _, _, _, _, _, _ => trivial
  | .str _, _, _, _, _, _, _ => trivial
  | .float _, _, _, _, _, _, _ => trivial
  | .int i, b, c, h, h', hi, hc => by
    rcases int_alike_iff.1 h with rfl | ⟨x, rfl, hx⟩
    · rcases int_alike_iff.1 h' with rfl | ⟨y, rfl, -⟩
      · exact rfl
      · trivial
    · obtain ⟨y, hy, hsame⟩ := float_alike_iff.1 h'
      cases c with
      | int j =>
        obtain rfl := Option.some.inj hy
        exact eq_of_common_float hi hc hx hsame
      | _ => trivial
  | .list xs, b, c, h, h', hx, hz => by
    obtain ⟨ys, rfl, hxy⟩ := list_alike_iff.1 h
    obtain ⟨zs, rfl, hyz⟩ := list_alike_iff.1 h'
    exact sameIntegersItems_of_exact hxy hyz hx hz
  | .map xs, b, c, h, h', hx, hz => by
    obtain ⟨ys, rfl, hxy⟩ := map_alike_iff.1 h
    obtain ⟨zs, rfl, hyz⟩ := map_alike_iff.1 h'
    exact sameIntegersEntries_of_exact hxy hyz hx hz

theorem sameIntegersItems_of_exact : ∀ {xs ys zs : List Value}, alikeItems xs ys = true →
    alikeItems ys zs = true → ExactItems xs → ExactItems zs → SameIntegersItems xs zs
  | [], _, _, _, _, _, _ => trivial
  | _ :: _, _, [], _, _, _, _ => trivial
  | x :: xs, y :: ys, z :: zs, h, h', hx, hz => by
    rw [alikeItems_cons_iff] at h h'
    exact ⟨sameIntegers_of_exact h.1 h'.1 hx.1 hz.1,
      sameIntegersItems_of_exact h.2 h'.2 hx.2 hz.2⟩

theorem sameIntegersEntries_of_exact : ∀ {xs ys zs : List (String × Value)},
    alikeEntries xs ys = true → alikeEntries ys zs = true → ExactEntries xs → ExactEntries zs →
    SameIntegersEntries xs zs
  | [], _, _, _, _, _, _ => trivial
  | _ :: _, _, [], _, _, _, _ => trivial
  | (k, x) :: xs, (l, y) :: ys, (m, z) :: zs, h, h', hx, hz => by
    rw [alikeEntries_cons_iff] at h h'
    exact ⟨sameIntegers_of_exact h.2.1 h'.2.1 hx.1 hz.1,
      sameIntegersEntries_of_exact h.2.2 h'.2.2 hx.2 hz.2⟩

end

/-! ## §5. The comparison of patterns. -/

/-- **Patterns compare an integer with a float through the nearest float.**  A
float is alike an integer if it has the value of the float nearest to it; for
just the integers that are themselves values of floats, among them all up to
`2^53`, that is the exact comparison.  Of values alike a common one, two are
alike exactly if they have the same integers in the same places, and always if
all their integers are values of floats. -/
theorem alike_by_nearest (i : Int64) (a b c : Value) :
    (∃ x : Finite64, x.IsNearest i.toInt ∧ ∀ f : Binary64,
        (Value.int i).alike (.float f) = true ↔ ∃ y, f = .finite y ∧ y.value = x.value)
      ∧ ((∀ y : Finite64, (Value.int i).alike (.float (.finite y)) = true ↔ y.value = i.toInt)
          ↔ ∃ x : Finite64, x.value = i.toInt)
      ∧ (i.toInt.natAbs ≤ Nat.pow 2 53 → ∃ x : Finite64, x.value = i.toInt)
      ∧ (a.alike b = true → b.alike c = true → (a.alike c = true ↔ SameIntegers a c))
      ∧ (a.alike b = true → b.alike c = true → a.Exact → c.Exact → a.alike c = true) := by
  obtain ⟨x, hx⟩ := Binary64.exists_ofInt i
  have hfloat (f : Binary64) :
      (Value.int i).alike (.float f) = true ↔ ∃ y, f = .finite y ∧ y.value = x.value := by
    rw [alike, hx]
    constructor
    · exact Binary64.eq_finite_of_sameNumber
    · rintro ⟨y, rfl, hvalue⟩
      exact Finite64.sameNumber_iff.2 hvalue.symm
  refine ⟨⟨x, Finite64.isNearest_of_ofInt hx, hfloat⟩, ?_, fun hle => Binary64.holds_of_le hle,
    fun h h' => alike_trans_iff h h', fun h h' ha hc =>
      (alike_trans_iff h h').2 (sameIntegers_of_exact h h' ha hc)⟩
  constructor
  · intro hexact
    exact ⟨x, (hexact x).1 ((hfloat (.finite x)).2 ⟨x, rfl, rfl⟩)⟩
  · intro hholds y
    rw [hfloat, Binary64.value_of_ofInt hholds hx]
    constructor
    · rintro ⟨z, heq, hz⟩
      rwa [Binary64.finite.inj heq]
    · exact fun hy => ⟨y, rfl, hy⟩

/-- The float `2^53`. -/
def lastExact : Finite64 := ⟨false, 1076 * leadingOne, by decide⟩

theorem alike_by_nearest_list :
    ((Value.list [.int 7]).alike (.list [.float (Binary64.ofInt 7)]) = true
      ∧ (Value.list [.float (Binary64.ofInt 7)]).alike (.list [.int 7]) = true)
      ∧ (Value.list [.int 7]).alike (.list [.int 7]) = true := by
  have hseven : Binary64.Holds 7 := Binary64.holds_of_le (show (7 : Int64).toInt.natAbs ≤ _ by decide)
  have hthere : (Value.list [.int 7]).alike (.list [.float (Binary64.ofInt 7)]) = true := by
    decide +kernel
  have hback : (Value.list [.float (Binary64.ofInt 7)]).alike (.list [.int 7]) = true := by
    decide +kernel
  exact ⟨⟨hthere, hback⟩, (alike_by_nearest 7 (.list [.int 7])
    (.list [.float (Binary64.ofInt 7)]) (.list [.int 7])).2.2.2.2 hthere hback ⟨hseven, trivial⟩
      ⟨hseven, trivial⟩⟩

/-- The integer after `2^53` is alike the float `2^53`, as is `2^53` itself. -/
theorem alike_past_lastExact :
    (Value.int 9007199254740993).alike (.float (.finite lastExact)) = true
      ∧ lastExact.value ≠ (9007199254740993 : Int64).toInt
      ∧ (Value.float (.finite lastExact)).alike (.int 9007199254740992) = true
      ∧ lastExact.value = (9007199254740992 : Int64).toInt
      ∧ (Value.int 9007199254740993).alike (.int 9007199254740992) = false := by
  refine ⟨by decide +kernel, ?_, by decide +kernel, ?_, by decide +kernel⟩
  · rw [ne_eq, Finite64.value_eq_int_iff]
    decide +kernel
  · rw [Finite64.value_eq_int_iff]
    decide +kernel

end Value

end PropertyGraph
