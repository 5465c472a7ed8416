/-
  PropertyGraph.Proofs.Text.Run
  ─────────────────────────────
  **RUNS OF CHARACTERS AND WHAT ENDS THEM.**

  Readers take the longest run of characters of one class.  Whether a run
  ends where it was meant to end depends on the character after it, and
  `Stops` says that this character, if there is one, does not go on.
-/

namespace PropertyGraph.Text

/-- The text does not begin with a character of the class. -/
def Stops (p : Char → Bool) (rest : List Char) : Prop :=
  ∀ c tail, rest = c :: tail → p c = false

theorem stops_nil (p : Char → Bool) : Stops p [] := by
  intro c tail h
  cases h

theorem stops_cons {p : Char → Bool} {c : Char} {rest : List Char} (h : p c = false) :
    Stops p (c :: rest) := by
  intro d tail heq
  obtain ⟨rfl, -⟩ := List.cons.inj heq
  exact h

/-- Fewer characters go on if the class is smaller. -/
theorem Stops.mono {p q : Char → Bool} {rest : List Char} (h : Stops p rest)
    (hqp : ∀ c, q c = true → p c = true) : Stops q rest := by
  intro c tail heq
  cases hq : q c with
  | false => rfl
  | true => exact absurd (hqp c hq) (by rw [h c tail heq]; decide)

theorem takeWhile_stops {p : Char → Bool} {rest : List Char} (h : Stops p rest) :
    rest.takeWhile p = [] := by
  cases rest with
  | nil => rfl
  | cons c tail => exact List.takeWhile_cons_of_neg (by rw [h c tail rfl]; decide)

theorem dropWhile_stops {p : Char → Bool} {rest : List Char} (h : Stops p rest) :
    rest.dropWhile p = rest := by
  cases rest with
  | nil => rfl
  | cons c tail => exact List.dropWhile_cons_of_neg (by rw [h c tail rfl]; decide)

/-- What a run leaves over does not go on with the run. -/
theorem stops_dropWhile (p : Char → Bool) (text : List Char) : Stops p (text.dropWhile p) := by
  intro c tail heq
  have h := List.head?_dropWhile_not p text
  rw [heq] at h
  exact h

theorem forall_mem_takeWhile (p : Char → Bool) (text : List Char) :
    ∀ c ∈ text.takeWhile p, p c = true :=
  List.all_eq_true.1 List.all_takeWhile

/-- The run at the front of a text does not depend on a rest that does not go
on with it. -/
theorem takeWhile_append_stops {p : Char → Bool} {rest : List Char} (h : Stops p rest)
    (text : List Char) : (text ++ rest).takeWhile p = text.takeWhile p := by
  induction text with
  | nil => exact takeWhile_stops h
  | cons c tail ih =>
    rw [List.cons_append, List.takeWhile_cons, List.takeWhile_cons, ih]

theorem dropWhile_append_stops {p : Char → Bool} {rest : List Char} (h : Stops p rest)
    (text : List Char) : (text ++ rest).dropWhile p = text.dropWhile p ++ rest := by
  induction text with
  | nil => exact dropWhile_stops h
  | cons c tail ih =>
    rw [List.cons_append, List.dropWhile_cons, List.dropWhile_cons, ih]
    split <;> rfl

/-- A whole run is taken. -/
theorem takeWhile_run {p : Char → Bool} {run rest : List Char} (hrun : ∀ c ∈ run, p c = true)
    (h : Stops p rest) : (run ++ rest).takeWhile p = run := by
  rw [List.takeWhile_append_of_pos hrun, takeWhile_stops h, List.append_nil]

theorem dropWhile_run {p : Char → Bool} {run rest : List Char} (hrun : ∀ c ∈ run, p c = true)
    (h : Stops p rest) : (run ++ rest).dropWhile p = rest := by
  rw [List.dropWhile_append_of_pos hrun, dropWhile_stops h]

/-- Where two runs of one class begin a text and end with it, they are the
same. -/
theorem run_unique {p : Char → Bool} {first second rest left : List Char}
    (hfirst : ∀ c ∈ first, p c = true) (hsecond : ∀ c ∈ second, p c = true)
    (hrest : Stops p rest) (hleft : Stops p left) (h : first ++ rest = second ++ left) :
    first = second := by
  rw [← takeWhile_run hfirst hrest, h, takeWhile_run hsecond hleft]

/-! ## Decimal digits. -/

theorem isDigit_of_mem_toDigits {n : Nat} : ∀ c ∈ Nat.toDigits 10 n, c.isDigit = true :=
  fun _ hc => Nat.isDigit_of_mem_toDigits (by decide) (by decide) hc

/-- The digits of a number other than zero do not begin with a zero. -/
theorem toDigits_head_ne_zero {n : Nat} (h : n ≠ 0) {c : Char} {rest : List Char}
    (hdigits : Nat.toDigits 10 n = c :: rest) : c ≠ '0' := by
  induction n using Nat.strongRecOn generalizing rest with
  | _ n ih =>
    by_cases hlt : n < 10
    · rw [Nat.toDigits_of_lt_base hlt] at hdigits
      obtain ⟨rfl, -⟩ := List.cons.inj hdigits
      have hall : ∀ d, d < 10 → d ≠ 0 → d.digitChar ≠ '0' := by decide
      exact hall n hlt h
    · have hle : 10 ≤ n := Nat.le_of_not_lt hlt
      have hquot : n / 10 ≠ 0 := by omega
      rw [Nat.toDigits_of_base_le (by decide) hle] at hdigits
      cases hrest : Nat.toDigits 10 (n / 10) with
      | nil => exact absurd hrest Nat.toDigits_ne_nil
      | cons d digits =>
        rw [hrest, List.cons_append] at hdigits
        obtain ⟨rfl, -⟩ := List.cons.inj hdigits
        exact ih (n / 10) (by omega) hquot hrest

end PropertyGraph.Text
