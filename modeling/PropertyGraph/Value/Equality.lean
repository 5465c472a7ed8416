/-
  PropertyGraph.Value.Equality
  ────────────────────────────
  **TWO EQUALITIES OF PROPERTY VALUES.**

  `Value.alike` is the equality of patterns and conditions: numbers are
  compared as numbers, an integer with a float by the float nearest to it,
  and everything else by its parts.  `Value.equals` is the stricter
  equality that also tells integers from floats.  Both treat floats as
  numbers, so `0.0` equals `-0.0`, and a NaN equals nothing.

  Maps are compared entry by entry, which for maps in key order is to have
  the same keys with equal values.
-/
import PropertyGraph.Value.Basic

namespace PropertyGraph.Value

mutual

/-- Equality of patterns and conditions. -/
def alike : Value → Value → Bool
  | .int i, .float x => (Binary64.ofInt i.toInt).sameNumber x
  | .float x, .int i => (Binary64.ofInt i.toInt).sameNumber x
  | .null, .null => true
  | .bool a, .bool b => a == b
  | .int i, .int j => i == j
  | .float x, .float y => x.sameNumber y
  | .str s, .str t => s == t
  | .list xs, .list ys => alikeItems xs ys
  | .map xs, .map ys => alikeEntries xs ys
  | _, _ => false

/-- Lists are alike item by item. -/
def alikeItems : List Value → List Value → Bool
  | [], [] => true
  | x :: xs, y :: ys => x.alike y && alikeItems xs ys
  | _, _ => false

/-- Maps are alike entry by entry. -/
def alikeEntries : List (String × Value) → List (String × Value) → Bool
  | [], [] => true
  | (k, x) :: xs, (l, y) :: ys => k == l && x.alike y && alikeEntries xs ys
  | _, _ => false

end

mutual

/-- Equality that tells integers from floats. -/
def equals : Value → Value → Bool
  | .null, .null => true
  | .bool a, .bool b => a == b
  | .int i, .int j => i == j
  | .float x, .float y => x.sameNumber y
  | .str s, .str t => s == t
  | .list xs, .list ys => equalsItems xs ys
  | .map xs, .map ys => equalsEntries xs ys
  | _, _ => false

/-- Lists are equal item by item. -/
def equalsItems : List Value → List Value → Bool
  | [], [] => true
  | x :: xs, y :: ys => x.equals y && equalsItems xs ys
  | _, _ => false

/-- Maps are equal entry by entry. -/
def equalsEntries : List (String × Value) → List (String × Value) → Bool
  | [], [] => true
  | (k, x) :: xs, (l, y) :: ys => k == l && x.equals y && equalsEntries xs ys
  | _, _ => false

end

end PropertyGraph.Value
