/-
Arithmetic on doubles.

Sums, differences, quotients and comparisons, with the rules for the special
values, and exact on finite numbers: there is no rounding, no overflow and one
zero.

* `sum_map_finite` — sums of finite numbers are exact;
* `sum_eq_nan` — which sums are NaN.
-/
import HpcTelemetry.Wire

namespace Double

def neg : Double → Double
  | finite a => finite (-a)
  | posInf => negInf
  | negInf => posInf
  | nan => nan

def add : Double → Double → Double
  | finite a, finite b => finite (a + b)
  | nan, _ => nan
  | _, nan => nan
  | posInf, negInf => nan
  | negInf, posInf => nan
  | posInf, _ => posInf
  | _, posInf => posInf
  | negInf, _ => negInf
  | _, negInf => negInf

def sub (x y : Double) : Double := x.add y.neg

def abs : Double → Double
  | finite a => finite |a|
  | posInf => posInf
  | negInf => posInf
  | nan => nan

/-- A quotient by anything but zero, for which Python raises. -/
def div : Double → Double → Double
  | finite a, finite b => finite (a / b)
  | finite _, posInf => finite 0
  | finite _, negInf => finite 0
  | posInf, finite b => if 0 < b then posInf else negInf
  | negInf, finite b => if 0 < b then negInf else posInf
  | _, _ => nan

/-- `x < y`; nothing is above or below NaN. -/
def lt : Double → Double → Bool
  | finite a, finite b => a < b
  | finite _, posInf => true
  | negInf, finite _ => true
  | negInf, posInf => true
  | _, _ => false

/-- `sum`, and SQLite's `SUM`. -/
def sum (xs : List Double) : Double := xs.foldl add (finite 0)

theorem lt_asymm {x y : Double} (h : x.lt y = true) : y.lt x = false := by
  cases x <;> cases y <;> simp_all [lt, le_of_lt]

theorem sum_map_finite (xs : List ℚ) : sum (xs.map finite) = finite xs.sum := by
  have key : ∀ (xs : List ℚ) (acc : ℚ),
      (xs.map finite).foldl add (finite acc) = finite (acc + xs.sum) := by
    intro xs
    induction xs with
    | nil =>
      intro acc
      rw [List.sum_nil, add_zero]
      rfl
    | cons x xs ih =>
      intro acc
      rw [List.map_cons, List.foldl_cons, add, ih, List.sum_cons, add_assoc]
  rw [sum, key, zero_add]

/-! ### Infinities -/

/-- A sum of numbers and infinities is NaN if it has infinities of both signs. -/
theorem sum_eq_nan {xs : List Double} (h : nan ∉ xs) :
    sum xs = nan ↔ posInf ∈ xs ∧ negInf ∈ xs := by
  have key : ∀ (xs : List Double) (acc : Double), nan ∉ xs →
      (xs.foldl add acc = nan ↔ acc = nan ∨ (posInf ∈ acc :: xs ∧ negInf ∈ acc :: xs)) := by
    intro xs
    induction xs with
    | nil =>
      intro acc _
      cases acc <;> simp
    | cons x xs ih =>
      intro acc hxs
      rw [List.mem_cons, not_or] at hxs
      obtain ⟨hx, hxs⟩ := hxs
      rw [List.foldl_cons, ih _ hxs]
      cases acc <;> cases x <;> simp_all [add]
  rw [sum, key xs _ h]
  simp

theorem div_finite_eq_nan {x : Double} {b : ℚ} : x.div (finite b) = nan ↔ x = nan := by
  cases x with
  | finite a => simp [div]
  | posInf =>
    rw [div]
    split_ifs
    · simp
    · simp
  | negInf =>
    rw [div]
    split_ifs
    · simp
    · simp
  | nan => simp [div]

end Double
