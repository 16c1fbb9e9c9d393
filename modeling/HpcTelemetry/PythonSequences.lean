/-
Sequences of Python.

An index from the end is negative, and an index outside of the sequence raises
an exception, here `none`.

* `getItem`, `setItem` — `xs[i]` and `xs[i] = v`;
* `range` — the numbers of a `range` that counts up;
* `foldlM_range` — a loop over a range that takes each state to the next one.
-/
import Mathlib.Data.List.Basic
import Mathlib.Tactic

namespace PythonSequences

variable {α : Type*}

/-- The position in a sequence of `n` items that the index `i` stands for. -/
def position (n : ℕ) (i : ℤ) : Option ℕ :=
  if 0 ≤ i then if i < n then some i.toNat else none
  else if -n ≤ i then some (n + i).toNat else none

def getItem (xs : List α) (i : ℤ) : Option α := (position xs.length i).bind fun k => xs[k]?

def setItem (xs : List α) (i : ℤ) (v : α) : Option (List α) :=
  (position xs.length i).map fun k => xs.set k v

/-- `range(start, stop, step)` with a positive step. -/
def range (start stop step : ℤ) : List ℤ :=
  (List.range ((stop - start + step - 1) / step).toNat).map fun k : ℕ => start + step * k

/-! ### Items -/

theorem position_natCast {n i : ℕ} (h : i < n) : position n i = some i := by
  rw [position, if_pos (by omega), if_pos (by omega), Int.toNat_natCast]

theorem getItem_natCast {xs : List α} {i : ℕ} (h : i < xs.length) :
    getItem xs i = some xs[i] := by
  rw [getItem, position_natCast h, Option.bind_some, List.getElem?_eq_getElem h]

theorem setItem_natCast {xs : List α} {i : ℕ} (h : i < xs.length) (v : α) :
    setItem xs i v = some (xs.set i v) := by
  rw [setItem, position_natCast h, Option.map_some]

/-! ### Ranges -/

theorem mem_range {start stop step x : ℤ} (h : 0 < step) :
    x ∈ range start stop step ↔ start ≤ x ∧ x < stop ∧ step ∣ x - start := by
  rw [range, List.mem_map]
  constructor
  · rintro ⟨k, hk, rfl⟩
    rw [List.mem_range, Int.lt_toNat] at hk
    have hlt : step * k < stop - start := by
      have hle := (Int.le_ediv_iff_mul_le h).mp (Int.add_one_le_of_lt hk)
      linarith
    have hnonneg : 0 ≤ step * k := by positivity
    exact ⟨by omega, by omega, ⟨k, by ring⟩⟩
  · rintro ⟨hstart, hstop, k, hk⟩
    have hnonneg : 0 ≤ k := by
      by_contra hneg
      have := mul_neg_of_pos_of_neg h (not_le.mp hneg)
      omega
    obtain ⟨k, rfl⟩ := Int.eq_ofNat_of_zero_le hnonneg
    refine ⟨k, ?_, by linarith⟩
    rw [List.mem_range, Int.lt_toNat]
    refine Int.lt_of_add_one_le ((Int.le_ediv_iff_mul_le h).mpr ?_)
    linarith

theorem range_one (a n : ℕ) : range a (a + n) 1 = (List.range' a n).map Nat.cast := by
  have hlength : (((a : ℤ) + n - a + 1 - 1) / 1).toNat = n := by
    rw [Int.ediv_one]
    omega
  rw [range, hlength, List.range'_eq_map_range, List.map_map]
  refine List.map_congr_left fun k _ => ?_
  simp

section Loop

variable {σ : Type*} {f : σ → ℤ → Option σ}

theorem foldlM_range' (I : ℕ → σ) (a n : ℕ)
    (hI : ∀ i, a ≤ i → i < a + n → f (I i) i = some (I (i + 1))) :
    (List.range' a n).foldlM (fun s (i : ℕ) => f s i) (I a) = some (I (a + n)) := by
  induction n generalizing a with
  | zero => rfl
  | succ n ih =>
    rw [List.range'_succ, List.foldlM_cons, hI a le_rfl (by omega)]
    have hrest := ih (a + 1) fun i hle hlt => hI i (by omega) (by omega)
    rw [show a + 1 + n = a + (n + 1) by omega] at hrest
    exact hrest

/-- A loop over consecutive numbers. -/
theorem foldlM_range (I : ℕ → σ) {a b : ℕ} (hab : a ≤ b)
    (hI : ∀ i, a ≤ i → i < b → f (I i) i = some (I (i + 1))) :
    (range a b 1).foldlM f (I a) = some (I b) := by
  obtain ⟨n, rfl⟩ := Nat.exists_eq_add_of_le hab
  rw [Nat.cast_add, range_one, List.foldlM_map]
  exact foldlM_range' I a n hI

end Loop

end PythonSequences
