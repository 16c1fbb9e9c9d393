/-
Fixed-width big-endian numbers.

`fromBytesBig` reads a byte string as a base-256 numeral, most significant
byte first; `toBytesBig w` writes the low `w` bytes of a number.  Reading back
what was written gives the number modulo `256 ^ w`
(`fromBytesBig_toBytesBig`), hence the number itself when it fits; writing what
was read gives the bytes back (`toBytesBig_fromBytesBig`).
-/
import Mathlib.Tactic

namespace BigEndian

/-- The number a byte string spells. -/
def fromBytesBig (bs : List UInt8) : ℕ := bs.foldl (fun acc b => 256 * acc + b.toNat) 0

/-- The low `w` bytes of `n`. -/
def toBytesBig : ℕ → ℕ → List UInt8
  | 0, _ => []
  | w + 1, n => toBytesBig w (n / 256) ++ [UInt8.ofNat (n % 256)]

@[simp] theorem length_toBytesBig (w n : ℕ) : (toBytesBig w n).length = w := by
  induction w generalizing n with
  | zero => rfl
  | succ w ih => rw [toBytesBig, List.length_append, ih, List.length_singleton]

theorem fromBytesBig_concat (bs : List UInt8) (b : UInt8) :
    fromBytesBig (bs ++ [b]) = 256 * fromBytesBig bs + b.toNat := by
  rw [fromBytesBig, List.foldl_append]
  rfl

theorem fromBytesBig_toBytesBig (w n : ℕ) : fromBytesBig (toBytesBig w n) = n % 256 ^ w := by
  induction w generalizing n with
  | zero =>
    rw [Nat.pow_zero, Nat.mod_one]
    rfl
  | succ w ih =>
    have hbyte : (UInt8.ofNat (n % 256)).toNat = n % 256 := by simp
    rw [toBytesBig, fromBytesBig_concat, ih, hbyte, Nat.pow_succ', Nat.mod_mul]
    omega

/-- A number that fits its width is read back unchanged. -/
theorem fromBytesBig_toBytesBig_of_lt {w n : ℕ} (h : n < 256 ^ w) :
    fromBytesBig (toBytesBig w n) = n := by
  rw [fromBytesBig_toBytesBig, Nat.mod_eq_of_lt h]

/-- A byte string spells a number that fits its width. -/
theorem fromBytesBig_lt (bs : List UInt8) : fromBytesBig bs < 256 ^ bs.length := by
  induction bs using List.reverseRecOn with
  | nil => exact Nat.one_pos
  | append_singleton bs b ih =>
    have hb : b.toNat < 256 := b.toNat_lt
    rw [fromBytesBig_concat, List.length_append, List.length_singleton, Nat.pow_succ]
    omega

/-- Writing the number that was read gives the bytes back. -/
theorem toBytesBig_fromBytesBig (bs : List UInt8) :
    toBytesBig bs.length (fromBytesBig bs) = bs := by
  induction bs using List.reverseRecOn with
  | nil => rfl
  | append_singleton bs b ih =>
    have hb : b.toNat < 256 := b.toNat_lt
    have hdiv : (256 * fromBytesBig bs + b.toNat) / 256 = fromBytesBig bs := by omega
    have hmod : (256 * fromBytesBig bs + b.toNat) % 256 = b.toNat := by omega
    rw [List.length_append, List.length_singleton, fromBytesBig_concat, toBytesBig, hdiv, hmod,
      ih, UInt8.ofNat_toNat]

end BigEndian
