/-
The sieve of Eratosthenes.

Round after round, the multiples of the next prime are crossed out.  What
survives the rounds below `c` are the numbers without a prime factor below `c`
other than themselves.

* `survives_succ` — one round, which may start at the square of `c`;
* `survives_sqrt` — the rounds up to the square root leave the primes.
-/
import Mathlib.Data.Nat.Prime.Basic
import Mathlib.Tactic

namespace Eratosthenes

/-- The number `m` is left after the rounds of all primes below `c`. -/
def Survives (c m : ℕ) : Prop := 2 ≤ m ∧ ∀ p, p.Prime → p < c → p ∣ m → p = m

variable {c m : ℕ}

/-- There is no round below two. -/
theorem survives_two : Survives 2 m ↔ 2 ≤ m := by
  constructor
  · exact fun h => h.1
  · intro hm
    refine ⟨hm, fun p hp hlt => ?_⟩
    have htwo := hp.two_le
    omega

/-- A round finds its own number uncrossed exactly if it is prime. -/
theorem survives_self : Survives c c ↔ c.Prime := by
  constructor
  · rintro ⟨hc, hfactor⟩
    have hmin := Nat.minFac_prime (show c ≠ 1 by omega)
    rcases (Nat.minFac_le (show 0 < c by omega)).lt_or_eq with hlt | heq
    · exact absurd (hfactor _ hmin hlt (Nat.minFac_dvd c)) hlt.ne
    · rwa [heq] at hmin
  · intro hc
    refine ⟨hc.two_le, fun p hp _ hdvd => ?_⟩
    exact (Nat.prime_dvd_prime_iff_eq hp hc).mp hdvd

/-- What is left of the multiples of `c`, other than `c`, is not below its
square. -/
theorem Survives.sq_le (h : Survives c m) (hdvd : c ∣ m) (hne : c ≠ m) : c * c ≤ m := by
  obtain ⟨k, rfl⟩ := hdvd
  have hpos : 0 < c * k := by
    have := h.1
    omega
  have hk : k ≠ 1 := by
    rintro rfl
    exact hne (mul_one c).symm
  by_contra hlt
  -- the least prime factor of the other factor would have been crossed out
  have hkc : k < c := by
    by_contra hle
    exact hlt (Nat.mul_le_mul_left c (not_lt.mp hle))
  have hfac := Nat.minFac_le (Nat.pos_of_mul_pos_left hpos)
  have heq := h.2 k.minFac (Nat.minFac_prime hk) (by omega)
    ((Nat.minFac_dvd k).trans (Nat.dvd_mul_left k c))
  have hck : k * 2 ≤ c * k := by
    rw [mul_comm c k]
    exact Nat.mul_le_mul_left k (by have := Nat.minFac_prime hk; have := this.two_le; omega)
  have hkpos := Nat.pos_of_mul_pos_left hpos
  omega

/-- The round of `c`. -/
theorem survives_succ (hc : 2 ≤ c) :
    Survives (c + 1) m ↔ Survives c m ∧ ¬ (Survives c c ∧ c * c ≤ m ∧ c ∣ m) := by
  rw [survives_self]
  constructor
  · rintro ⟨hm, hfactor⟩
    refine ⟨⟨hm, fun p hp hlt => hfactor p hp (by omega)⟩, ?_⟩
    rintro ⟨hprime, hsq, hdvd⟩
    have heq := hfactor c hprime (by omega) hdvd
    have hmul := Nat.mul_le_mul_left c hc
    omega
  · rintro ⟨h, hround⟩
    refine ⟨h.1, fun p hp hlt hdvd => ?_⟩
    rcases (Nat.lt_succ_iff.mp hlt).lt_or_eq with hpc | rfl
    · exact h.2 p hp hpc hdvd
    · by_contra hne
      exact hround ⟨hp, h.sq_le hdvd hne, hdvd⟩

/-- A number that is not prime has a prime factor up to its square root. -/
theorem survives_sqrt {n : ℕ} (hm : m ≤ n) : Survives (Nat.sqrt n + 1) m ↔ m.Prime := by
  constructor
  · rintro ⟨htwo, hfactor⟩
    by_contra hprime
    have hmin := Nat.minFac_prime (show m ≠ 1 by omega)
    have hsq : m.minFac ^ 2 ≤ m := Nat.minFac_sq_le_self (by omega) hprime
    have hsqrt : m.minFac ≤ Nat.sqrt n := Nat.le_sqrt'.mpr (hsq.trans hm)
    have heq := hfactor _ hmin (by omega) (Nat.minFac_dvd m)
    rw [heq] at hmin
    exact hprime hmin
  · intro hprime
    refine ⟨hprime.two_le, fun p hp _ hdvd => ?_⟩
    exact (Nat.prime_dvd_prime_iff_eq hp hprime).mp hdvd

end Eratosthenes
