/-
The prime sieve of the synthetic workload (`run_prime_sieve`).

The bytes hold a one for each number that is not crossed out.  The integer
square root is exact.

* `flags` — the bytes that stand for a set of numbers;
* `sieveRound_flags` — a round of the outer loop;
* `runPrimeSieve_eq` — the result is the number of primes up to the limit, for
  every limit.
-/
import HpcTelemetry.Eratosthenes
import HpcTelemetry.PythonSequences
import Mathlib.Data.Int.Sqrt
import Mathlib.Data.Nat.Count
import Mathlib.Data.Set.Card

namespace Workload

open Eratosthenes PythonSequences

/-! ### The sieve -/

/-- The inner loop: cross out the multiples of `candidate`, from its square on. -/
def crossOut (limit candidate : ℤ) (isPrime : List UInt8) : Option (List UInt8) :=
  (range (candidate * candidate) (limit + 1) candidate).foldlM
    (fun isPrime multiple => setItem isPrime multiple 0) isPrime

/-- The body of the outer loop. -/
def sieveRound (limit : ℤ) (isPrime : List UInt8) (candidate : ℤ) : Option (List UInt8) := do
  let flag ← getItem isPrime candidate
  if flag ≠ 0 then crossOut limit candidate isPrime else return isPrime

/-- `run_prime_sieve`. -/
def runPrimeSieve (limit : ℤ) : Option ℕ :=
  if limit < 2 then some 0
  else do
    let isPrime := List.replicate (limit + 1).toNat (1 : UInt8)
    let isPrime ← setItem isPrime 0 0
    let isPrime ← setItem isPrime 1 0
    let isPrime ← (range 2 (Int.sqrt limit + 1) 1).foldlM (sieveRound limit) isPrime
    return (isPrime.map UInt8.toNat).sum

/-! ### Bytes as sets of numbers -/

open Classical in
/-- The byte of the number `m`. -/
noncomputable def flag (P : ℕ → Prop) (m : ℕ) : UInt8 := if P m then 1 else 0

/-- A one for each number up to `n` with the property, and a zero for the
others. -/
noncomputable def flags (n : ℕ) (P : ℕ → Prop) : List UInt8 := (List.range (n + 1)).map (flag P)

variable {n : ℕ} {P Q : ℕ → Prop} {m : ℕ}

theorem flag_pos (h : P m) : flag P m = 1 := if_pos h

theorem flag_neg (h : ¬ P m) : flag P m = 0 := if_neg h

theorem flag_ne_zero : flag P m ≠ 0 ↔ P m := by
  by_cases h : P m
  · simp [flag_pos h, h]
  · simp [flag_neg h, h]

theorem flag_congr (h : P m ↔ Q m) : flag P m = flag Q m := by
  by_cases hP : P m
  · rw [flag_pos hP, flag_pos (h.mp hP)]
  · rw [flag_neg hP, flag_neg fun hQ => hP (h.mpr hQ)]

@[simp] theorem length_flags : (flags n P).length = n + 1 := by
  rw [flags, List.length_map, List.length_range]

@[simp] theorem getElem_flags (h : m < (flags n P).length) : (flags n P)[m] = flag P m := by
  simp only [flags, List.getElem_map, List.getElem_range]

theorem flags_congr (h : ∀ m ≤ n, P m ↔ Q m) : flags n P = flags n Q :=
  List.map_congr_left fun m hm => flag_congr (h m (Nat.lt_succ_iff.mp (List.mem_range.mp hm)))

theorem flags_true : List.replicate (n + 1) 1 = flags n fun _ => True := by
  refine List.ext_getElem (by simp) fun m _ _ => ?_
  rw [List.getElem_replicate, getElem_flags, flag_pos trivial]

theorem getItem_flags (hm : m ≤ n) : getItem (flags n P) m = some (flag P m) := by
  have hlt : m < (flags n P).length := by
    rw [length_flags]
    omega
  rw [getItem_natCast hlt, getElem_flags]

/-- Crossing out one number. -/
theorem setItem_flags (hm : m ≤ n) :
    setItem (flags n P) m 0 = some (flags n fun k => P k ∧ k ≠ m) := by
  rw [setItem_natCast (by rw [length_flags]; omega), Option.some_inj]
  refine List.ext_getElem (by simp) fun k hk _ => ?_
  rw [List.getElem_set, getElem_flags, getElem_flags]
  by_cases hkm : m = k
  · rw [if_pos hkm, flag_neg fun h => h.2 hkm.symm]
  · rw [if_neg hkm]
    exact flag_congr ⟨fun h => ⟨h, Ne.symm hkm⟩, fun h => h.1⟩

/-- Crossing out numbers one by one. -/
theorem foldlM_setItem_flags (multiples : List ℤ) (P : ℕ → Prop)
    (h : ∀ m ∈ multiples, 0 ≤ m ∧ m ≤ n) :
    multiples.foldlM (fun isPrime multiple => setItem isPrime multiple 0) (flags n P)
      = some (flags n fun m => P m ∧ (m : ℤ) ∉ multiples) := by
  induction multiples generalizing P with
  | nil =>
    rw [List.foldlM_nil]
    exact congrArg some (flags_congr fun m _ => by simp)
  | cons multiple multiples ih =>
    obtain ⟨hnonneg, hle⟩ := h multiple List.mem_cons_self
    obtain ⟨m, rfl⟩ := Int.eq_ofNat_of_zero_le hnonneg
    rw [List.foldlM_cons, setItem_flags (by omega)]
    refine (ih _ fun k hk => h k (List.mem_cons_of_mem _ hk)).trans ?_
    refine congrArg some (flags_congr fun k _ => ?_)
    rw [List.mem_cons, not_or, Nat.cast_inj, and_assoc]

/-- The sum of the bytes counts the set. -/
theorem sum_flags [DecidablePred P] :
    ((flags n P).map UInt8.toNat).sum = Nat.count P (n + 1) := by
  rw [flags, List.map_map]
  induction n + 1 with
  | zero => rfl
  | succ k ih =>
    rw [List.range_succ, List.map_append, List.sum_append, ih, Nat.count_succ]
    by_cases hP : P k
    · simp [hP, flag_pos hP]
    · simp [hP, flag_neg hP]

/-! ### The loops -/

/-- The inner loop stays in range. -/
theorem crossOut_flags {c : ℕ} (hc : 2 ≤ c) :
    crossOut n c (flags n P) = some (flags n fun m => P m ∧ ¬ (c * c ≤ m ∧ c ∣ m)) := by
  have hmem : ∀ x : ℤ, x ∈ range (c * c) (n + 1) c ↔ (c * c : ℤ) ≤ x ∧ x ≤ n ∧ (c : ℤ) ∣ x := by
    intro x
    rw [mem_range (by omega), dvd_sub_left (Dvd.intro _ rfl), Int.lt_add_one_iff]
  rw [crossOut, foldlM_setItem_flags]
  · refine congrArg some (flags_congr fun m hm => ?_)
    rw [hmem, ← Nat.cast_mul, Nat.cast_le, Nat.cast_le, Int.natCast_dvd_natCast]
    simp only [hm, true_and]
  · intro x hx
    obtain ⟨hsq, hle, _⟩ := (hmem x).mp hx
    have hnonneg : (0 : ℤ) ≤ c * c := by positivity
    exact ⟨by omega, hle⟩

/-- A round of the outer loop: from what survives the rounds below `c` to what
survives the round of `c` as well. -/
theorem sieveRound_flags {c : ℕ} (hc : 2 ≤ c) (hcn : c ≤ n) :
    sieveRound n (flags n (Survives c)) c = some (flags n (Survives (c + 1))) := by
  rw [sieveRound, getItem_flags hcn, Option.bind_eq_bind, Option.bind_some]
  by_cases hself : Survives c c
  · rw [if_pos (flag_ne_zero.mpr hself), crossOut_flags hc]
    refine congrArg some (flags_congr fun m _ => ?_)
    rw [survives_succ hc]
    simp only [hself, true_and]
  · rw [if_neg fun h => hself (flag_ne_zero.mp h)]
    refine congrArg some (flags_congr fun m _ => ?_)
    rw [survives_succ hc]
    simp only [hself, false_and, not_false_eq_true, and_true]

/-- The array before the loops. -/
theorem init_flags (hn : 2 ≤ n) :
    (setItem (List.replicate ((n : ℤ) + 1).toNat 1) 0 0).bind (fun isPrime => setItem isPrime 1 0)
      = some (flags n (Survives 2)) := by
  have hlength : ((n : ℤ) + 1).toNat = n + 1 := by omega
  have hzero := @setItem_flags n (fun _ => True) 0 (by omega)
  have hone := @setItem_flags n (fun k => True ∧ k ≠ 0) 1 (by omega)
  rw [Nat.cast_zero] at hzero
  rw [Nat.cast_one] at hone
  rw [hlength, flags_true, hzero, Option.bind_some, hone]
  refine congrArg some (flags_congr fun m _ => ?_)
  rw [survives_two, true_and]
  omega

theorem count_eq_ncard (n : ℕ) :
    Nat.count Nat.Prime (n + 1) = {p : ℕ | p.Prime ∧ 2 ≤ p ∧ (p : ℤ) ≤ n}.ncard := by
  have hset : {p : ℕ | p.Prime ∧ 2 ≤ p ∧ (p : ℤ) ≤ n}
      = ((Finset.range (n + 1)).filter Nat.Prime : Finset ℕ) := by
    ext p
    simp only [Set.mem_ofPred_eq, Finset.coe_filter, Finset.mem_range]
    constructor
    · rintro ⟨hp, _, hle⟩
      exact ⟨by omega, hp⟩
    · rintro ⟨hlt, hp⟩
      exact ⟨hp, hp.two_le, by omega⟩
  rw [hset, Set.ncard_coe_finset, Nat.count_eq_card_filter_range]

/-- The indices that the loops may use. -/
def loopIndices (limit : ℤ) : List ℤ :=
  (range 2 (Int.sqrt limit + 1) 1).flatMap fun candidate =>
    candidate :: range (candidate * candidate) (limit + 1) candidate

/-- None of them counts from the end of the bytes. -/
theorem loopIndices_bounded (limit : ℤ) : ∀ i ∈ loopIndices limit, 0 ≤ i ∧ i ≤ limit := by
  intro i hi
  obtain ⟨candidate, hcandidate, hi⟩ := List.mem_flatMap.mp hi
  obtain ⟨htwo, hsqrt, _⟩ := (mem_range one_pos).mp hcandidate
  rcases List.mem_cons.mp hi with rfl | hmultiple
  · have hle : Nat.sqrt limit.toNat ≤ limit.toNat := Nat.sqrt_le_self _
    rw [Int.sqrt] at hsqrt
    omega
  · obtain ⟨hsq, hlt, _⟩ := (mem_range (by omega)).mp hmultiple
    have hnonneg : 0 ≤ candidate * candidate := mul_self_nonneg candidate
    omega

/-- With a limit of at least two the bytes after the loops are the primes. -/
theorem sieve_loop (hn : 2 ≤ n) :
    (range 2 (Int.sqrt n + 1) 1).foldlM (sieveRound n) (flags n (Survives 2))
      = some (flags n Nat.Prime) := by
  have hsqrt : 1 ≤ Nat.sqrt n := Nat.sqrt_pos.mpr (by omega)
  have hloop := @foldlM_range _ (sieveRound n) (fun c => flags n (Survives c)) 2 (Nat.sqrt n + 1)
    (by omega) fun c hc hlt =>
      sieveRound_flags hc ((Nat.lt_succ_iff.mp hlt).trans (Nat.sqrt_le_self n))
  rw [Nat.cast_ofNat, Nat.cast_add, Nat.cast_one] at hloop
  rw [Int.sqrt, Int.toNat_natCast, hloop]
  exact congrArg some (flags_congr fun m hm => survives_sqrt hm)

/-- The sieve counts the primes up to its limit, and every index it uses is in
range. -/
theorem runPrimeSieve_eq (limit : ℤ) :
    runPrimeSieve limit = some {p : ℕ | p.Prime ∧ 2 ≤ p ∧ (p : ℤ) ≤ limit}.ncard ∧
      ∀ i ∈ loopIndices limit, 0 ≤ i ∧ i ≤ limit := by
  refine ⟨?_, loopIndices_bounded limit⟩
  rw [runPrimeSieve]
  split_ifs with hlimit
  · have hempty : {p : ℕ | p.Prime ∧ 2 ≤ p ∧ (p : ℤ) ≤ limit} = ∅ := by
      refine Set.eq_empty_of_forall_notMem fun p hp => ?_
      obtain ⟨_, htwo, hle⟩ := hp
      omega
    rw [hempty, Set.ncard_empty]
  · obtain ⟨n, rfl⟩ := Int.eq_ofNat_of_zero_le (show 0 ≤ limit by omega)
    have hn : 2 ≤ n := by omega
    obtain ⟨isPrime, hzero, hone⟩ := Option.bind_eq_some_iff.mp (init_flags hn)
    simp only [Option.bind_eq_bind, Option.pure_def]
    rw [hzero, Option.bind_some, hone, Option.bind_some, sieve_loop hn, Option.bind_some,
      sum_flags, count_eq_ncard]

end Workload
