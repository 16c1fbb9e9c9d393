/-
Sorted lists and order statistics.

* `filter_insertionSort` — filtering a sorted list is sorting the filtered one;
* `insertionSort_eq_of_mem_iff` — sorted by a key that tells its members apart,
  a set has one order;
* `filter_eq_takeWhile` — what holds of the first items only holds of a prefix;
* `filter_take_of_pairwise` — a window onto a sorted list that is cut off;
* `median` — the middle of the sorted data, or the mean of the two middle
  values;
* `firstBest` — the scan for a best item that keeps the first of equals;
* `firstBest_split` — by a key it finds the first of the greatest items.
-/
import Mathlib.Data.List.Sort
import Mathlib.Tactic

namespace OrderStatistics

/-! ### Sorting and filtering -/

section Sorting

variable {α : Type*} {r : α → α → Prop} [DecidableRel r]

theorem filter_orderedInsert [IsTrans α r] (p : α → Bool) (a : α) {l : List α}
    (hl : l.Pairwise r) :
    (l.orderedInsert r a).filter p
      = if p a then (l.filter p).orderedInsert r a else l.filter p := by
  induction l with
  | nil =>
    rw [List.orderedInsert_nil, List.filter_cons]
    rfl
  | cons b l ih =>
    obtain ⟨hb, hl⟩ := List.pairwise_cons.mp hl
    rw [List.orderedInsert_cons]
    by_cases hab : r a b
    · rw [if_pos hab, List.filter_cons]
      split_ifs
      · -- everything behind `b` is above `a`, so `a` stays in front
        cases hf : (b :: l).filter p with
        | nil => rfl
        | cons c m =>
          have hc : c ∈ b :: l := (List.mem_filter.mp (hf ▸ List.mem_cons_self : c ∈ _)).1
          have hac : r a c := by
            rcases List.mem_cons.mp hc with rfl | hc
            · exact hab
            · exact trans_of r hab (hb c hc)
          rw [List.orderedInsert_cons_of_le r m hac]
      · rfl
    · rw [if_neg hab, List.filter_cons, ih hl, List.filter_cons]
      split_ifs with hpb hpa
      · rw [List.orderedInsert_of_not_le r _ hab]
      · rfl
      · rfl
      · rfl

theorem filter_insertionSort [Std.Total r] [IsTrans α r] (p : α → Bool) (l : List α) :
    (l.insertionSort r).filter p = (l.filter p).insertionSort r := by
  induction l with
  | nil => rfl
  | cons a l ih =>
    rw [List.insertionSort_cons, filter_orderedInsert p a (List.pairwise_insertionSort r l), ih,
      List.filter_cons]
    split_ifs
    · rfl
    · rfl

end Sorting

/-- Two lists of the same members, each told apart by its key, are sorted into
the same list. -/
theorem insertionSort_eq_of_mem_iff {α κ : Type*} [LinearOrder κ] {key : α → κ} {l l' : List α}
    (hl : (l.map key).Nodup) (hl' : (l'.map key).Nodup) (h : ∀ x, x ∈ l ↔ x ∈ l') :
    l.insertionSort (fun a b => key a ≤ key b) = l'.insertionSort fun a b => key a ≤ key b := by
  have htotal : Std.Total fun a b : α => key a ≤ key b := ⟨fun a b => le_total (key a) (key b)⟩
  have htrans : IsTrans α fun a b => key a ≤ key b := ⟨fun _ _ _ => le_trans⟩
  have hperm : l.Perm l' :=
    (List.perm_ext_iff_of_nodup (List.Nodup.of_map key hl) (List.Nodup.of_map key hl')).mpr h
  refine List.Perm.eq_of_pairwise ?_ (List.pairwise_insertionSort _ l)
    (List.pairwise_insertionSort _ l')
    ((List.perm_insertionSort _ l).trans (hperm.trans (List.perm_insertionSort _ l').symm))
  intro a b ha hb hab hba
  have hal : a ∈ l := (List.mem_insertionSort _).mp ha
  have hbl : b ∈ l := (h b).mpr ((List.mem_insertionSort _).mp hb)
  exact List.inj_on_of_nodup_map hl hal hbl (le_antisymm hab hba)

/-- A property that passes from an item to those before it holds of a prefix. -/
theorem filter_eq_takeWhile {α : Type*} {r : α → α → Prop} {p : α → Bool} {l : List α}
    (hl : l.Pairwise r) (hp : ∀ a b, r a b → p b → p a) : l.filter p = l.takeWhile p := by
  induction l with
  | nil => rfl
  | cons a l ih =>
    obtain ⟨ha, hl⟩ := List.pairwise_cons.mp hl
    by_cases hpa : p a = true
    · rw [List.filter_cons_of_pos hpa, List.takeWhile_cons_of_pos hpa, ih hl]
    · rw [List.takeWhile_cons_of_neg hpa, List.filter_eq_nil_iff]
      intro b hb hpb
      rcases List.mem_cons.mp hb with rfl | hb
      · exact hpa hpb
      · exact hpa (hp a b (ha b hb) hpb)

/-- A list in the order of `r` is cut off after `k` items.  Seen through a window
the cut is after `k` less the items that come before the window. -/
theorem filter_take_of_pairwise {α : Type*} {r : α → α → Prop} {before window : α → Bool}
    {l : List α} (hl : l.Pairwise r) (hbefore : ∀ a b, r a b → before b → before a)
    (hwindow : ∀ a b, r a b → window b → before a ∨ window a)
    (hdisjoint : ∀ a, before a → window a = false) (k : ℕ) :
    (l.take k).filter window = (l.filter window).take (k - (l.filter before).length) := by
  induction l generalizing k with
  | nil => simp
  | cons a l ih =>
    obtain ⟨ha, hl⟩ := List.pairwise_cons.mp hl
    cases k with
    | zero => simp
    | succ k =>
      rw [List.take_succ_cons]
      by_cases hab : before a = true
      · have hout : ¬ window a = true := by
          rw [hdisjoint a hab]
          exact Bool.false_ne_true
        rw [List.filter_cons_of_neg hout, List.filter_cons_of_neg hout,
          List.filter_cons_of_pos hab, List.length_cons, Nat.add_sub_add_right, ih hl]
      · -- nothing behind `a` comes before the window either
        have hnone : l.filter before = [] :=
          List.filter_eq_nil_iff.mpr fun b hb hbb => hab (hbefore a b (ha b hb) hbb)
        have ih := ih hl k
        rw [hnone, List.length_nil, Nat.sub_zero] at ih
        rw [List.filter_cons_of_neg hab, hnone, List.length_nil, Nat.sub_zero]
        by_cases hwa : window a = true
        · rw [List.filter_cons_of_pos hwa, List.filter_cons_of_pos hwa, List.take_succ_cons, ih]
        · have hpast : l.filter window = [] :=
            List.filter_eq_nil_iff.mpr fun b hb hwb =>
              (hwindow a b (ha b hb) hwb).elim hab hwa
          rw [List.filter_cons_of_neg hwa, List.filter_cons_of_neg hwa, ih, hpast,
            List.take_nil, List.take_nil]

/-- Two cuts of a list agree if what the longer one leaves fits into the shorter one. -/
theorem take_eq_take_of_min_le {α : Type*} {l : List α} {m n : ℕ} (hnm : n ≤ m)
    (h : min l.length m ≤ n) : l.take n = l.take m := by
  rcases le_total m l.length with hm | hm
  · rw [min_eq_right hm] at h
    rw [le_antisymm hnm h]
  · rw [min_eq_left hm] at h
    rw [List.take_of_length_le h, List.take_of_length_le hm]

/-! ### The median -/

/-- The sample median.  Of no data it is zero, which nothing should rely on. -/
def median {K : Type*} [Field K] [LinearOrder K] (data : List K) : K :=
  let sorted := data.insertionSort (· ≤ ·)
  let n := sorted.length
  if n % 2 = 1 then sorted.getD (n / 2) 0
  else (sorted.getD (n / 2 - 1) 0 + sorted.getD (n / 2) 0) / 2

/-! ### The best item -/

/-- The item a scan is left with that changes its mind for a better one only. -/
def firstBest {α : Type*} (better : α → α → Bool) : List α → Option α
  | [] => none
  | first :: others =>
    some (others.foldl (fun best item => if better item best then item else best) first)

theorem exists_firstBest {α : Type*} {better : α → α → Bool} {l : List α} (h : l ≠ []) :
    ∃ x, firstBest better l = some x := by
  cases l with
  | nil => exact absurd rfl h
  | cons first others => exact ⟨_, rfl⟩

theorem mem_of_firstBest {α : Type*} {better : α → α → Bool} {l : List α} {x : α}
    (h : firstBest better l = some x) : x ∈ l := by
  cases l with
  | nil => cases h
  | cons first others =>
    injection h with h
    subst h
    induction others generalizing first with
    | nil => exact List.mem_singleton_self _
    | cons y others ih =>
      rw [List.foldl_cons]
      rcases List.mem_cons.mp (ih (if better y first then y else first)) with hx | hx
      · rw [hx]
        split_ifs
        · exact List.mem_cons_of_mem _ List.mem_cons_self
        · exact List.mem_cons_self
      · exact List.mem_cons_of_mem _ (List.mem_cons_of_mem _ hx)

/-- An item that is better than all others. -/
theorem firstBest_eq_of_forall {α : Type*} {better : α → α → Bool} {l : List α} {x : α}
    (hx : x ∈ l) (h : ∀ y ∈ l, y ≠ x → better x y = true ∧ better y x = false) :
    firstBest better l = some x := by
  cases l with
  | nil => cases hx
  | cons first others =>
    rw [firstBest, Option.some_inj]
    induction others generalizing first with
    | nil => exact (List.mem_singleton.mp hx).symm
    | cons y others ih =>
      rw [List.foldl_cons]
      have hnext : (if better y first then y else first) ∈ first :: y :: others := by
        split_ifs
        · exact List.mem_cons_of_mem _ List.mem_cons_self
        · exact List.mem_cons_self
      refine ih _ ?_ fun z hz hne => h z ?_ hne
      · -- `x` comes out of a comparison that it takes part in
        rcases List.mem_cons.mp hx with rfl | hx
        · by_cases hy : y = x
          · rw [hy, ite_self]
            exact List.mem_cons_self
          · rw [if_neg (by rw [(h y (List.mem_cons_of_mem _ List.mem_cons_self) hy).2]; decide)]
            exact List.mem_cons_self
        · rcases List.mem_cons.mp hx with rfl | hx
          · by_cases hfirst : first = x
            · rw [hfirst, ite_self]
              exact List.mem_cons_self
            · rw [if_pos (h first List.mem_cons_self hfirst).1]
              exact List.mem_cons_self
          · exact List.mem_cons_of_mem _ hx
      · rcases List.mem_cons.mp hz with rfl | hz
        · exact hnext
        · exact List.mem_cons_of_mem _ (List.mem_cons_of_mem _ hz)

/-! ### The best item by a key -/

section Key

variable {α κ : Type*} [LinearOrder κ] {key : α → κ} {l : List α} {x : α}

/-- Where better means a greater key, the scan finds the first of the greatest. -/
theorem firstBest_split {better : α → α → Bool}
    (hbetter : ∀ a ∈ l, ∀ b ∈ l, better a b = true ↔ key b < key a)
    (h : firstBest better l = some x) :
    ∃ before after, l = before ++ x :: after ∧ (∀ y ∈ before, key y < key x) ∧
      ∀ y ∈ after, key y ≤ key x := by
  cases l with
  | nil => cases h
  | cons first others =>
    rw [firstBest, Option.some_inj] at h
    induction others generalizing first with
    | nil =>
      subst h
      exact ⟨[], [], rfl, fun y hy => absurd hy List.not_mem_nil, fun y hy => absurd hy
        List.not_mem_nil⟩
    | cons z others ih =>
      rw [List.foldl_cons] at h
      have hz : z ∈ first :: z :: others := List.mem_cons_of_mem _ List.mem_cons_self
      by_cases hlt : better z first = true
      · -- the scan goes on with `z`, and `first` is left behind
        rw [if_pos hlt] at h
        obtain ⟨before, after, hsplit, hbefore, hafter⟩ := ih z
          (fun a ha b hb => hbetter a (List.mem_cons_of_mem _ ha) b (List.mem_cons_of_mem _ hb)) h
        refine ⟨first :: before, after, congrArg (first :: ·) hsplit, fun y hy => ?_, hafter⟩
        have hkey := (hbetter z hz first List.mem_cons_self).mp hlt
        rcases List.mem_cons.mp hy with rfl | hy
        · cases before with
          | nil => rwa [← (List.cons.inj hsplit).1]
          | cons w before =>
            have hw := hbefore w List.mem_cons_self
            rw [← (List.cons.inj hsplit).1] at hw
            exact hkey.trans hw
        · exact hbefore y hy
      · -- the scan keeps `first`, and `z` is not better
        rw [if_neg hlt] at h
        have hkey : key z ≤ key first :=
          not_lt.mp (mt (hbetter z hz first List.mem_cons_self).mpr hlt)
        have hsub : ∀ y ∈ first :: others, y ∈ first :: z :: others := by
          intro y hy
          rcases List.mem_cons.mp hy with rfl | hy
          · exact List.mem_cons_self
          · exact List.mem_cons_of_mem _ (List.mem_cons_of_mem _ hy)
        obtain ⟨before, after, hsplit, hbefore, hafter⟩ := ih first
          (fun a ha b hb => hbetter a (hsub a ha) b (hsub b hb)) h
        cases before with
        | nil =>
          obtain ⟨rfl, rfl⟩ := List.cons.inj hsplit
          refine ⟨[], z :: others, rfl, hbefore, fun y hy => ?_⟩
          rcases List.mem_cons.mp hy with rfl | hy
          · exact hkey
          · exact hafter y hy
        | cons w before =>
          obtain ⟨rfl, rfl⟩ := List.cons.inj hsplit
          refine ⟨first :: z :: before, after, rfl, fun y hy => ?_, hafter⟩
          rcases List.mem_cons.mp hy with rfl | hy
          · exact hbefore _ List.mem_cons_self
          · rcases List.mem_cons.mp hy with rfl | hy
            · exact hkey.trans_lt (hbefore _ List.mem_cons_self)
            · exact hbefore y (List.mem_cons_of_mem _ hy)

/-- No item has a greater key than the one that is found. -/
theorem key_le_of_firstBest {better : α → α → Bool}
    (hbetter : ∀ a ∈ l, ∀ b ∈ l, better a b = true ↔ key b < key a)
    (h : firstBest better l = some x) {y : α} (hy : y ∈ l) : key y ≤ key x := by
  obtain ⟨before, after, rfl, hbefore, hafter⟩ := firstBest_split hbetter h
  rcases List.mem_append.mp hy with hy | hy
  · exact (hbefore y hy).le
  · rcases List.mem_cons.mp hy with rfl | hy
    · exact le_rfl
    · exact hafter y hy

theorem firstBest_eq_some_iff (hl : (l.map key).Nodup) :
    firstBest (fun a b => key b < key a) l = some x ↔ x ∈ l ∧ ∀ y ∈ l, key y ≤ key x := by
  constructor
  · intro h
    exact ⟨mem_of_firstBest h, fun y hy =>
      key_le_of_firstBest (fun a _ b _ => decide_eq_true_iff) h hy⟩
  · rintro ⟨hx, hmax⟩
    refine firstBest_eq_of_forall hx fun y hy hne => ?_
    have hlt : key y < key x :=
      lt_of_le_of_ne (hmax y hy) fun heq => hne (List.inj_on_of_nodup_map hl hy hx heq)
    exact ⟨decide_eq_true hlt, decide_eq_false hlt.le.not_gt⟩

end Key

end OrderStatistics
