/-
Aggregates over groups.

A list of groups, each of which says which items belong to it; an item may belong
to no group, to one or to several.

* `sum_map_sum_filter` — if each item of a part belongs to one group, and no other
  item to any, the sums of the groups add up to the sum of the part;
* `sum_map_length_filter` — and so do their sizes;
* `isLeast_of_groups`, `isGreatest_of_groups` — the least of the part is the least
  of the groups' least, and the greatest the greatest.
-/
import Mathlib.Tactic

namespace GroupSums

variable {ρ α : Type*} {groups : List ρ} {items : List α} {belongs : ρ → α → Bool}
  {part : α → Bool}

/-- One item is counted once for each of its groups. -/
theorem sum_map_ite_add {M : Type*} [AddCommMonoid M] (groups : List ρ) (p : ρ → Bool) (x : M)
    (g : ρ → M) : (groups.map fun r => (if p r then x else 0) + g r).sum
      = groups.countP p • x + (groups.map g).sum := by
  induction groups with
  | nil => simp
  | cons r groups ih =>
    rw [List.map_cons, List.sum_cons, ih, List.countP_cons, List.map_cons, List.sum_cons]
    split_ifs
    · rw [succ_nsmul, add_add_add_comm, add_comm x]
    · rw [zero_add, add_zero, add_left_comm]

theorem sum_map_sum_filter {M : Type*} [AddCommMonoid M] (f : α → M)
    (h : ∀ a ∈ items, (groups.countP fun r => belongs r a) = if part a then 1 else 0) :
    (groups.map fun r => ((items.filter (belongs r)).map f).sum).sum
      = ((items.filter part).map f).sum := by
  induction items with
  | nil => simp
  | cons a items ih =>
    have hsplit : ∀ p : α → Bool, (((a :: items).filter p).map f).sum
        = (if p a then f a else 0) + ((items.filter p).map f).sum := by
      intro p
      by_cases hp : p a = true
      · rw [List.filter_cons_of_pos hp, List.map_cons, List.sum_cons, if_pos hp]
      · rw [List.filter_cons_of_neg hp, if_neg hp, zero_add]
    simp only [hsplit]
    rw [sum_map_ite_add, ih fun b hb => h b (List.mem_cons_of_mem a hb), h a List.mem_cons_self]
    split_ifs
    · rw [one_nsmul]
    · rw [zero_nsmul]

theorem sum_map_length_filter
    (h : ∀ a ∈ items, (groups.countP fun r => belongs r a) = if part a then 1 else 0) :
    (groups.map fun r => (items.filter (belongs r)).length).sum = (items.filter part).length := by
  have hsum := sum_map_sum_filter (fun _ => 1) h
  simpa only [List.map_const', List.sum_replicate, smul_eq_mul, mul_one] using hsum

/-- The groups make up the part. -/
theorem isLeast_of_groups {K : Type*} [PartialOrder K] {f : α → K} {least : ρ → K} {x : K}
    (hsub : ∀ r ∈ groups, ∀ a ∈ items, belongs r a → part a)
    (hcover : ∀ a ∈ items, part a → ∃ r ∈ groups, belongs r a)
    (hleast : ∀ r ∈ groups, IsLeast {y | ∃ a ∈ items, belongs r a ∧ y = f a} (least r))
    (hx : IsLeast {y | ∃ a ∈ items, part a ∧ y = f a} x) :
    IsLeast {y | ∃ r ∈ groups, y = least r} x := by
  have hle : ∀ r ∈ groups, x ≤ least r := by
    intro r hr
    obtain ⟨a, ha, hbelongs, heq⟩ := (hleast r hr).1
    exact hx.2 ⟨a, ha, hsub r hr a ha hbelongs, heq⟩
  constructor
  · obtain ⟨a, ha, hpart, rfl⟩ := hx.1
    obtain ⟨r, hr, hbelongs⟩ := hcover a ha hpart
    exact ⟨r, hr, le_antisymm (hle r hr) ((hleast r hr).2 ⟨a, ha, hbelongs, rfl⟩)⟩
  · rintro _ ⟨r, hr, rfl⟩
    exact hle r hr

theorem isGreatest_of_groups {K : Type*} [PartialOrder K] {f : α → K} {greatest : ρ → K} {x : K}
    (hsub : ∀ r ∈ groups, ∀ a ∈ items, belongs r a → part a)
    (hcover : ∀ a ∈ items, part a → ∃ r ∈ groups, belongs r a)
    (hgreatest : ∀ r ∈ groups, IsGreatest {y | ∃ a ∈ items, belongs r a ∧ y = f a} (greatest r))
    (hx : IsGreatest {y | ∃ a ∈ items, part a ∧ y = f a} x) :
    IsGreatest {y | ∃ r ∈ groups, y = greatest r} x :=
  @isLeast_of_groups ρ α groups items belongs part Kᵒᵈ _ f greatest x hsub hcover hgreatest hx

end GroupSums
