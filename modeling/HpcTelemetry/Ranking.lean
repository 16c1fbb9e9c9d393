/-
The ranking is by duration (`hpctel/analysis/straggler.py`).

* `Durations.zScore_strictMono`, `Durations.flagged_iff` — the z-score grows with
  the duration, and a flag is a bound on it;
* `rankedNodes_eq_map` — the ranked nodes are the items sorted by descending
  duration and ascending name, whatever the median and the deviation are;
* `rankStragglers_perm` — the order in which the durations came in plays no part;
* `rankStragglers_byDuration` — all of this of a report, with the candidate and
  the naive baseline.
-/
import HpcTelemetry.Median
import HpcTelemetry.Straggler

namespace Analysis

open OrderStatistics

namespace Durations

/-! ### Z-scores -/

/-- The median deviation from the median. -/
def medianDeviation (durationsNs : Durations) : ℚ :=
  OrderStatistics.median (durationsNs.rows.map fun item => |(item.2 : ℚ) - durationsNs.median|)

theorem mad_eq (durationsNs : Durations) :
    durationsNs.mad = max durationsNs.medianDeviation madFloorNs := rfl

theorem medianDeviation_le_mad (durationsNs : Durations) :
    durationsNs.medianDeviation ≤ durationsNs.mad := le_max_left _ _

theorem mad_pos (durationsNs : Durations) : 0 < durationsNs.mad := by
  have hfloor : (0 : ℚ) < madFloorNs := by norm_num [madFloorNs]
  exact hfloor.trans_le (le_max_right _ _)

theorem zScore_strictMono (durationsNs : Durations) : StrictMono durationsNs.zScore := by
  intro a b hab
  have hconst : (0 : ℚ) < madConstant := by norm_num [madConstant]
  have hab : (a : ℚ) < b := Int.cast_lt.mpr hab
  rw [zScore, zScore]
  refine div_lt_div_of_pos_right ?_ durationsNs.mad_pos
  exact mul_lt_mul_of_pos_left (sub_lt_sub_right hab _) hconst

/-- A node is flagged iff it is above the median by more than some five times
the deviation. -/
theorem flagged_iff (durationsNs : Durations) (item : String × ℤ) :
    (durationsNs.rankedNode item).flagged
      ↔ madZThreshold * durationsNs.mad < madConstant * (item.2 - durationsNs.median) := by
  rw [← lt_div_iff₀ durationsNs.mad_pos]
  exact decide_eq_true_iff

theorem rows_ne_nil {durationsNs : Durations} (hn : minReportingNodes ≤ durationsNs.rows.length) :
    durationsNs.rows ≠ [] := by
  intro hnil
  rw [hnil] at hn
  exact absurd hn (by decide)

@[simp] theorem rankedNode_nodeId (durationsNs : Durations) (item : String × ℤ) :
    (durationsNs.rankedNode item).nodeId = item.1 := rfl

@[simp] theorem rankedNode_durationNs (durationsNs : Durations) (item : String × ℤ) :
    (durationsNs.rankedNode item).durationNs = item.2 := rfl

@[simp] theorem rankedNode_zScore (durationsNs : Durations) (item : String × ℤ) :
    (durationsNs.rankedNode item).zScore = durationsNs.zScore item.2 := rfl

theorem zScore_congr {durationsNs durationsNs' : Durations}
    (hmedian : durationsNs'.median = durationsNs.median) (hmad : durationsNs'.mad = durationsNs.mad)
    (durationNs : ℤ) : durationsNs'.zScore durationNs = durationsNs.zScore durationNs := by
  rw [zScore, zScore, hmedian, hmad]

theorem rankedNode_congr {durationsNs durationsNs' : Durations} {item : String × ℤ}
    (h : durationsNs'.zScore item.2 = durationsNs.zScore item.2) :
    durationsNs'.rankedNode item = durationsNs.rankedNode item := by
  rw [rankedNode, rankedNode, h]

end Durations

/-! ### The order of the nodes -/

/-- What the nodes are in fact sorted by. -/
def durationKey (item : String × ℤ) : ℤ ×ₗ String := toLex (-item.2, item.1)

/-- The items by descending duration, ties by ascending name. -/
def byDuration (durationsNs : Durations) : List (String × ℤ) :=
  durationsNs.rows.insertionSort fun a b => durationKey a ≤ durationKey b

theorem durationKey_injective : Function.Injective durationKey := by
  intro a b hab
  have hpair := Prod.mk.inj (toLex.injective hab)
  exact Prod.ext hpair.2 (neg_injective hpair.1)

theorem nodup_map_durationKey (durationsNs : Durations) :
    (durationsNs.rows.map durationKey).Nodup :=
  (List.Nodup.of_map _ durationsNs.keys_nodup).map durationKey_injective

theorem rankKey_le_iff (durationsNs : Durations) (a b : String × ℤ) :
    rankKey (durationsNs.rankedNode a) ≤ rankKey (durationsNs.rankedNode b)
      ↔ durationKey a ≤ durationKey b := by
  have hz := durationsNs.zScore_strictMono
  show toLex (-durationsNs.zScore a.2, a.1) ≤ toLex (-durationsNs.zScore b.2, b.1) ↔ _
  rw [durationKey, durationKey, Prod.Lex.toLex_le_toLex, Prod.Lex.toLex_le_toLex]
  simp only [neg_lt_neg_iff, neg_inj, hz.lt_iff_lt, hz.injective.eq_iff]

theorem rankedNodes_eq_map (durationsNs : Durations) :
    rankedNodes durationsNs = (byDuration durationsNs).map durationsNs.rankedNode :=
  (List.map_insertionSort _ _ durationsNs.rankedNode durationsNs.rows fun a _ b _ =>
    (rankKey_le_iff durationsNs a b).symm).symm

theorem pairwise_byDuration (durationsNs : Durations) :
    (byDuration durationsNs).Pairwise fun a b => durationKey a ≤ durationKey b := by
  have htotal : Std.Total fun a b : String × ℤ => durationKey a ≤ durationKey b :=
    ⟨fun a b => le_total (durationKey a) (durationKey b)⟩
  have htrans : IsTrans (String × ℤ) fun a b => durationKey a ≤ durationKey b :=
    ⟨fun _ _ _ => le_trans⟩
  exact List.pairwise_insertionSort _ _

theorem mem_byDuration {durationsNs : Durations} {item : String × ℤ} :
    item ∈ byDuration durationsNs ↔ item ∈ durationsNs.rows := List.mem_insertionSort _

theorem byDuration_perm (durationsNs : Durations) :
    (byDuration durationsNs).Perm durationsNs.rows := List.perm_insertionSort _ _

theorem mem_rankedNodes {durationsNs : Durations} {node : RankedNode} :
    node ∈ rankedNodes durationsNs
      ↔ ∃ item ∈ durationsNs.rows, durationsNs.rankedNode item = node := by
  rw [rankedNodes_eq_map, List.mem_map]
  simp only [mem_byDuration]

/-- An item before another one lasted at least as long. -/
theorem duration_le_of_durationKey_le {a b : String × ℤ} (h : durationKey a ≤ durationKey b) :
    b.2 ≤ a.2 := by
  rcases Prod.Lex.toLex_le_toLex.mp h with hlt | ⟨heq, _⟩
  · exact (neg_lt_neg_iff.mp hlt).le
  · exact (neg_injective heq).ge

/-- The first of the sorted items is the one with the least key. -/
theorem head?_byDuration_eq_some_iff {durationsNs : Durations} {first : String × ℤ} :
    (byDuration durationsNs).head? = some first
      ↔ first ∈ durationsNs.rows
        ∧ ∀ item ∈ durationsNs.rows, durationKey first ≤ durationKey item := by
  have hleast : ∀ item, (byDuration durationsNs).head? = some item →
      item ∈ durationsNs.rows
        ∧ ∀ other ∈ durationsNs.rows, durationKey item ≤ durationKey other := by
    intro item hitem
    obtain ⟨others, hlist⟩ := List.head?_eq_some_iff.mp hitem
    have hsorted := pairwise_byDuration durationsNs
    have hperm := byDuration_perm durationsNs
    rw [hlist] at hsorted hperm
    refine ⟨hperm.mem_iff.mp List.mem_cons_self, fun other hother => ?_⟩
    rcases List.mem_cons.mp (hperm.mem_iff.mpr hother) with rfl | hother
    · exact le_rfl
    · exact (List.pairwise_cons.mp hsorted).1 other hother
  constructor
  · exact hleast first
  · rintro ⟨hfirst, hle⟩
    cases hhead : (byDuration durationsNs).head? with
    | none =>
      have hnil := List.head?_eq_none_iff.mp hhead
      rw [← mem_byDuration, hnil] at hfirst
      cases hfirst
    | some item =>
      obtain ⟨hitem, hle'⟩ := hleast item hhead
      rw [durationKey_injective (le_antisymm (hle' first hfirst) (hle item hitem))]

theorem exists_head?_byDuration {durationsNs : Durations} (h : durationsNs.rows ≠ []) :
    ∃ first, (byDuration durationsNs).head? = some first := by
  refine Option.isSome_iff_exists.mp (List.isSome_head?.mpr fun hnil => h ?_)
  have hperm := byDuration_perm durationsNs
  rw [hnil] at hperm
  exact hperm.nil_eq.symm

/-- The flagged nodes come first. -/
theorem filter_flagged_rankedNodes (durationsNs : Durations) :
    (rankedNodes durationsNs).filter (·.flagged)
      = (rankedNodes durationsNs).takeWhile (·.flagged) := by
  have hbefore : (rankedNodes durationsNs).Pairwise fun a b => b.flagged → a.flagged := by
    rw [rankedNodes_eq_map, List.pairwise_map]
    refine (pairwise_byDuration durationsNs).imp fun hab hb => ?_
    rw [Durations.flagged_iff] at hb ⊢
    have hle := Int.cast_le (R := ℚ).mpr (duration_le_of_durationKey_le hab)
    have hconst : (0 : ℚ) < madConstant := by norm_num [madConstant]
    exact hb.trans_le (mul_le_mul_of_nonneg_left (sub_le_sub_right hle _) hconst.le)
  exact filter_eq_takeWhile hbefore fun _ _ h => h

/-! ### Reports -/

theorem rankStragglers_eq {jobId : String} {phaseIndex : ℕ} {durationsNs : Durations}
    (hn : minReportingNodes ≤ durationsNs.rows.length) :
    rankStragglers jobId phaseIndex durationsNs =
      { jobId := jobId
        phaseIndex := phaseIndex
        status := .ranked
        rankedNodes := rankedNodes durationsNs
        topCandidate := ((rankedNodes durationsNs).head?.filter (·.flagged)).map (·.nodeId)
        naiveBaselineCandidate :=
          (firstBest (fun a b => naiveKey b < naiveKey a) durationsNs.rows).map Prod.fst } := by
  rw [← List.head?_takeWhile, ← filter_flagged_rankedNodes]
  exact if_neg (not_lt.mpr hn)

/-- The candidate of a report is the first node, if that is flagged. -/
theorem topCandidate_eq {jobId : String} {phaseIndex : ℕ} {durationsNs : Durations}
    (hn : minReportingNodes ≤ durationsNs.rows.length) {first : String × ℤ}
    (hfirst : (byDuration durationsNs).head? = some first) :
    (rankStragglers jobId phaseIndex durationsNs).topCandidate
      = if (durationsNs.rankedNode first).flagged then some first.1 else none := by
  rw [rankStragglers_eq hn]
  show ((rankedNodes durationsNs).head?.filter (·.flagged)).map (·.nodeId) = _
  rw [rankedNodes_eq_map, List.head?_map, hfirst, Option.map_some, Option.filter_some]
  split_ifs
  · rfl
  · rfl

theorem naiveKey_injective : Function.Injective naiveKey := by
  intro a b hab
  have hpair := Prod.mk.inj (toLex.injective hab)
  exact Prod.ext hpair.2 hpair.1

theorem naive_eq_some_iff {durationsNs : Durations} {item : String × ℤ} :
    firstBest (fun a b => naiveKey b < naiveKey a) durationsNs.rows = some item
      ↔ item ∈ durationsNs.rows ∧ ∀ other ∈ durationsNs.rows, naiveKey other ≤ naiveKey item :=
  firstBest_eq_some_iff ((List.Nodup.of_map _ durationsNs.keys_nodup).map naiveKey_injective)

/-- The same durations in another order. -/
theorem rankStragglers_perm {durationsNs durationsNs' : Durations}
    (h : durationsNs'.rows.Perm durationsNs.rows) (jobId : String) (phaseIndex : ℕ) :
    rankStragglers jobId phaseIndex durationsNs' = rankStragglers jobId phaseIndex durationsNs := by
  have hmedian : durationsNs'.median = durationsNs.median := median_perm (h.map _)
  have hmad : durationsNs'.mad = durationsNs.mad := by
    rw [Durations.mad_eq, Durations.mad_eq, Durations.medianDeviation, Durations.medianDeviation,
      hmedian, median_perm (h.map _)]
  have hnode : durationsNs'.rankedNode = durationsNs.rankedNode :=
    funext fun item => Durations.rankedNode_congr (Durations.zScore_congr hmedian hmad item.2)
  have hsort : byDuration durationsNs' = byDuration durationsNs :=
    insertionSort_eq_of_mem_iff (nodup_map_durationKey durationsNs')
      (nodup_map_durationKey durationsNs) fun _ => h.mem_iff
  have hranked : rankedNodes durationsNs' = rankedNodes durationsNs := by
    rw [rankedNodes_eq_map, rankedNodes_eq_map, hsort, hnode]
  have hnaive : firstBest (fun a b => naiveKey b < naiveKey a) durationsNs'.rows
      = firstBest (fun a b => naiveKey b < naiveKey a) durationsNs.rows := by
    refine Option.ext fun item => ?_
    simp only [naive_eq_some_iff, h.mem_iff]
  simp only [rankStragglers, h.length_eq, hranked, hnaive]

/-- A report in which the nodes stand by duration. -/
structure RankedByDuration (durationsNs : Durations) (report : StragglerReport) : Prop where
  perm : (report.rankedNodes.map fun node => (node.nodeId, node.durationNs)).Perm durationsNs.rows
  sorted : report.rankedNodes.map (fun node => (node.nodeId, node.durationNs))
    = byDuration durationsNs
  topCandidate : report.topCandidate
    = (report.rankedNodes.head?.filter (·.flagged)).map (·.nodeId)
  naive : ∃ first ∈ report.rankedNodes.head?, ∃ item ∈ durationsNs.rows,
    report.naiveBaselineCandidate = some item.1 ∧ item.2 = first.durationNs
  naive_of_unique : ∀ item ∈ durationsNs.rows,
    (∀ other ∈ durationsNs.rows, other ≠ item → other.2 < item.2) →
      report.naiveBaselineCandidate = some item.1
        ∧ report.rankedNodes.head?.map (·.nodeId) = some item.1

/-- Five nodes, two of which tie. -/
def fiveNodes : Durations :=
  ⟨[("node-b", 103000000), ("node-a", 100000000), ("node-e", 400000000), ("node-d", 101000000),
    ("node-c", 100000000)], by decide⟩

/-- The ranking is exactly by duration, whatever order the durations came in. -/
theorem rankStragglers_byDuration (jobId : String) (phaseIndex : ℕ) (durationsNs : Durations)
    (hn : minReportingNodes ≤ durationsNs.rows.length) :
    RankedByDuration durationsNs (rankStragglers jobId phaseIndex durationsNs) ∧
      ∀ durationsNs' : Durations, durationsNs'.rows.Perm durationsNs.rows →
        rankStragglers jobId phaseIndex durationsNs'
          = rankStragglers jobId phaseIndex durationsNs := by
  refine ⟨?_, fun durationsNs' h => rankStragglers_perm h jobId phaseIndex⟩
  have hne := Durations.rows_ne_nil hn
  obtain ⟨first, hhead⟩ := exists_head?_byDuration hne
  obtain ⟨hfirst, hleast⟩ := head?_byDuration_eq_some_iff.mp hhead
  have hmax : ∀ item ∈ durationsNs.rows, item.2 ≤ first.2 := fun item hitem =>
    duration_le_of_durationKey_le (hleast item hitem)
  obtain ⟨naive, hnaive⟩ :=
    @exists_firstBest _ (fun a b => decide (naiveKey b < naiveKey a)) _ hne
  obtain ⟨hmem, hbest⟩ := naive_eq_some_iff.mp hnaive
  -- the naive baseline lasted longest too
  have hlongest : ∀ item ∈ durationsNs.rows, item.2 ≤ naive.2 := by
    intro item hitem
    rcases Prod.Lex.toLex_le_toLex.mp (hbest item hitem) with hlt | ⟨heq, _⟩
    · exact hlt.le
    · exact heq.le
  have hheadNode : (rankedNodes durationsNs).head? = some (durationsNs.rankedNode first) := by
    rw [rankedNodes_eq_map, List.head?_map, hhead]
    rfl
  have hsorted : (rankedNodes durationsNs).map (fun node => (node.nodeId, node.durationNs))
      = byDuration durationsNs := by
    rw [rankedNodes_eq_map, List.map_map]
    exact List.map_id _
  rw [rankStragglers_eq hn]
  refine ⟨?_, hsorted, rfl, ?_, ?_⟩
  · rw [hsorted]
    exact byDuration_perm durationsNs
  · refine ⟨_, hheadNode, naive, hmem, ?_, ?_⟩
    · rw [hnaive]
      rfl
    · exact le_antisymm (hmax naive hmem) (hlongest first hfirst)
  · intro item hitem hunique
    -- whoever lasted longest is this one
    have honly : ∀ other ∈ durationsNs.rows, item.2 ≤ other.2 → other = item := by
      intro other hother hle
      by_contra hne
      exact absurd hle (not_le.mpr (hunique other hother hne))
    rw [hheadNode, hnaive, honly naive hmem (hlongest item hitem),
      honly first hfirst (hmax item hitem)]
    exact ⟨rfl, rfl⟩

theorem rankStragglers_byDuration_example :
    RankedByDuration fiveNodes (rankStragglers "job-1" 0 fiveNodes) ∧
      ∀ durationsNs' : Durations, durationsNs'.rows.Perm fiveNodes.rows →
        rankStragglers "job-1" 0 durationsNs' = rankStragglers "job-1" 0 fiveNodes :=
  rankStragglers_byDuration "job-1" 0 fiveNodes (by decide)

end Analysis
