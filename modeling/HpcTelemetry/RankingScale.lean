/-
The ranking under a change of scale (`hpctel/analysis/straggler.py`).

* `Durations.median_affine`, `Durations.medianDeviation_affine` — what an affine
  change of the durations does to the median and to the median deviation;
* `verdicts_affine` — what it does to the records of the ranking;
* `rankStragglers_affine` — a shift changes no verdict, a factor changes no
  order, and a factor of one or more unflags no node.
-/
import HpcTelemetry.Ranking

namespace Analysis

open OrderStatistics

namespace Durations

/-- The same nodes, with every duration `d` turned into `k * d + c`. -/
def AffineImage (k c : ℚ) (durationsNs durationsNs' : Durations) : Prop :=
  durationsNs'.rows.map (fun item => (item.1, (item.2 : ℚ)))
    = durationsNs.rows.map fun item => (item.1, k * item.2 + c)

/-- The same nodes, with every duration multiplied. -/
def ScaledBy (k : ℚ) (durationsNs durationsNs' : Durations) : Prop :=
  durationsNs'.rows.map (fun item => (item.1, (item.2 : ℚ)))
    = durationsNs.rows.map fun item => (item.1, k * item.2)

instance (k : ℚ) (durationsNs durationsNs' : Durations) :
    Decidable (ScaledBy k durationsNs durationsNs') := inferInstanceAs (Decidable (_ = _))

/-- The same nodes, with an integer added to every duration. -/
def shift (durationsNs : Durations) (c : ℤ) : Durations :=
  durationsNs.mapRows (fun item => (item.1, item.2 + c)) fun _ => rfl

theorem affineImage_shift (durationsNs : Durations) (c : ℤ) :
    AffineImage 1 c durationsNs (durationsNs.shift c) := by
  rw [AffineImage, shift, KeyedTable.rows_mapRows, List.map_map]
  refine List.map_congr_left fun item _ => ?_
  rw [Function.comp_apply, Int.cast_add, one_mul]

theorem ScaledBy.affineImage {k : ℚ} {durationsNs durationsNs' : Durations}
    (h : ScaledBy k durationsNs durationsNs') : AffineImage k 0 durationsNs durationsNs' := by
  simp only [AffineImage, add_zero]
  exact h

section Affine

variable {k c : ℚ} {durationsNs durationsNs' : Durations}

theorem AffineImage.length_eq (h : AffineImage k c durationsNs durationsNs') :
    durationsNs'.rows.length = durationsNs.rows.length := by
  have hlen := congrArg List.length h
  rwa [List.length_map, List.length_map] at hlen

/-- What is read off names and durations is read off the image. -/
theorem AffineImage.map_eq (h : AffineImage k c durationsNs durationsNs') {β : Type*}
    (f : String × ℚ → β) :
    durationsNs'.rows.map (fun item => f (item.1, item.2))
      = durationsNs.rows.map fun item => f (item.1, k * item.2 + c) := by
  have hmap := congrArg (List.map f) h
  rwa [List.map_map, List.map_map] at hmap

theorem median_affine (hk : 0 < k) (hrows : durationsNs.rows ≠ [])
    (h : AffineImage k c durationsNs durationsNs') :
    durationsNs'.median = k * durationsNs.median + c := by
  have hmono : StrictMono fun x : ℚ => k * x + c := fun a b hab =>
    add_lt_add_left (mul_lt_mul_of_pos_left hab hk) c
  have hdata : durationsNs.rows.map (fun item => (item.2 : ℚ)) ≠ [] := fun hnil =>
    hrows (List.map_eq_nil_iff.mp hnil)
  rw [median, median, h.map_eq Prod.snd, ← median_map hmono (fun a b => by ring) hdata,
    List.map_map]
  rfl

theorem medianDeviation_affine (hk : 0 < k) (hrows : durationsNs.rows ≠ [])
    (h : AffineImage k c durationsNs durationsNs') :
    durationsNs'.medianDeviation = k * durationsNs.medianDeviation := by
  have hmono : StrictMono fun x : ℚ => k * x := fun a b hab => mul_lt_mul_of_pos_left hab hk
  have hdata : durationsNs.rows.map (fun item => |(item.2 : ℚ) - durationsNs.median|) ≠ [] :=
    fun hnil => hrows (List.map_eq_nil_iff.mp hnil)
  rw [medianDeviation, medianDeviation, median_affine hk hrows h,
    h.map_eq fun item => |item.2 - (k * durationsNs.median + c)|,
    ← median_map hmono (fun a b => by ring) hdata, List.map_map]
  congr 1
  refine List.map_congr_left fun item _ => ?_
  rw [Function.comp_apply, ← abs_of_pos hk, ← abs_mul, abs_of_pos hk]
  congr 1
  ring

/-- The sort does not see the change of scale. -/
theorem map_byDuration_affine (hk : 0 < k) (h : AffineImage k c durationsNs durationsNs') :
    (byDuration durationsNs').map (fun item => (item.1, (item.2 : ℚ)))
      = (byDuration durationsNs).map fun item => (item.1, k * item.2 + c) := by
  let key : String × ℚ → ℚ ×ₗ String := fun item => toLex (-item.2, item.1)
  have hsort : ∀ rows : List (String × ℤ), ∀ f : ℤ → ℚ, StrictMono f →
      (rows.insertionSort fun a b => durationKey a ≤ durationKey b).map
          (fun item => (item.1, f item.2))
        = (rows.map fun item => (item.1, f item.2)).insertionSort fun a b => key a ≤ key b := by
    intro rows f hf
    refine List.map_insertionSort _ _ _ _ fun a _ b _ => ?_
    simp only [key, durationKey, Prod.Lex.toLex_le_toLex, neg_lt_neg_iff, neg_inj, hf.lt_iff_lt,
      hf.injective.eq_iff]
  have haffine : StrictMono fun d : ℤ => k * (d : ℚ) + c := fun a b hab =>
    add_lt_add_left (mul_lt_mul_of_pos_left (Int.cast_lt.mpr hab) hk) c
  rw [byDuration, byDuration, hsort _ _ Int.cast_strictMono, hsort _ _ haffine, h]

end Affine

end Durations

/-! ### Verdicts -/

/-- What the ranking says of a node. -/
def verdict (node : RankedNode) : String × ℚ × Bool := (node.nodeId, node.zScore, node.flagged)

/-- The z-score of a duration in the image. -/
def imageZScore (k : ℚ) (durationsNs durationsNs' : Durations) (durationNs : ℤ) : ℚ :=
  madConstant * (k * (durationNs - durationsNs.median)) / durationsNs'.mad

section Affine

variable {k c : ℚ} {durationsNs durationsNs' : Durations}

theorem verdicts_affine (hk : 0 < k) (hrows : durationsNs.rows ≠ [])
    (h : Durations.AffineImage k c durationsNs durationsNs') :
    (rankedNodes durationsNs').map verdict = (byDuration durationsNs).map fun item =>
      (item.1, imageZScore k durationsNs durationsNs' item.2,
        decide (imageZScore k durationsNs durationsNs' item.2 > madZThreshold)) := by
  -- both are read off names and rational durations
  have hmap := congrArg (List.map fun item : String × ℚ =>
    (item.1, madConstant * (item.2 - durationsNs'.median) / durationsNs'.mad,
      decide (madConstant * (item.2 - durationsNs'.median) / durationsNs'.mad > madZThreshold)))
    (Durations.map_byDuration_affine hk h)
  rw [List.map_map, List.map_map] at hmap
  rw [rankedNodes_eq_map, List.map_map]
  refine hmap.trans (List.map_congr_left fun item _ => ?_)
  have hdiff : k * (item.2 : ℚ) + c - durationsNs'.median
      = k * (item.2 - durationsNs.median) := by
    rw [Durations.median_affine hk hrows h]
    ring
  rw [Function.comp_apply, hdiff]
  rfl

theorem verdicts_self (durationsNs : Durations) :
    (rankedNodes durationsNs).map verdict = (byDuration durationsNs).map fun item =>
      (item.1, durationsNs.zScore item.2, decide (durationsNs.zScore item.2 > madZThreshold)) := by
  rw [rankedNodes_eq_map, List.map_map]
  rfl

theorem map_nodeId_affine (hk : 0 < k) (hrows : durationsNs.rows ≠ [])
    (h : Durations.AffineImage k c durationsNs durationsNs') :
    (rankedNodes durationsNs').map (·.nodeId) = (rankedNodes durationsNs).map (·.nodeId) := by
  -- the name is the first part of a verdict
  have hname : (fun node : RankedNode => node.nodeId) = Prod.fst ∘ verdict := rfl
  have hnames : (rankedNodes durationsNs).map (·.nodeId)
      = (byDuration durationsNs).map Prod.fst := by
    rw [hname, ← List.map_map, verdicts_self, List.map_map]
    rfl
  rw [hnames, hname, ← List.map_map, verdicts_affine hk hrows h, List.map_map]
  rfl

/-- As long as the deviation grows with the durations, nothing else happens. -/
theorem verdicts_eq_of_mad (hk : 0 < k) (hrows : durationsNs.rows ≠ [])
    (h : Durations.AffineImage k c durationsNs durationsNs')
    (hmad : durationsNs'.mad = k * durationsNs.mad) :
    (rankedNodes durationsNs').map verdict = (rankedNodes durationsNs).map verdict := by
  rw [verdicts_affine hk hrows h, verdicts_self]
  refine List.map_congr_left fun item _ => ?_
  have hz : imageZScore k durationsNs durationsNs' item.2 = durationsNs.zScore item.2 := by
    rw [imageZScore, hmad, mul_left_comm, mul_div_mul_left _ _ hk.ne']
    rfl
  rw [hz]

/-- A factor of one or more does not lower the z-score of a flagged node. -/
theorem flagged_imageZScore (hk : 1 ≤ k) (hrows : durationsNs.rows ≠ [])
    (h : Durations.AffineImage k c durationsNs durationsNs') {item : String × ℤ}
    (hflagged : (durationsNs.rankedNode item).flagged) :
    imageZScore k durationsNs durationsNs' item.2 > madZThreshold := by
  have hk0 : 0 < k := one_pos.trans_le hk
  have hthreshold : (0 : ℚ) ≤ madZThreshold := by norm_num [madZThreshold]
  -- the deviation is multiplied by at most the factor
  have hmad : durationsNs'.mad ≤ k * durationsNs.mad := by
    rw [Durations.mad_eq durationsNs', Durations.medianDeviation_affine hk0 hrows h]
    refine max_le (mul_le_mul_of_nonneg_left (le_max_left _ _) hk0.le) ?_
    exact (le_max_right _ _).trans (le_mul_of_one_le_left durationsNs.mad_pos.le hk)
  rw [Durations.flagged_iff] at hflagged
  rw [imageZScore, gt_iff_lt, lt_div_iff₀ durationsNs'.mad_pos, mul_left_comm]
  calc madZThreshold * durationsNs'.mad
      ≤ madZThreshold * (k * durationsNs.mad) := mul_le_mul_of_nonneg_left hmad hthreshold
    _ = k * (madZThreshold * durationsNs.mad) := mul_left_comm _ _ _
    _ < k * (madConstant * (item.2 - durationsNs.median)) := mul_lt_mul_of_pos_left hflagged hk0

/-- So a flagged node stays flagged. -/
theorem exists_flagged_affine (hk : 1 ≤ k) (hrows : durationsNs.rows ≠ [])
    (h : Durations.AffineImage k c durationsNs durationsNs') {item : String × ℤ}
    (hitem : item ∈ durationsNs.rows) (hflagged : (durationsNs.rankedNode item).flagged) :
    ∃ node ∈ rankedNodes durationsNs', node.nodeId = item.1 ∧ node.flagged := by
  have hmem : (item.1, imageZScore k durationsNs durationsNs' item.2,
      decide (imageZScore k durationsNs durationsNs' item.2 > madZThreshold))
        ∈ (rankedNodes durationsNs').map verdict := by
    rw [verdicts_affine (one_pos.trans_le hk) hrows h]
    exact List.mem_map.mpr ⟨item, mem_byDuration.mpr hitem, rfl⟩
  obtain ⟨node, hnode, hverdict⟩ := List.mem_map.mp hmem
  injection hverdict with hname hrest
  injection hrest with _ hflag
  exact ⟨node, hnode, hname, hflag.trans (decide_eq_true (flagged_imageZScore hk hrows h hflagged))⟩

/-- And so does the first one. -/
theorem topCandidate_affine {jobId : String} {phaseIndex : ℕ} (hk : 1 ≤ k)
    (hn : minReportingNodes ≤ durationsNs.rows.length)
    (h : Durations.AffineImage k c durationsNs durationsNs') {top : String}
    (htop : (rankStragglers jobId phaseIndex durationsNs).topCandidate = some top) :
    (rankStragglers jobId phaseIndex durationsNs').topCandidate = some top := by
  have hrows := Durations.rows_ne_nil hn
  have hn' : minReportingNodes ≤ durationsNs'.rows.length := by
    rwa [h.length_eq]
  obtain ⟨first, hfirst⟩ := exists_head?_byDuration hrows
  obtain ⟨first', hfirst'⟩ := exists_head?_byDuration (Durations.rows_ne_nil hn')
  rw [topCandidate_eq hn hfirst] at htop
  split_ifs at htop with hflagged
  -- the verdict on the first node of the image is that on the first node
  have hhead := congrArg List.head? (verdicts_affine (one_pos.trans_le hk) hrows h)
  rw [verdicts_self, List.head?_map, List.head?_map, hfirst, hfirst', Option.map_some,
    Option.map_some, Option.some_inj, Prod.mk.injEq, Prod.mk.injEq] at hhead
  obtain ⟨hname, _, hflag⟩ := hhead
  have hflagged' : (durationsNs'.rankedNode first').flagged :=
    hflag.trans (decide_eq_true (flagged_imageZScore hk hrows h hflagged))
  rw [topCandidate_eq hn' hfirst', if_pos hflagged', hname, ← htop]

end Affine

/-- Adding an integer to all durations changes no verdict.  Multiplying them by a
positive factor changes no order; by a factor of one or more, it unflags no node
and keeps the candidate; and as long as the floor is not binding on either side,
it changes no verdict. -/
theorem rankStragglers_affine (jobId : String) (phaseIndex : ℕ) (durationsNs : Durations)
    (hn : minReportingNodes ≤ durationsNs.rows.length) (c : ℤ) {k : ℚ} (hk : 0 < k)
    {scaledNs : Durations} (hscaled : durationsNs.ScaledBy k scaledNs) :
    let report := rankStragglers jobId phaseIndex durationsNs
    let shifted := rankStragglers jobId phaseIndex (durationsNs.shift c)
    let scaled := rankStragglers jobId phaseIndex scaledNs
    shifted.rankedNodes.map verdict = report.rankedNodes.map verdict
      ∧ scaled.rankedNodes.map (·.nodeId) = report.rankedNodes.map (·.nodeId)
      ∧ (1 ≤ k → (∀ node ∈ report.rankedNodes, node.flagged →
            ∃ node' ∈ scaled.rankedNodes, node'.nodeId = node.nodeId ∧ node'.flagged)
          ∧ (report.topCandidate ≠ none → scaled.topCandidate = report.topCandidate))
      ∧ (madFloorNs ≤ durationsNs.medianDeviation →
          madFloorNs ≤ k * durationsNs.medianDeviation →
            scaled.rankedNodes.map verdict = report.rankedNodes.map verdict) := by
  have hrows := Durations.rows_ne_nil hn
  have hshift := Durations.affineImage_shift durationsNs c
  have hscale := hscaled.affineImage
  have hnshift : minReportingNodes ≤ (durationsNs.shift c).rows.length := by
    rwa [hshift.length_eq]
  have hnscale : minReportingNodes ≤ scaledNs.rows.length := by
    rwa [hscale.length_eq]
  refine ⟨?_, ?_, fun hk1 => ⟨?_, ?_⟩, fun hfloor hfloor' => ?_⟩
  · rw [rankStragglers_eq hn, rankStragglers_eq hnshift]
    refine verdicts_eq_of_mad one_pos hrows hshift ?_
    rw [one_mul, Durations.mad_eq, Durations.medianDeviation_affine one_pos hrows hshift, one_mul]
    rfl
  · rw [rankStragglers_eq hn, rankStragglers_eq hnscale]
    exact map_nodeId_affine hk hrows hscale
  · rw [rankStragglers_eq hn, rankStragglers_eq hnscale]
    intro node hnode hflagged
    obtain ⟨item, hitem, rfl⟩ := mem_rankedNodes.mp hnode
    exact exists_flagged_affine hk1 hrows hscale hitem hflagged
  · intro htop
    obtain ⟨top, htop⟩ := Option.ne_none_iff_exists'.mp htop
    rw [htop]
    exact topCandidate_affine hk1 hn hscale htop
  · rw [rankStragglers_eq hn, rankStragglers_eq hnscale]
    refine verdicts_eq_of_mad hk hrows hscale ?_
    rw [Durations.mad_eq, Durations.mad_eq, Durations.medianDeviation_affine hk hrows hscale,
      max_eq_left hfloor, max_eq_left hfloor']

/-- Two and a half times as long. -/
def fiveNodesScaled : Durations :=
  ⟨[("node-b", 257500000), ("node-a", 250000000), ("node-e", 1000000000), ("node-d", 252500000),
    ("node-c", 250000000)], by decide⟩

theorem rankStragglers_affine_example :
    let report := rankStragglers "job-4" 0 fiveNodes
    let shifted := rankStragglers "job-4" 0 (fiveNodes.shift (-100000000))
    let scaled := rankStragglers "job-4" 0 fiveNodesScaled
    shifted.rankedNodes.map verdict = report.rankedNodes.map verdict
      ∧ scaled.rankedNodes.map (·.nodeId) = report.rankedNodes.map (·.nodeId)
      ∧ scaled.topCandidate = some "node-e"
      ∧ scaled.rankedNodes.map verdict = report.rankedNodes.map verdict := by
  have hlaws := @rankStragglers_affine "job-4" 0 fiveNodes (by decide) (-100000000) (5 / 2)
    (by norm_num) fiveNodesScaled (by decide +kernel)
  obtain ⟨hshift, horder, hflags, hverdicts⟩ := hlaws
  have htop : (rankStragglers "job-4" 0 fiveNodes).topCandidate = some "node-e" := by
    decide +kernel
  refine ⟨hshift, horder, ?_, hverdicts (by decide +kernel) (by decide +kernel)⟩
  have hkeep := (hflags (by norm_num)).2
  rw [htop] at hkeep
  exact hkeep (Option.some_ne_none _)

end Analysis
