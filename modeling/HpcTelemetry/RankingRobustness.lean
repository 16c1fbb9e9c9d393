/-
What a straggler cannot do to the ranking (`hpctel/analysis/straggler.py`).

* `Durations.two_mul_countP_outlying` — less than half of the nodes are away from
  the median by more than twice the median deviation;
* `rankStragglers_minority` — so less than half of them are flagged;
* `rankStragglers_no_masking` — so neither the median nor the deviation moves
  when a flagged node gets slower still;
* `rankStragglers_duplicate` — one more node at the median leaves the median
  alone and does not raise the deviation: a candidate stays the candidate, but
  there may be one where there was none.
-/
import HpcTelemetry.Ranking

namespace Analysis

open OrderStatistics

/-! ### Outlying nodes are few -/

namespace Durations

/-- A flagged node is above the median, by more than twice the median deviation. -/
theorem outlying_of_flagged {durationsNs : Durations} {item : String × ℤ}
    (h : (durationsNs.rankedNode item).flagged) :
    durationsNs.median < item.2
      ∧ 2 * durationsNs.medianDeviation < |(item.2 : ℚ) - durationsNs.median| := by
  rw [flagged_iff] at h
  have hpos := durationsNs.mad_pos
  have hle := durationsNs.medianDeviation_le_mad
  norm_num [madZThreshold, madConstant] at h
  have habove : durationsNs.median < item.2 := by linarith
  refine ⟨habove, ?_⟩
  rw [abs_of_pos (sub_pos.mpr habove)]
  linarith

theorem two_mul_countP_outlying {durationsNs : Durations} (hrows : durationsNs.rows ≠ []) :
    2 * (durationsNs.rows.countP fun item =>
      2 * durationsNs.medianDeviation < |(item.2 : ℚ) - durationsNs.median|)
        < durationsNs.rows.length := by
  by_contra hmany
  refine lt_irrefl (2 * durationsNs.medianDeviation) (lt_two_mul_median ?_ ?_ ?_)
  · intro deviation hdeviation
    obtain ⟨item, _, rfl⟩ := List.mem_map.mp hdeviation
    exact abs_nonneg _
  · intro hnil
    exact hrows (List.map_eq_nil_iff.mp hnil)
  · rw [List.length_map, List.countP_map]
    exact not_lt.mp hmany

/-- What only outlying nodes satisfy, less than half of the nodes satisfy. -/
theorem two_mul_countP_lt {durationsNs : Durations} (hrows : durationsNs.rows ≠ [])
    {p : String × ℤ → Bool} (hp : ∀ item ∈ durationsNs.rows, p item →
      2 * durationsNs.medianDeviation < |(item.2 : ℚ) - durationsNs.median|) :
    2 * durationsNs.rows.countP p < durationsNs.rows.length := by
  have hfew := two_mul_countP_outlying hrows
  have hmono : durationsNs.rows.countP p ≤ durationsNs.rows.countP fun item =>
      2 * durationsNs.medianDeviation < |(item.2 : ℚ) - durationsNs.median| :=
    List.countP_mono_left fun item hitem h => decide_eq_true (hp item hitem h)
  omega

end Durations

/-- A strict minority is flagged: nodes above the median, at the front of the
ranking. -/
theorem rankStragglers_minority (jobId : String) (phaseIndex : ℕ) (durationsNs : Durations)
    (hn : minReportingNodes ≤ durationsNs.rows.length) :
    let report := rankStragglers jobId phaseIndex durationsNs
    2 * (report.rankedNodes.filter (·.flagged)).length < durationsNs.rows.length
      ∧ (∀ node ∈ report.rankedNodes, node.flagged → durationsNs.median < node.durationNs)
      ∧ report.rankedNodes.filter (·.flagged) <+: report.rankedNodes := by
  rw [rankStragglers_eq hn]
  refine ⟨?_, ?_, ?_⟩
  · show 2 * ((rankedNodes durationsNs).filter (·.flagged)).length < _
    rw [← List.countP_eq_length_filter, rankedNodes_eq_map, List.countP_map,
      (byDuration_perm durationsNs).countP_eq]
    exact Durations.two_mul_countP_lt (Durations.rows_ne_nil hn) fun item _ h =>
      (Durations.outlying_of_flagged h).2
  · intro node hnode hflagged
    obtain ⟨item, _, rfl⟩ := mem_rankedNodes.mp hnode
    exact (Durations.outlying_of_flagged hflagged).1
  · show (rankedNodes durationsNs).filter (·.flagged) <+: rankedNodes durationsNs
    rw [filter_flagged_rankedNodes]
    exact List.takeWhile_prefix _

theorem rankStragglers_minority_example :
    let report := rankStragglers "job-1" 0 fiveNodes
    2 * (report.rankedNodes.filter (·.flagged)).length < fiveNodes.rows.length
      ∧ (∀ node ∈ report.rankedNodes, node.flagged → fiveNodes.median < node.durationNs)
      ∧ report.rankedNodes.filter (·.flagged) <+: report.rankedNodes :=
  rankStragglers_minority "job-1" 0 fiveNodes (by decide)

/-! ### A straggler that gets slower -/

namespace Durations

/-- The same fleet but for the duration of one node. -/
def set (durationsNs : Durations) (nodeId : String) (durationNs : ℤ) : Durations :=
  durationsNs.mapRows (fun item => if item.1 = nodeId then (item.1, durationNs) else item)
    fun item => by split_ifs <;> rfl

theorem rows_set (durationsNs : Durations) (nodeId : String) (durationNs : ℤ) :
    (durationsNs.set nodeId durationNs).rows
      = durationsNs.rows.map fun item => if item.1 = nodeId then (item.1, durationNs) else item :=
  rfl

/-- The other nodes are those there were. -/
theorem filter_rows_set (durationsNs : Durations) (nodeId : String) (durationNs : ℤ) :
    (durationsNs.set nodeId durationNs).rows.filter (fun item => item.1 ≠ nodeId)
      = durationsNs.rows.filter fun item => item.1 ≠ nodeId := by
  rw [rows_set]
  induction durationsNs.rows with
  | nil => rfl
  | cons item rows ih =>
    rw [List.map_cons, List.filter_cons, List.filter_cons, ih]
    by_cases hitem : item.1 = nodeId
    · simp [hitem]
    · simp [hitem]

section Slower

variable {durationsNs : Durations} {item : String × ℤ} {durationNs : ℤ}

/-- The durations from that of a flagged node on are few. -/
theorem two_mul_countP_slower (hitem : item ∈ durationsNs.rows)
    (hflagged : (durationsNs.rankedNode item).flagged) {f : String × ℤ → ℚ} {bound : ℚ}
    (hf : ∀ other ∈ durationsNs.rows, bound ≤ f other →
      |(item.2 : ℚ) - durationsNs.median| ≤ |(other.2 : ℚ) - durationsNs.median|) :
    2 * (durationsNs.rows.countP fun other => bound ≤ f other) < durationsNs.rows.length :=
  two_mul_countP_lt (List.ne_nil_of_mem hitem) fun other hother h =>
    (outlying_of_flagged hflagged).2.trans_le (hf other hother (of_decide_eq_true h))

theorem median_set (hitem : item ∈ durationsNs.rows)
    (hflagged : (durationsNs.rankedNode item).flagged) (hslower : item.2 < durationNs) :
    (durationsNs.set item.1 durationNs).median = durationsNs.median := by
  have habove := (outlying_of_flagged hflagged).1
  rw [median, median, rows_set, List.map_map]
  symm
  refine @median_congr_above _ _ _ _ _ _ _ _ (item.2 : ℚ) (fun other hother => ?_)
    (two_mul_countP_slower hitem hflagged fun other _ h => ?_)
  · by_cases hname : other.1 = item.1
    · -- a name has one duration
      have heq := List.inj_on_of_nodup_map durationsNs.keys_nodup hother hitem hname
      subst heq
      refine .inr ⟨le_rfl, ?_⟩
      simp only [Function.comp_apply, if_true, Int.cast_le]
      exact hslower.le
    · simp only [Function.comp_apply, if_neg hname, true_or]
  · rw [abs_of_pos (sub_pos.mpr habove), abs_of_pos (sub_pos.mpr (habove.trans_le h))]
    exact sub_le_sub_right h _

theorem mad_set (hitem : item ∈ durationsNs.rows)
    (hflagged : (durationsNs.rankedNode item).flagged) (hslower : item.2 < durationNs) :
    (durationsNs.set item.1 durationNs).mad = durationsNs.mad := by
  have habove := (outlying_of_flagged hflagged).1
  rw [mad_eq, mad_eq, medianDeviation, medianDeviation, median_set hitem hflagged hslower, rows_set,
    List.map_map]
  congr 1
  symm
  refine @median_congr_above _ _ _ _ _ _ _ _ |(item.2 : ℚ) - durationsNs.median|
    (fun other hother => ?_) (two_mul_countP_slower hitem hflagged fun other _ h => h)
  by_cases hname : other.1 = item.1
  · have heq := List.inj_on_of_nodup_map durationsNs.keys_nodup hother hitem hname
    subst heq
    refine .inr ⟨le_rfl, ?_⟩
    have hslower := Int.cast_lt (R := ℚ).mpr hslower
    simp only [Function.comp_apply, if_true]
    rw [abs_of_pos (sub_pos.mpr habove), abs_of_pos (sub_pos.mpr (habove.trans hslower))]
    exact sub_le_sub_right hslower.le _
  · simp only [Function.comp_apply, if_neg hname, true_or]

end Slower

end Durations

/-- A flagged node that gets slower stays flagged, with a larger z-score, and all
that the ranking says of the other nodes stays as it is. -/
theorem rankStragglers_no_masking (jobId : String) (phaseIndex : ℕ) (durationsNs : Durations)
    (hn : minReportingNodes ≤ durationsNs.rows.length) {node : RankedNode}
    (hnode : node ∈ (rankStragglers jobId phaseIndex durationsNs).rankedNodes)
    (hflagged : node.flagged) {durationNs : ℤ} (hslower : node.durationNs < durationNs) :
    let before := rankStragglers jobId phaseIndex durationsNs
    let after := rankStragglers jobId phaseIndex (durationsNs.set node.nodeId durationNs)
    (∃ node' ∈ after.rankedNodes, node'.nodeId = node.nodeId ∧ node'.durationNs = durationNs
        ∧ node'.flagged ∧ node.zScore < node'.zScore)
      ∧ after.rankedNodes.filter (fun other => other.nodeId ≠ node.nodeId)
        = before.rankedNodes.filter fun other => other.nodeId ≠ node.nodeId := by
  have hn' : minReportingNodes ≤ (durationsNs.set node.nodeId durationNs).rows.length := by
    rwa [Durations.rows_set, List.length_map]
  rw [rankStragglers_eq hn] at hnode
  rw [rankStragglers_eq hn, rankStragglers_eq hn']
  obtain ⟨item, hitem, rfl⟩ := mem_rankedNodes.mp hnode
  simp only [Durations.rankedNode_nodeId, Durations.rankedNode_durationNs,
    Durations.rankedNode_zScore] at hslower ⊢
  have hz : ∀ d, (durationsNs.set item.1 durationNs).zScore d = durationsNs.zScore d :=
    Durations.zScore_congr (Durations.median_set hitem hflagged hslower)
      (Durations.mad_set hitem hflagged hslower)
  refine ⟨?_, ?_⟩
  · refine ⟨_, mem_rankedNodes.mpr ⟨(item.1, durationNs), ?_, rfl⟩, rfl, rfl, ?_, ?_⟩
    · exact List.mem_map.mpr ⟨item, hitem, if_pos rfl⟩
    · rw [Durations.rankedNode_congr (hz _)]
      have hbefore : madZThreshold < durationsNs.zScore item.2 := of_decide_eq_true hflagged
      exact decide_eq_true (hbefore.trans (durationsNs.zScore_strictMono hslower))
    · rw [Durations.rankedNode_zScore, hz]
      exact durationsNs.zScore_strictMono hslower
  · -- the other items are sorted alike, and their records agree
    have htotal : Std.Total fun a b : String × ℤ => durationKey a ≤ durationKey b :=
      ⟨fun a b => le_total (durationKey a) (durationKey b)⟩
    have htrans : IsTrans (String × ℤ) fun a b => durationKey a ≤ durationKey b :=
      ⟨fun _ _ _ => le_trans⟩
    have hsort :
        (byDuration (durationsNs.set item.1 durationNs)).filter (fun other => other.1 ≠ item.1)
          = (byDuration durationsNs).filter fun other => other.1 ≠ item.1 := by
      rw [byDuration, byDuration, filter_insertionSort, filter_insertionSort,
        Durations.filter_rows_set]
    have hrecords : (durationsNs.set item.1 durationNs).rankedNode = durationsNs.rankedNode :=
      funext fun other => Durations.rankedNode_congr (hz _)
    rw [rankedNodes_eq_map, rankedNodes_eq_map, List.filter_map, List.filter_map, hrecords]
    exact congrArg (List.map durationsNs.rankedNode) hsort

theorem rankStragglers_no_masking_example :
    let before := rankStragglers "job-1" 0 fiveNodes
    let after := rankStragglers "job-1" 0 (fiveNodes.set "node-e" 900000000)
    (∃ node' ∈ after.rankedNodes, node'.nodeId = "node-e" ∧ node'.durationNs = 900000000
        ∧ node'.flagged ∧ fiveNodes.zScore 400000000 < node'.zScore)
      ∧ after.rankedNodes.filter (fun other => other.nodeId ≠ "node-e")
        = before.rankedNodes.filter fun other => other.nodeId ≠ "node-e" :=
  @rankStragglers_no_masking "job-1" 0 fiveNodes (by decide)
    (fiveNodes.rankedNode ("node-e", 400000000)) (by decide +kernel) (by decide +kernel) 900000000
    (by decide)

/-! ### One more node at the median -/

namespace Durations

/-- The same fleet and one more node. -/
def withDuplicate (durationsNs : Durations) (nodeId : String) (durationNs : ℤ) : Durations :=
  durationsNs.insertIgnore (nodeId, durationNs)

section Duplicate

variable {durationsNs : Durations} {item : String × ℤ} {nodeId : String}

theorem rows_duplicate (hfresh : nodeId ∉ durationsNs.keys) :
    (durationsNs.withDuplicate nodeId item.2).rows = durationsNs.rows ++ [(nodeId, item.2)] :=
  KeyedTable.rows_insertIgnore_of_notMem hfresh

theorem median_duplicate (hitem : item ∈ durationsNs.rows)
    (hmedian : (item.2 : ℚ) = durationsNs.median) (hfresh : nodeId ∉ durationsNs.keys) :
    (durationsNs.withDuplicate nodeId item.2).median = durationsNs.median := by
  have hmem : durationsNs.median ∈ durationsNs.rows.map fun other => (other.2 : ℚ) := by
    rw [← hmedian]
    exact List.mem_map_of_mem hitem
  have hperm : ((durationsNs.rows ++ [(nodeId, item.2)]).map fun other => (other.2 : ℚ)).Perm
      (durationsNs.median :: durationsNs.rows.map fun other => (other.2 : ℚ)) := by
    rw [List.map_append, ← hmedian]
    exact List.perm_append_singleton _ _
  rw [median, rows_duplicate hfresh, median_perm hperm]
  exact median_cons_median hmem

theorem mad_duplicate_le (hitem : item ∈ durationsNs.rows)
    (hmedian : (item.2 : ℚ) = durationsNs.median) (hfresh : nodeId ∉ durationsNs.keys) :
    (durationsNs.withDuplicate nodeId item.2).mad ≤ durationsNs.mad := by
  have hperm : ((durationsNs.rows ++ [(nodeId, item.2)]).map
        fun other => |(other.2 : ℚ) - durationsNs.median|).Perm
      (0 :: durationsNs.rows.map fun other => |(other.2 : ℚ) - durationsNs.median|) := by
    rw [List.map_append, List.map_singleton, hmedian, sub_self, abs_zero]
    exact List.perm_append_singleton _ _
  rw [mad_eq, mad_eq, medianDeviation, median_duplicate hitem hmedian hfresh,
    rows_duplicate hfresh, median_perm hperm]
  refine max_le_max_right _ (median_cons_zero_le (fun deviation hdeviation => ?_) ?_)
  · obtain ⟨other, _, rfl⟩ := List.mem_map.mp hdeviation
    exact abs_nonneg _
  · intro hnil
    exact List.ne_nil_of_mem hitem (List.map_eq_nil_iff.mp hnil)

end Duplicate

end Durations

/-- With one more node at the median the candidate is still the first node there
was, if that is flagged now. -/
theorem topCandidate_duplicate {jobId : String} {phaseIndex : ℕ} {durationsNs : Durations}
    (hn : minReportingNodes ≤ durationsNs.rows.length) {item : String × ℤ}
    (hitem : item ∈ durationsNs.rows) (hmedian : (item.2 : ℚ) = durationsNs.median)
    {nodeId : String} (hfresh : nodeId ∉ durationsNs.keys) {first : String × ℤ}
    (hhead : (byDuration durationsNs).head? = some first) :
    (rankStragglers jobId phaseIndex (durationsNs.withDuplicate nodeId item.2)).topCandidate
      = if ((durationsNs.withDuplicate nodeId item.2).rankedNode first).flagged
        then some first.1 else none := by
  have hmedian' := Durations.median_duplicate hitem hmedian hfresh
  have hrows := @Durations.rows_duplicate durationsNs item nodeId hfresh
  have hn' : minReportingNodes ≤ (durationsNs.withDuplicate nodeId item.2).rows.length := by
    rw [hrows, List.length_append]
    omega
  obtain ⟨hfirst, hleast⟩ := head?_byDuration_eq_some_iff.mp hhead
  by_cases hbefore : durationKey first ≤ durationKey (nodeId, item.2)
  · -- the first node stays the first
    refine topCandidate_eq hn' (head?_byDuration_eq_some_iff.mpr ⟨?_, fun other hother => ?_⟩)
    · rw [hrows]
      exact List.mem_append_left _ hfirst
    · rw [hrows] at hother
      rcases List.mem_append.mp hother with hother | hother
      · exact hleast other hother
      · rwa [List.mem_singleton.mp hother]
  · -- the new node is the first, and no node is above the median
    have hle := Int.cast_le (R := ℚ).mpr (duration_le_of_durationKey_le (not_le.mp hbefore).le)
    have hhead' : (byDuration (durationsNs.withDuplicate nodeId item.2)).head?
        = some (nodeId, item.2) := by
      rw [head?_byDuration_eq_some_iff, hrows]
      refine ⟨List.mem_append_right _ (List.mem_singleton_self _), fun other hother => ?_⟩
      rcases List.mem_append.mp hother with hother | hother
      · exact (not_le.mp hbefore).le.trans (hleast other hother)
      · rw [List.mem_singleton.mp hother]
    have hnone : ∀ other : String × ℤ, (other.2 : ℚ) ≤ item.2 →
        ¬ ((durationsNs.withDuplicate nodeId item.2).rankedNode other).flagged := by
      intro other hother hflagged
      have habove := (Durations.outlying_of_flagged hflagged).1
      rw [hmedian', ← hmedian] at habove
      exact absurd hother (not_le.mpr habove)
    rw [topCandidate_eq hn' hhead', if_neg (hnone (nodeId, item.2) le_rfl),
      if_neg (hnone first hle)]

/-- One more node at the median.  The median stays and the deviation does not
grow, so a candidate stays the candidate.  Where there was none, the first of the
ranking may become one: just if it is beyond the threshold for the smaller
deviation and was not for the larger one. -/
theorem rankStragglers_duplicate (jobId : String) (phaseIndex : ℕ) (durationsNs : Durations)
    (hn : minReportingNodes ≤ durationsNs.rows.length) {item : String × ℤ}
    (hitem : item ∈ durationsNs.rows) (hmedian : (item.2 : ℚ) = durationsNs.median)
    {nodeId : String} (hfresh : nodeId ∉ durationsNs.keys) :
    let durationsNs' := durationsNs.withDuplicate nodeId item.2
    let before := rankStragglers jobId phaseIndex durationsNs
    let after := rankStragglers jobId phaseIndex durationsNs'
    durationsNs'.median = durationsNs.median ∧ durationsNs'.mad ≤ durationsNs.mad
      ∧ (before.topCandidate ≠ none → after.topCandidate = before.topCandidate)
      ∧ (before.topCandidate = none → after.topCandidate ≠ none →
        after.topCandidate = before.rankedNodes.head?.map (·.nodeId))
      ∧ (after.topCandidate ≠ before.topCandidate ↔ ∃ first ∈ before.rankedNodes.head?,
        madZThreshold * durationsNs'.mad < madConstant * (first.durationNs - durationsNs.median)
          ∧ madConstant * (first.durationNs - durationsNs.median)
            ≤ madZThreshold * durationsNs.mad) := by
  have hthreshold : (0 : ℚ) < madZThreshold := by norm_num [madZThreshold]
  have hmad' := Durations.mad_duplicate_le hitem hmedian hfresh
  have hbound := mul_le_mul_of_nonneg_left hmad' hthreshold.le
  obtain ⟨first, hhead⟩ := exists_head?_byDuration (Durations.rows_ne_nil hn)
  have hheadNode : (rankStragglers jobId phaseIndex durationsNs).rankedNodes.head?
      = some (durationsNs.rankedNode first) := by
    rw [rankStragglers_eq hn]
    show (rankedNodes durationsNs).head? = _
    rw [rankedNodes_eq_map, List.head?_map, hhead]
    rfl
  refine ⟨Durations.median_duplicate hitem hmedian hfresh, hmad', ?_⟩
  rw [hheadNode, topCandidate_eq hn hhead, topCandidate_duplicate hn hitem hmedian hfresh hhead]
  simp only [Option.mem_some_iff, exists_eq_left', Option.map_some, Durations.rankedNode_nodeId,
    Durations.rankedNode_durationNs, Durations.flagged_iff,
    Durations.median_duplicate hitem hmedian hfresh]
  -- one score against two thresholds, the second of which is not the larger one
  generalize madConstant * ((first.2 : ℚ) - durationsNs.median) = score
  generalize madZThreshold * durationsNs.mad = threshold at *
  generalize madZThreshold * (durationsNs.withDuplicate nodeId item.2).mad = threshold' at *
  rcases lt_or_ge threshold score with hbefore | hbefore
  · rw [if_pos hbefore, if_pos (hbound.trans_lt hbefore)]
    refine ⟨fun _ => rfl, fun hnone => ?_, iff_of_false (fun hne => hne rfl) ?_⟩
    · cases hnone
    · intro h
      exact absurd hbefore (not_lt.mpr h.2)
  · rw [if_neg (not_lt.mpr hbefore)]
    refine ⟨fun hne => absurd rfl hne, fun _ => ?_, ?_⟩
    · split_ifs
      · intro _
        rfl
      · intro hne
        exact absurd rfl hne
    · split_ifs with hafter
      · exact iff_of_true (Option.some_ne_none _) ⟨hafter, hbefore⟩
      · exact iff_of_false (fun hne => hne rfl) fun h => hafter h.1

theorem rankStragglers_duplicate_example :
    let durationsNs' := fiveNodes.withDuplicate "node-f" 101000000
    let before := rankStragglers "job-1" 0 fiveNodes
    let after := rankStragglers "job-1" 0 durationsNs'
    durationsNs'.median = fiveNodes.median ∧ durationsNs'.mad ≤ fiveNodes.mad
      ∧ (before.topCandidate ≠ none → after.topCandidate = before.topCandidate)
      ∧ (before.topCandidate = none → after.topCandidate ≠ none →
        after.topCandidate = before.rankedNodes.head?.map (·.nodeId))
      ∧ (after.topCandidate ≠ before.topCandidate ↔ ∃ first ∈ before.rankedNodes.head?,
        madZThreshold * durationsNs'.mad < madConstant * (first.durationNs - fiveNodes.median)
          ∧ madConstant * (first.durationNs - fiveNodes.median) ≤ madZThreshold * fiveNodes.mad) :=
  @rankStragglers_duplicate "job-1" 0 fiveNodes (by decide) ("node-d", 101000000) (by decide)
    (by decide +kernel) "node-f" (by decide)

/-- Three nodes without a candidate.  With a second node at the median the slowest
one is beyond the threshold. -/
theorem rankStragglers_duplicate_counterexample :
    let base : Durations :=
      ⟨[("node-a", 100000000), ("node-b", 90000000), ("node-c", 130000000)], by decide⟩
    minReportingNodes ≤ base.rows.length ∧ ("node-a", 100000000) ∈ base.rows
      ∧ ((100000000 : ℤ) : ℚ) = base.median ∧ "node-d" ∉ base.keys
      ∧ (rankStragglers "job-3" 0 base).topCandidate = none
      ∧ (rankStragglers "job-3" 0 (base.withDuplicate "node-d" 100000000)).topCandidate
        = some "node-c" := by
  decide +kernel

end Analysis
