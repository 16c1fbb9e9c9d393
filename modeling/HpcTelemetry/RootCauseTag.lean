/-
What a root-cause tag says of the readings (`_relative_delta` in `hpctel/api.py`
and `tag_root_cause` in `hpctel/analysis/straggler.py`).

* `Reading.delta_eq_some_iff` — the relative delta of a reading, by cases;
* `tagOf_cases` — the tag is that of the first of the largest deltas;
* `earned_iff` — the tagged metric rose, and rose most, unless the first metric
  with a baseline of zero and another value during the phase fell.
-/
import HpcTelemetry.RootCauseDrift

namespace Api

open Analysis OrderStatistics

/-! ### Readings and deltas -/

/-- What was read of a metric before a phase and during it. -/
structure Reading where
  baseline : Option ℚ
  during : Option ℚ
  deriving DecidableEq

namespace Reading

/-- The relative delta. -/
def delta (r : Reading) : Option Double :=
  relativeDelta (r.baseline.map .finite) (r.during.map .finite)

/-- From zero to something else. -/
def Jumps (r : Reading) : Prop := r.baseline = some 0 ∧ ∃ d ∈ r.during, d ≠ 0

instance (r : Reading) : Decidable r.Jumps := inferInstanceAs (Decidable (_ ∧ _))

/-- A value that exceeds the baseline by more than a quarter. -/
def Rose (b d : ℚ) : Prop := rootCauseRelativeThreshold * |b| < d - b

/-- The relative increase from `b` to `d`.  From zero it is infinite, to either
side. -/
def increase (b d : ℚ) : Double :=
  if b = 0 then if 0 < d then .posInf else if d < 0 then .negInf else .finite 0
  else .finite ((d - b) / |b|)

theorem delta_eq_some_iff {r : Reading} {δ : Double} :
    r.delta = some δ ↔ ∃ b d, r.baseline = some b ∧ r.during = some d ∧
      (b = 0 ∧ d ≠ 0 ∧ δ = .posInf ∨ b ≠ 0 ∧ δ = .finite ((d - b) / |b|)) := by
  obtain ⟨baseline, during⟩ := r
  cases baseline with
  | none => simp [delta, relativeDelta]
  | some b =>
    cases during with
    | none => simp [delta, relativeDelta]
    | some d =>
      simp only [delta, relativeDelta, Option.map_some, Option.some.injEq, Double.finite.injEq,
        exists_and_left, exists_eq_left']
      by_cases hb : b = 0
      · by_cases hd : d = 0
        · simp [hb, hd]
        · simp [hb, hd, eq_comm]
      · simp [hb, Double.sub, Double.neg, Double.add, Double.abs, Double.div, sub_eq_add_neg,
          eq_comm]

theorem jumps_iff {r : Reading} : r.Jumps ↔ r.delta = some .posInf := by
  rw [delta_eq_some_iff]
  constructor
  · rintro ⟨hb, d, hd, hne⟩
    exact ⟨0, d, hb, hd, .inl ⟨rfl, hne, rfl⟩⟩
  · rintro ⟨b, d, hb, hd, ⟨rfl, hne, _⟩ | ⟨_, h⟩⟩
    · exact ⟨hb, d, hd, hne⟩
    · cases h

end Reading

/-! ### The tag -/

/-- The tag that three readings get. -/
def tagOf (cpu iowait net : Reading) : RootCause :=
  tagRootCause cpu.delta iowait.delta net.delta

/-- The metrics in the order in which they are compared. -/
def metrics (cpu iowait net : Reading) : List (RootCause × Reading) :=
  [(.cpuContention, cpu), (.ioStall, iowait), (.network, net)]

/-- The size of a delta.  Those of readings are finite or infinite upwards. -/
def deltaSize : Double → WithTop ℚ
  | .finite q => q
  | .posInf => ⊤
  | _ => 0

section Tag

variable {cpu iowait net : Reading}

theorem lt_iff_of_delta {r r' : Reading} {δ δ' : Double} (h : r.delta = some δ)
    (h' : r'.delta = some δ') : δ.lt δ' = true ↔ deltaSize δ < deltaSize δ' := by
  obtain ⟨_, _, _, _, ⟨_, _, rfl⟩ | ⟨_, rfl⟩⟩ := Reading.delta_eq_some_iff.mp h
  · obtain ⟨_, _, _, _, ⟨_, _, rfl⟩ | ⟨_, rfl⟩⟩ := Reading.delta_eq_some_iff.mp h'
    · simp [Double.lt, deltaSize]
    · simp [Double.lt, deltaSize]
  · obtain ⟨_, _, _, _, ⟨_, _, rfl⟩ | ⟨_, rfl⟩⟩ := Reading.delta_eq_some_iff.mp h'
    · simp [Double.lt, deltaSize]
    · simp [Double.lt, deltaSize]

theorem mem_metrics_ne_unknown {m : RootCause × Reading} (hm : m ∈ metrics cpu iowait net) :
    m.1 ≠ .unknown := by
  simp only [metrics, List.mem_cons, List.not_mem_nil, or_false] at hm
  rcases hm with rfl | rfl | rfl
  · exact fun h => by cases h
  · exact fun h => by cases h
  · exact fun h => by cases h

theorem eq_of_mem_metrics {m m' : RootCause × Reading} (hm : m ∈ metrics cpu iowait net)
    (hm' : m' ∈ metrics cpu iowait net) (htag : m.1 = m'.1) : m = m' := by
  have htags : ((metrics cpu iowait net).map Prod.fst).Nodup :=
    (by decide : [RootCause.cpuContention, .ioStall, .network].Nodup)
  exact List.inj_on_of_nodup_map htags hm hm' htag

theorem finite_lt_iff_of_delta {r : Reading} {δ : Double} (h : r.delta = some δ) (q : ℚ) :
    (Double.finite q).lt δ = true ↔ (q : WithTop ℚ) < deltaSize δ := by
  obtain ⟨_, _, _, _, ⟨_, _, rfl⟩ | ⟨_, rfl⟩⟩ := Reading.delta_eq_some_iff.mp h
  · simp [Double.lt, deltaSize]
  · simp [Double.lt, deltaSize]

/-- The readings that have a delta, with it. -/
def measurable (ms : List (RootCause × Reading)) : List (RootCause × Double) :=
  ms.filterMap fun m => m.2.delta.map fun δ => (m.1, δ)

theorem mem_measurable {ms : List (RootCause × Reading)} {a : RootCause × Double} :
    a ∈ measurable ms ↔ ∃ m ∈ ms, m.1 = a.1 ∧ m.2.delta = some a.2 := by
  rw [measurable, List.mem_filterMap]
  refine exists_congr fun m => and_congr_right fun _ => ?_
  rw [Option.map_eq_some_iff]
  constructor
  · rintro ⟨δ, hδ, rfl⟩
    exact ⟨rfl, hδ⟩
  · rintro ⟨htag, hδ⟩
    exact ⟨a.2, hδ, Prod.ext htag rfl⟩

/-- The reading has the first of the largest deltas. -/
structure FirstLargest (ms : List (RootCause × Reading)) (tag : RootCause) (r : Reading)
    (δ : Double) : Prop where
  delta : r.delta = some δ
  split : ∃ before after, ms = before ++ (tag, r) :: after
    ∧ (∀ m ∈ before, ∀ δ', m.2.delta = some δ' → deltaSize δ' < deltaSize δ)
    ∧ ∀ m ∈ after, ∀ δ', m.2.delta = some δ' → deltaSize δ' ≤ deltaSize δ

section FirstLargest

variable {ms : List (RootCause × Reading)} {tag : RootCause} {r : Reading} {δ : Double}

theorem FirstLargest.mem (h : FirstLargest ms tag r δ) : (tag, r) ∈ ms := by
  obtain ⟨before, after, rfl, _⟩ := h.split
  exact List.mem_append_right _ List.mem_cons_self

theorem FirstLargest.deltaSize_le (h : FirstLargest ms tag r δ) {m : RootCause × Reading}
    (hm : m ∈ ms) {δ' : Double} (hδ' : m.2.delta = some δ') : deltaSize δ' ≤ deltaSize δ := by
  obtain ⟨before, after, rfl, hless, hmore⟩ := h.split
  rcases List.mem_append.mp hm with hm | hm
  · exact (hless m hm δ' hδ').le
  · rcases List.mem_cons.mp hm with rfl | hm
    · rw [Option.some_inj.mp (h.delta.symm.trans hδ')]
    · exact hmore m hm δ' hδ'

/-- It is the one that the scan of the measurable ones finds. -/
theorem exists_firstLargest {best : RootCause × Double}
    (h : firstBest (fun a b => b.2.lt a.2) (measurable ms) = some best) :
    ∃ r, FirstLargest ms best.1 r best.2 := by
  have hbetter : ∀ a ∈ measurable ms, ∀ b ∈ measurable ms,
      b.2.lt a.2 = true ↔ deltaSize b.2 < deltaSize a.2 := by
    intro a ha b hb
    obtain ⟨m, _, _, hm⟩ := mem_measurable.mp ha
    obtain ⟨m', _, _, hm'⟩ := mem_measurable.mp hb
    exact lt_iff_of_delta hm' hm
  obtain ⟨mb, ma, hsplit, hmb, hma⟩ :=
    @firstBest_split _ _ _ (fun a => deltaSize a.2) _ _ _ hbetter h
  -- the split of the measurable readings comes from one of the readings
  obtain ⟨before, rest, rfl, hbefore, hrest⟩ := List.filterMap_eq_append_iff.mp hsplit
  obtain ⟨skipped, ⟨tag, r⟩, after, rfl, hskipped, hbest, hafter⟩ :=
    List.filterMap_eq_cons_iff.mp hrest
  obtain ⟨δ, hδ, rfl⟩ := Option.map_eq_some_iff.mp hbest
  refine ⟨r, hδ, before ++ skipped, after, (List.append_assoc _ _ _).symm, ?_, ?_⟩
  · intro m hm δ' hδ'
    rcases List.mem_append.mp hm with hm | hm
    · refine hmb (m.1, δ') ?_
      rw [← hbefore]
      exact mem_measurable.mpr ⟨m, hm, rfl, hδ'⟩
    · have hnone := hskipped m hm
      rw [hδ'] at hnone
      cases hnone
  · intro m hm δ' hδ'
    refine hma (m.1, δ') ?_
    rw [← hafter]
    exact mem_measurable.mpr ⟨m, hm, rfl, hδ'⟩

end FirstLargest

/-- The tag is that of the first of the largest deltas, if that is above the
threshold. -/
theorem tagOf_cases :
    (tagOf cpu iowait net = .unknown ∧ ∀ m ∈ metrics cpu iowait net, ¬ Rises m.2.delta) ∨
      ∃ tag r δ, FirstLargest (metrics cpu iowait net) tag r δ ∧ tagOf cpu iowait net = tag
        ∧ (Double.finite rootCauseRelativeThreshold).lt δ = true := by
  have htag : tagOf cpu iowait net
      = match firstBest (fun a b => b.2.lt a.2) (measurable (metrics cpu iowait net)) with
        | none => .unknown
        | some (bestTag, bestDelta) =>
          if (Double.finite rootCauseRelativeThreshold).lt bestDelta then bestTag
          else .unknown := rfl
  cases hbest : firstBest (fun a b => b.2.lt a.2) (measurable (metrics cpu iowait net)) with
  | none =>
    -- nothing was measurable
    rw [hbest] at htag
    refine .inl ⟨htag, fun m hm hrises => ?_⟩
    obtain ⟨δ, hδ, _⟩ := hrises
    have hmem : (m.1, δ) ∈ measurable (metrics cpu iowait net) :=
      mem_measurable.mpr ⟨m, hm, rfl, hδ⟩
    obtain ⟨x, hx⟩ := @exists_firstBest _ (fun a b => b.2.lt a.2) _ (List.ne_nil_of_mem hmem)
    rw [hbest] at hx
    cases hx
  | some best =>
    obtain ⟨r, hlargest⟩ := exists_firstLargest hbest
    rw [hbest] at htag
    cases hlt : (Double.finite rootCauseRelativeThreshold).lt best.2 with
    | true => exact .inr ⟨best.1, r, best.2, hlargest, htag.trans (if_pos hlt), hlt⟩
    | false =>
      refine .inl ⟨htag.trans (if_neg (by rw [hlt]; decide)), fun m hm hrises => ?_⟩
      -- the largest delta would be above the threshold, too
      obtain ⟨δ, hδ, hlt'⟩ := hrises
      have hsize := (finite_lt_iff_of_delta hδ _).mp hlt'
      have hsize' := hsize.trans_le (hlargest.deltaSize_le hm hδ)
      rw [(finite_lt_iff_of_delta hlargest.delta _).mpr hsize'] at hlt
      cases hlt

/-- What a tag promises: the tagged metric was read before and during the phase, it
rose by more than a quarter, and none that was read rose more; and without a tag no
metric that was read rose by more than a quarter. -/
structure Earned (cpu iowait net : Reading) : Prop where
  tagged : ∀ m ∈ metrics cpu iowait net, tagOf cpu iowait net = m.1 →
    ∃ b d, m.2.baseline = some b ∧ m.2.during = some d ∧ Reading.Rose b d ∧
      ∀ m' ∈ metrics cpu iowait net, ∀ b' d', m'.2.baseline = some b' → m'.2.during = some d' →
        (Reading.increase b d).lt (Reading.increase b' d') = false
  unknown : tagOf cpu iowait net = .unknown →
    ∀ m ∈ metrics cpu iowait net, ∀ b d, m.2.baseline = some b → m.2.during = some d →
      ¬ Reading.Rose b d

/-- The first of the metrics that was zero before the phase and is not during it is
above zero. -/
def FirstJumpUp (cpu iowait net : Reading) : Prop :=
  ∀ r ∈ [cpu, iowait, net].find? fun r => r.Jumps, ∃ d ∈ r.during, 0 < d

theorem rises_of_rose {r : Reading} {b d : ℚ} (hb : r.baseline = some b) (hd : r.during = some d)
    (h : Reading.Rose b d) : Rises r.delta := by
  rw [Reading.Rose] at h
  by_cases hzero : b = 0
  · rw [hzero, abs_zero, mul_zero, sub_zero] at h
    exact ⟨.posInf, Reading.jumps_iff.mp ⟨hzero ▸ hb, d, hd, h.ne'⟩, rfl⟩
  · refine ⟨_, Reading.delta_eq_some_iff.mpr ⟨b, d, hb, hd, .inr ⟨hzero, rfl⟩⟩, ?_⟩
    exact decide_eq_true ((lt_div_iff₀ (abs_pos.mpr hzero)).mpr h)

/-- The increase of a metric that rose is not exceeded by that of a smaller delta. -/
theorem increase_not_lt {r r' : Reading} {δ : Double} {b d b' d' : ℚ} (hδ : r.delta = some δ)
    (hb : r.baseline = some b) (hd : r.during = some d) (hrose : Reading.Rose b d)
    (hb' : r'.baseline = some b') (hd' : r'.during = some d')
    (hle : ∀ δ', r'.delta = some δ' → deltaSize δ' ≤ deltaSize δ) :
    (Reading.increase b d).lt (Reading.increase b' d') = false := by
  rw [Reading.Rose] at hrose
  by_cases hzero : b = 0
  · rw [hzero, abs_zero, mul_zero, sub_zero] at hrose
    rw [Reading.increase, if_pos hzero, if_pos hrose]
    rfl
  · have hfinite := Reading.delta_eq_some_iff.mpr ⟨b, d, hb, hd, .inr ⟨hzero, rfl⟩⟩
    rw [hfinite, Option.some_inj] at hδ
    subst hδ
    have hq : 0 < (d - b) / |b| := by
      have hthreshold : 0 ≤ rootCauseRelativeThreshold * |b| :=
        mul_nonneg (by norm_num [rootCauseRelativeThreshold]) (abs_nonneg b)
      exact div_pos (hthreshold.trans_lt hrose) (abs_pos.mpr hzero)
    rw [Reading.increase, if_neg hzero]
    by_cases hzero' : b' = 0
    · by_cases hd0 : d' = 0
      · -- from zero to zero
        rw [Reading.increase, if_pos hzero', hd0, if_neg (lt_irrefl 0), if_neg (lt_irrefl 0)]
        exact decide_eq_false hq.not_gt
      · have htop := hle _ (Reading.jumps_iff.mp ⟨hzero' ▸ hb', d', hd', hd0⟩)
        exact absurd htop (not_le.mpr (WithTop.coe_lt_top _))
    · have hsize := hle _
        (Reading.delta_eq_some_iff.mpr ⟨b', d', hb', hd', .inr ⟨hzero', rfl⟩⟩)
      rw [Reading.increase, if_neg hzero']
      exact decide_eq_false (not_lt.mpr (WithTop.coe_le_coe.mp hsize))

/-- Nothing is larger than a jump, so the first of the largest is the first jump. -/
theorem find?_jumps_eq {tag : RootCause} {r : Reading} {δ : Double}
    (h : FirstLargest (metrics cpu iowait net) tag r δ) (hr : r.Jumps) :
    [cpu, iowait, net].find? (fun r => r.Jumps) = some r := by
  obtain rfl := Option.some_inj.mp (h.delta.symm.trans (Reading.jumps_iff.mp hr))
  obtain ⟨before, after, hsplit, hless, _⟩ := h.split
  have hlist := congrArg (List.map Prod.snd) hsplit
  rw [List.map_append, List.map_cons] at hlist
  refine List.find?_eq_some_iff_append.mpr ⟨decide_eq_true hr, _, _, hlist, fun r' hr' => ?_⟩
  obtain ⟨m, hm, rfl⟩ := List.mem_map.mp hr'
  rw [Bool.not_eq_true', decide_eq_false_iff_not]
  intro hjumps
  exact lt_irrefl _ (hless m hm .posInf (Reading.jumps_iff.mp hjumps))

/-- When a reading jumps, the first of the largest deltas is one of a jump. -/
theorem jumps_of_firstLargest {m : RootCause × Reading} (hm : m ∈ metrics cpu iowait net)
    (hjumps : m.2.Jumps) {tag : RootCause} {r : Reading} {δ : Double}
    (h : FirstLargest (metrics cpu iowait net) tag r δ) : r.Jumps := by
  have htop : deltaSize δ = ⊤ :=
    top_le_iff.mp (h.deltaSize_le hm (Reading.jumps_iff.mp hjumps))
  rw [Reading.jumps_iff, h.delta]
  obtain ⟨_, _, _, _, ⟨_, _, rfl⟩ | ⟨_, rfl⟩⟩ := Reading.delta_eq_some_iff.mp h.delta
  · rfl
  · exact absurd htop WithTop.coe_ne_top

/-- The metric that is tagged rose, unless it jumped down. -/
theorem rose_of_firstLargest (hup : FirstJumpUp cpu iowait net) {tag : RootCause} {r : Reading}
    {δ : Double} (h : FirstLargest (metrics cpu iowait net) tag r δ)
    (hlt : (Double.finite rootCauseRelativeThreshold).lt δ = true) {b d : ℚ}
    (hb : r.baseline = some b) (hd : r.during = some d) : Reading.Rose b d := by
  obtain ⟨b', d', hb', hd', hcases⟩ := Reading.delta_eq_some_iff.mp h.delta
  obtain rfl := Option.some_inj.mp (hb.symm.trans hb')
  obtain rfl := Option.some_inj.mp (hd.symm.trans hd')
  rw [Reading.Rose]
  rcases hcases with ⟨rfl, hne, rfl⟩ | ⟨hzero, rfl⟩
  · obtain ⟨d', hd', hpos⟩ := hup r (find?_jumps_eq h ⟨hb, d, hd, hne⟩)
    rw [hd, Option.mem_some_iff] at hd'
    rw [abs_zero, mul_zero, sub_zero, hd']
    exact hpos
  · exact (lt_div_iff₀ (abs_pos.mpr hzero)).mp (of_decide_eq_true hlt)

/-- A tag is earned exactly if the first jump, if there is one, goes up. -/
theorem earned_iff (cpu iowait net : Reading) :
    Earned cpu iowait net ↔ FirstJumpUp cpu iowait net := by
  constructor
  · intro hearned r hr
    have hfound := List.find?_some hr
    have hjumps : r.Jumps := of_decide_eq_true hfound
    obtain ⟨m, hm, rfl⟩ : ∃ m ∈ metrics cpu iowait net, m.2 = r :=
      List.mem_map.mp (List.mem_of_find?_eq_some hr)
    rcases @tagOf_cases cpu iowait net with ⟨_, hnone⟩ | ⟨tag, r', δ, hlargest, htag, _⟩
    · exact absurd ⟨.posInf, Reading.jumps_iff.mp hjumps, rfl⟩ (hnone m hm)
    · -- the first jump is tagged, so it has to be earned
      have hjumps' := jumps_of_firstLargest hm hjumps hlargest
      have hfirst := find?_jumps_eq hlargest hjumps'
      rw [hr, Option.some_inj] at hfirst
      obtain ⟨b, d, hb, hd, hrose, _⟩ := hearned.tagged (tag, r') hlargest.mem htag
      rw [hjumps'.1, Option.some_inj] at hb
      rw [Reading.Rose, ← hb, abs_zero, mul_zero, sub_zero] at hrose
      exact ⟨d, hfirst ▸ hd, hrose⟩
  · intro hup
    rcases @tagOf_cases cpu iowait net with ⟨hunknown, hnone⟩ | ⟨tag, r, δ, hlargest, htag, hlt⟩
    · refine ⟨fun m hm htag => ?_, fun _ m hm b d hb hd hrose => ?_⟩
      · exact absurd (htag.symm.trans hunknown) (mem_metrics_ne_unknown hm)
      · exact hnone m hm (rises_of_rose hb hd hrose)
    · obtain ⟨b, d, hb, hd, _⟩ := Reading.delta_eq_some_iff.mp hlargest.delta
      have hrose := rose_of_firstLargest hup hlargest hlt hb hd
      refine ⟨fun m hm htagm => ?_, fun hunknown => ?_⟩
      · rw [← eq_of_mem_metrics hlargest.mem hm (htag.symm.trans htagm)]
        refine ⟨b, d, hb, hd, hrose, fun m' hm' b' d' hb' hd' => ?_⟩
        exact increase_not_lt hlargest.delta hb hd hrose hb' hd' fun δ' hδ' =>
          hlargest.deltaSize_le hm' hδ'
      · exact absurd (htag.symm.trans hunknown) (mem_metrics_ne_unknown hlargest.mem)

/-- The share of time spent waiting fell from zero, as the difference of two counters
can, and is tagged all the same. -/
theorem earned_counterexample :
    tagOf ⟨some 40, some 40⟩ ⟨some 0, some (-1)⟩ ⟨some 100, some 100⟩ = .ioStall
      ∧ ¬ Earned ⟨some 40, some 40⟩ ⟨some 0, some (-1)⟩ ⟨some 100, some 100⟩ := by
  have htag : tagOf ⟨some 40, some 40⟩ ⟨some 0, some (-1)⟩ ⟨some 100, some 100⟩ = .ioStall := by
    decide +kernel
  refine ⟨htag, fun hearned => ?_⟩
  obtain ⟨b, d, hb, hd, hrose, _⟩ := hearned.tagged (.ioStall, ⟨some 0, some (-1)⟩)
    (List.mem_cons_of_mem _ List.mem_cons_self) htag
  rw [← Option.some_inj.mp hb, ← Option.some_inj.mp hd, Reading.Rose] at hrose
  norm_num [rootCauseRelativeThreshold] at hrose

end Tag

end Api
