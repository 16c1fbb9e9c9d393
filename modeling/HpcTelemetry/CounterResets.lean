/-
Counters that are reset (`ReadDiskCounters`, `ReadNetCounters` and the guards of
`ProcReader::Sample`).

The guards compare the totals over all devices, so they see a reset only if the
growth of the other devices does not make up for it.

* `CounterKind` — disk and network, which differ in the file, the line filter
  and the metrics;
* `sum_counterOf` — totals of the second file, device by device of the first;
* `TrueRates` — no rate across a reset, and otherwise the change of the devices
  by the time between the two files;
* `trueRates_iff` — when the rates of a call are true.
-/
import HpcTelemetry.ProcFiles

namespace Agent

open StreamExtraction

/-! ### Two kinds of counters -/

inductive CounterKind where
  | disk
  | net
  deriving DecidableEq

namespace CounterKind

/-- The reader's outcome in what a call reads. -/
def source : CounterKind → ProcReads → Option Counters
  | disk => ProcReads.disk
  | net => ProcReads.net

def idIn : CounterKind → ℕ
  | disk => kMetricDiskReadBytesS
  | net => kMetricNetRxBytesS

def idOut : CounterKind → ℕ
  | disk => kMetricDiskWriteBytesS
  | net => kMetricNetTxBytesS

def unit : CounterKind → ℚ
  | disk => kSectorBytes
  | net => 1

/-- The devices that the file lists: the lines that parse and are not
excluded. -/
def devices (kind : CounterKind) (root : ProcRoot) : List Device :=
  match kind with
  | disk => (root.diskstats.elim [] lines).filterMap diskDevice
  | net => ((root.netDev.elim [] lines).drop 2).filterMap netDevice

/-- A file that lists a device is read, and gives the totals. -/
theorem source_reads (kind : CounterKind) (root : ProcRoot) (nowMonoNs : ℤ) :
    kind.source (root.reads nowMonoNs) =
      if kind.devices root = [] then none else some (totals (kind.devices root)) := by
  cases kind with
  | disk =>
    show root.diskstats.bind readDiskCounters = _
    cases h : root.diskstats with
    | none => simp [devices, h]
    | some text =>
      simp only [devices, h, Option.elim_some, Option.bind_some]
      exact sumDevices_eq diskDevice (lines text)
  | net =>
    show root.netDev.bind readNetCounters = _
    cases h : root.netDev with
    | none => simp [devices, h]
    | some text =>
      simp only [devices, h, Option.elim_some, Option.bind_some]
      exact sumDevices_eq netDevice ((lines text).drop 2)

theorem unit_ne_zero (kind : CounterKind) : kind.unit ≠ 0 := by
  cases kind with
  | disk => norm_num [unit, kSectorBytes]
  | net => exact one_ne_zero

theorem idIn_ne_idOut (kind : CounterKind) : kind.idIn ≠ kind.idOut := by
  cases kind with
  | disk => decide
  | net => decide

end CounterKind

/-! ### Device by device -/

/-- What a list of devices says about one of them. -/
def counterOf (devices : List Device) (name : List Char) : Counters :=
  ((devices.find? fun d => d.1 = name).map Prod.snd).getD {}

theorem counterOf_of_mem {devices : List Device} (hnodup : (devices.map Prod.fst).Nodup)
    {d : Device} (hd : d ∈ devices) : counterOf devices d.1 = d.2 := by
  have hsome : (devices.find? fun d' => d'.1 = d.1).isSome := by
    rw [List.find?_isSome]
    exact ⟨d, hd, by simp⟩
  obtain ⟨d', hd'⟩ := Option.isSome_iff_exists.mp hsome
  have hname : d'.1 = d.1 := by simpa using List.find?_some hd'
  have heq : d' = d := List.inj_on_of_nodup_map hnodup (List.mem_of_find?_eq_some hd') hd hname
  rw [counterOf, hd', heq]
  rfl

/-- Two lists of the same devices. -/
structure SameDevices (first second : List Device) : Prop where
  distinct : (first.map Prod.fst).Nodup
  same : (second.map Prod.fst).Perm (first.map Prod.fst)

theorem SameDevices.distinct' {first second : List Device} (h : SameDevices first second) :
    (second.map Prod.fst).Nodup := h.same.nodup_iff.mpr h.distinct

theorem SameDevices.mem_counterOf {first second : List Device} (h : SameDevices first second)
    {d : Device} (hd : d ∈ first) : (d.1, counterOf second d.1) ∈ second := by
  have hname : d.1 ∈ second.map Prod.fst := h.same.mem_iff.mpr (List.mem_map_of_mem hd)
  obtain ⟨d', hd', hname'⟩ := List.mem_map.mp hname
  rw [← hname', counterOf_of_mem h.distinct' hd']
  exact hd'

/-- The second list summed up in the order of the first. -/
theorem sum_counterOf {first second : List Device} (h : SameDevices first second)
    (counter : Counters → ℕ) :
    (first.map fun d => counter (counterOf second d.1)).sum
      = (second.map fun d => counter d.2).sum := by
  have hsecond : (second.map fun d => counter d.2)
      = (second.map Prod.fst).map fun name => counter (counterOf second name) := by
    rw [List.map_map]
    refine List.map_congr_left fun d hd => ?_
    rw [Function.comp_apply, counterOf_of_mem h.distinct' hd]
  have hfirst : (first.map fun d => counter (counterOf second d.1))
      = (first.map Prod.fst).map fun name => counter (counterOf second name) := by
    rw [List.map_map]
    rfl
  rw [hsecond, hfirst]
  exact (h.same.map _).sum_eq.symm

/-- Amounts that do not shrink add up to the same only if none has grown. -/
theorem sum_map_eq_iff {α : Type*} {l : List α} {f g : α → ℕ} (hle : ∀ x ∈ l, f x ≤ g x) :
    (l.map f).sum = (l.map g).sum ↔ ∀ x ∈ l, f x = g x := by
  induction l with
  | nil => simp
  | cons x l ih =>
    have hx := hle x List.mem_cons_self
    have hl : ∀ y ∈ l, f y ≤ g y := fun y hy => hle y (List.mem_cons_of_mem x hy)
    have hsum : (l.map f).sum ≤ (l.map g).sum := List.sum_le_sum hl
    rw [List.map_cons, List.map_cons, List.sum_cons, List.sum_cons, List.forall_mem_cons,
      ← ih hl]
    omega

/-! ### Rates between two files -/

/-- Some device has a counter that is smaller in the second list. -/
def WentBack (first second : List Device) : Prop :=
  ∃ d ∈ first, ∃ d' ∈ second, d.1 = d'.1 ∧
    (d'.2.inward < d.2.inward ∨ d'.2.outward < d.2.outward)

instance (first second : List Device) : Decidable (WentBack first second) :=
  inferInstanceAs (Decidable (∃ d ∈ first, ∃ d' ∈ second, _))

/-- The increase of a counter, added up over the devices. -/
def increase (counter : Counters → UInt64) (first second : List Device) : ℚ :=
  (first.map fun d => ((counter (counterOf second d.1)).toNat : ℚ) - (counter d.2).toNat).sum

/-- No rate across a reset; otherwise both rates, once each, and each of them the
increase over the devices by the time between the two files. -/
structure TrueRates (kind : CounterKind) (first second : List Device) (elapsedS : ℚ)
    (readings : List MetricReading) : Prop where
  reset : WentBack first second →
    ∀ r ∈ readings, r.metricId ≠ kind.idIn ∧ r.metricId ≠ kind.idOut
  inward : ¬ WentBack first second → ∀ r, (r ∈ readings ∧ r.metricId = kind.idIn) ↔
    r = ⟨kind.idIn, increase Counters.inward first second * kind.unit / elapsedS⟩
  outward : ¬ WentBack first second → ∀ r, (r ∈ readings ∧ r.metricId = kind.idOut) ↔
    r = ⟨kind.idOut, increase Counters.outward first second * kind.unit / elapsedS⟩

/-- The sum of a counter over the devices. -/
def deviceSum (counter : Counters → UInt64) (devices : List Device) : ℕ :=
  (devices.map fun d => (counter d.2).toNat).sum

theorem increase_eq {first second : List Device} (h : SameDevices first second)
    (counter : Counters → UInt64) : increase counter first second
      = (deviceSum counter second : ℚ) - deviceSum counter first := by
  rw [deviceSum, deviceSum, ← sum_counterOf h fun c => (counter c).toNat, increase]
  clear h
  induction first with
  | nil => simp
  | cons d first ih =>
    rw [List.map_cons, List.sum_cons, ih, List.map_cons, List.map_cons, List.sum_cons,
      List.sum_cons]
    push_cast
    ring

/-- Without a reset no counter of a device is smaller. -/
theorem le_of_not_wentBack {first second : List Device} (h : SameDevices first second)
    (hback : ¬ WentBack first second) {d : Device} (hd : d ∈ first) :
    d.2.inward.toNat ≤ (counterOf second d.1).inward.toNat ∧
      d.2.outward.toNat ≤ (counterOf second d.1).outward.toNat := by
  have hnone := fun hlt => hback ⟨d, hd, _, h.mem_counterOf hd, rfl, hlt⟩
  constructor
  · by_contra hlt
    exact hnone (Or.inl (UInt64.lt_iff_toNat_lt.mpr (not_le.mp hlt)))
  · by_contra hlt
    exact hnone (Or.inr (UInt64.lt_iff_toNat_lt.mpr (not_le.mp hlt)))

/-- Without a reset the sums do not fall, and both stay the same only if every
device stays the same. -/
theorem deviceSum_of_not_wentBack {first second : List Device} (h : SameDevices first second)
    (hback : ¬ WentBack first second) :
    deviceSum Counters.inward first ≤ deviceSum Counters.inward second ∧
    deviceSum Counters.outward first ≤ deviceSum Counters.outward second ∧
    ((deviceSum Counters.inward first = deviceSum Counters.inward second ∧
        deviceSum Counters.outward first = deviceSum Counters.outward second) ↔
      ∀ d ∈ first, d ∈ second) := by
  have hle := fun d hd => le_of_not_wentBack (d := d) h hback hd
  simp only [deviceSum]
  rw [← sum_counterOf h fun c => c.inward.toNat, ← sum_counterOf h fun c => c.outward.toNat]
  refine ⟨List.sum_le_sum fun d hd => (hle d hd).1, List.sum_le_sum fun d hd => (hle d hd).2, ?_⟩
  rw [sum_map_eq_iff fun d hd => (hle d hd).1, sum_map_eq_iff fun d hd => (hle d hd).2]
  constructor
  · rintro ⟨hin, hout⟩ d hd
    have hsame : counterOf second d.1 = d.2 :=
      Counters.ext (UInt64.toNat_inj.mp (hin d hd)).symm (UInt64.toNat_inj.mp (hout d hd)).symm
    have hmem := h.mem_counterOf hd
    rwa [hsame] at hmem
  · intro hmem
    constructor
    · intro d hd
      rw [counterOf_of_mem h.distinct' (hmem d hd)]
    · intro d hd
      rw [counterOf_of_mem h.distinct' (hmem d hd)]

/-! ### Runs -/

/-- A call of `Sample`: its clock reading and the files it finds. -/
structure SampleCall where
  nowMonoNs : ℤ
  root : ProcRoot

def SampleCall.reads (call : SampleCall) : ProcReads := call.root.reads call.nowMonoNs

/-- What `Sample` returns when it is called after these calls. -/
def readingsAfter (earlier : List SampleCall) (now : SampleCall) : List MetricReading :=
  ((readerAfter (earlier.map SampleCall.reads)).sample now.reads).1

/-- In a run at strictly increasing times, `first` and `now` are two consecutive
calls that parse the file; the files list the same devices, and their counters
do not overflow. -/
structure ConsecutiveFiles (kind : CounterKind) (before : List SampleCall) (first : SampleCall)
    (between : List SampleCall) (now : SampleCall) : Prop where
  times : (before ++ first :: between ++ [now]).Pairwise fun a b => a.nowMonoNs < b.nowMonoNs
  parsed : kind.devices first.root ≠ []
  unparsed : ∀ call ∈ between, kind.devices call.root = []
  devices : SameDevices (kind.devices first.root) (kind.devices now.root)
  fits : ∀ call ∈ [first, now], deviceSum Counters.inward (kind.devices call.root) < 2 ^ 64 ∧
    deviceSum Counters.outward (kind.devices call.root) < 2 ^ 64

/-- Calls that do not parse the file leave the reader with what was read before. -/
theorem lastRead_append_of_none {γ : Type*} (source : ProcReads → Option γ)
    (calls between : List ProcReads) (h : ∀ reads ∈ between, source reads = none) :
    lastRead source (calls ++ between) = lastRead source calls := by
  induction between using List.reverseRecOn with
  | nil => rw [List.append_nil]
  | append_singleton between reads ih =>
    rw [← List.append_assoc, lastRead_concat,
      h reads (List.mem_append_right _ (List.mem_singleton_self _)), Option.map_none,
      Option.none_or, ih fun r hr => h r (List.mem_append_left _ hr)]

/-- The rates of a kind are made of the totals last read and those read now. -/
theorem mem_readings_iff (kind : CounterKind) (calls : List ProcReads) {previous now : ProcReads}
    (hnow : previous.nowMonoNs < now.nowMonoNs) {r : MetricReading}
    (hid : r.metricId = kind.idIn ∨ r.metricId = kind.idOut) :
    r ∈ ((readerAfter (calls ++ [previous])).sample now).1 ↔
      r ∈ counterReadings kind.idIn kind.idOut kind.unit
        (seconds (now.nowMonoNs - previous.nowMonoNs))
        (lastCounters kind.source (calls ++ [previous])) (kind.source now) := by
  cases kind with
  | disk => exact (mem_sample_iff calls hnow r).2.1 hid
  | net => exact (mem_sample_iff calls hnow r).2.2 hid

namespace ConsecutiveFiles

variable {kind : CounterKind} {before : List SampleCall} {first : SampleCall}
  {between : List SampleCall} {now : SampleCall}

theorem parsed_now (h : ConsecutiveFiles kind before first between now) :
    kind.devices now.root ≠ [] := by
  intro hnil
  have hlen := h.devices.same.length_eq
  rw [hnil, List.length_map, List.length_map, List.length_nil] at hlen
  exact h.parsed (List.length_eq_zero_iff.mp hlen.symm)

/-- What the reader compares with. -/
theorem lastRead_eq (h : ConsecutiveFiles kind before first between now) :
    lastRead kind.source ((before ++ first :: between).map SampleCall.reads)
      = some (first.nowMonoNs, totals (kind.devices first.root)) := by
  have hsource : kind.source first.reads = some (totals (kind.devices first.root)) := by
    rw [SampleCall.reads, kind.source_reads, if_neg h.parsed]
  have hsplit : (before ++ first :: between).map SampleCall.reads
      = (before.map SampleCall.reads ++ [first.reads]) ++ between.map SampleCall.reads := by
    simp
  rw [hsplit, lastRead_append_of_none, lastRead_concat, hsource]
  · rfl
  · intro reads hreads
    obtain ⟨call, hcall, rfl⟩ := List.mem_map.mp hreads
    rw [SampleCall.reads, kind.source_reads, if_pos (h.unparsed call hcall)]

/-- The call before `now`: it is `first` itself, or one of those that came later. -/
theorem exists_previous (h : ConsecutiveFiles kind before first between now) :
    ∃ calls previous, before ++ first :: between = calls ++ [previous] ∧
      previous.nowMonoNs < now.nowMonoNs ∧
      (first.nowMonoNs = previous.nowMonoNs ↔ between = []) := by
  rcases List.eq_nil_or_concat between with hnil | ⟨init, previous, hconcat⟩
  · refine ⟨before, first, by rw [hnil], ?_, by simp [hnil]⟩
    have htimes := List.pairwise_append.mp h.times
    exact htimes.2.2 first (by simp) now (by simp)
  · rw [List.concat_eq_append] at hconcat
    refine ⟨before ++ first :: init, previous, by simp [hconcat], ?_, ?_⟩
    · have htimes := List.pairwise_append.mp h.times
      exact htimes.2.2 previous (by simp [hconcat]) now (by simp)
    · have htimes := (List.pairwise_append.mp (List.pairwise_append.mp h.times).1).2.1
      have hlt := (List.pairwise_cons.mp htimes).1 previous (by simp [hconcat])
      refine iff_of_false hlt.ne ?_
      simp [hconcat]

/-- Which readings of the two metrics the call emits. -/
theorem mem_readingsAfter_iff (h : ConsecutiveFiles kind before first between now)
    {calls : List SampleCall} {previous : SampleCall}
    (hprevious : before ++ first :: between = calls ++ [previous])
    (hnow : previous.nowMonoNs < now.nowMonoNs) {r : MetricReading}
    (hid : r.metricId = kind.idIn ∨ r.metricId = kind.idOut) :
    r ∈ readingsAfter (before ++ first :: between) now ↔
      r ∈ counterReadings kind.idIn kind.idOut kind.unit
        (seconds (now.nowMonoNs - previous.nowMonoNs)) (totals (kind.devices first.root))
        (some (totals (kind.devices now.root))) := by
  have hlast := h.lastRead_eq
  have hsource : kind.source now.reads = some (totals (kind.devices now.root)) := by
    rw [SampleCall.reads, kind.source_reads, if_neg h.parsed_now]
  have hmap : (before ++ first :: between).map SampleCall.reads
      = calls.map SampleCall.reads ++ [previous.reads] := by
    rw [hprevious, List.map_append, List.map_singleton]
  have hmem := @mem_readings_iff kind (calls.map SampleCall.reads) previous.reads now.reads hnow r
    hid
  rw [← hmap, lastCounters, hlast, hsource] at hmem
  exact hmem

/-- The rates of the two totals, in terms of the sums over the devices. -/
theorem counterReadings_eq (h : ConsecutiveFiles kind before first between now) (elapsedS : ℚ) :
    let sumIn := deviceSum Counters.inward
    let sumOut := deviceSum Counters.outward
    let devices := kind.devices first.root
    let devices' := kind.devices now.root
    counterReadings kind.idIn kind.idOut kind.unit elapsedS (totals devices)
        (some (totals devices')) =
      if sumIn devices ≤ sumIn devices' ∧ sumOut devices ≤ sumOut devices' then
        [⟨kind.idIn, ((sumIn devices' : ℚ) - sumIn devices) * kind.unit / elapsedS⟩,
          ⟨kind.idOut, ((sumOut devices' : ℚ) - sumOut devices) * kind.unit / elapsedS⟩]
      else [] := by
  intro sumIn sumOut devices devices'
  obtain ⟨hin, hout⟩ := h.fits first (by simp)
  obtain ⟨hin', hout'⟩ := h.fits now (by simp)
  obtain ⟨htotalIn, htotalOut⟩ := totals_toNat hin hout
  obtain ⟨htotalIn', htotalOut'⟩ := totals_toNat hin' hout'
  have hguard : ((totals devices').inward ≥ (totals devices).inward ∧
      (totals devices').outward ≥ (totals devices).outward) ↔
      sumIn devices ≤ sumIn devices' ∧ sumOut devices ≤ sumOut devices' := by
    rw [ge_iff_le, ge_iff_le, UInt64.le_iff_toNat_le, UInt64.le_iff_toNat_le, htotalIn, htotalOut,
      htotalIn', htotalOut']
    rfl
  rw [counterReadings]
  by_cases hle : sumIn devices ≤ sumIn devices' ∧ sumOut devices ≤ sumOut devices'
  · obtain ⟨hleIn, hleOut⟩ := hguard.mpr hle
    rw [if_pos (hguard.mpr hle), if_pos hle, toNat_sub_cast hleIn, toNat_sub_cast hleOut,
      htotalIn, htotalOut, htotalIn', htotalOut']
    rfl
  · rw [if_neg (mt hguard.mp hle), if_neg hle]

/-- Across a reset nothing is emitted exactly if one of the two sums has fallen. -/
theorem reset_iff (h : ConsecutiveFiles kind before first between now) :
    (∀ r ∈ readingsAfter (before ++ first :: between) now,
      r.metricId ≠ kind.idIn ∧ r.metricId ≠ kind.idOut) ↔
    deviceSum Counters.inward (kind.devices now.root)
        < deviceSum Counters.inward (kind.devices first.root) ∨
      deviceSum Counters.outward (kind.devices now.root)
        < deviceSum Counters.outward (kind.devices first.root) := by
  obtain ⟨calls, previous, hprevious, hnow, _⟩ := h.exists_previous
  have hmem := fun r hid => h.mem_readingsAfter_iff hprevious hnow (r := r) hid
  have hreadings := h.counterReadings_eq (seconds (now.nowMonoNs - previous.nowMonoNs))
  simp only at hreadings
  constructor
  · intro hnone
    by_contra hle
    rw [if_pos (by omega)] at hreadings
    -- the first of the two rates is emitted
    rw [hreadings] at hmem
    exact (hnone _ ((hmem _ (Or.inl rfl)).mpr List.mem_cons_self)).1 rfl
  · intro hlt r hr
    rw [if_neg (by omega)] at hreadings
    rw [hreadings] at hmem
    constructor
    · intro hid
      exact absurd ((hmem r (Or.inl hid)).mp hr) List.not_mem_nil
    · intro hid
      exact absurd ((hmem r (Or.inr hid)).mp hr) List.not_mem_nil

/-- Without a reset both rates are emitted, and they are right exactly if the
file was parsed in the call before, too, or has not changed. -/
theorem rates_iff (h : ConsecutiveFiles kind before first between now)
    (hback : ¬ WentBack (kind.devices first.root) (kind.devices now.root)) :
    TrueRates kind (kind.devices first.root) (kind.devices now.root)
        (seconds (now.nowMonoNs - first.nowMonoNs))
        (readingsAfter (before ++ first :: between) now) ↔
      between = [] ∨ ∀ d ∈ kind.devices first.root, d ∈ kind.devices now.root := by
  obtain ⟨calls, previous, hprevious, hnow, htime⟩ := h.exists_previous
  obtain ⟨hleIn, hleOut, hsame⟩ := deviceSum_of_not_wentBack h.devices hback
  set rate : (Counters → UInt64) → ℚ := fun counter =>
    ((deviceSum counter (kind.devices now.root) : ℚ)
      - deviceSum counter (kind.devices first.root)) * kind.unit
        / seconds (now.nowMonoNs - previous.nowMonoNs) with hrate
  have hreadings : counterReadings kind.idIn kind.idOut kind.unit
      (seconds (now.nowMonoNs - previous.nowMonoNs)) (totals (kind.devices first.root))
      (some (totals (kind.devices now.root)))
      = [⟨kind.idIn, rate Counters.inward⟩, ⟨kind.idOut, rate Counters.outward⟩] :=
    (h.counterReadings_eq _).trans (if_pos ⟨hleIn, hleOut⟩)
  have hfirst : first.nowMonoNs < now.nowMonoNs :=
    (List.pairwise_append.mp h.times).2.2 first (by simp) now (by simp)
  have hpair := mem_pair_metricId (a := ⟨kind.idIn, rate Counters.inward⟩)
    (b := ⟨kind.idOut, rate Counters.outward⟩) kind.idIn_ne_idOut
  -- each metric is emitted once, with the change divided by the time of the last call
  have hin : ∀ r, (r ∈ readingsAfter (before ++ first :: between) now ∧
      r.metricId = kind.idIn) ↔ r = ⟨kind.idIn, rate Counters.inward⟩ := by
    intro r
    rw [← (hpair r).1, and_congr_left_iff]
    intro hid
    rw [h.mem_readingsAfter_iff hprevious hnow (Or.inl hid), hreadings]
  have hout : ∀ r, (r ∈ readingsAfter (before ++ first :: between) now ∧
      r.metricId = kind.idOut) ↔ r = ⟨kind.idOut, rate Counters.outward⟩ := by
    intro r
    rw [← (hpair r).2, and_congr_left_iff]
    intro hid
    rw [h.mem_readingsAfter_iff hprevious hnow (Or.inr hid), hreadings]
  -- and that is the rate since the file was parsed if the times or the sums agree
  have htrue : ∀ counter, rate counter = increase counter (kind.devices first.root)
        (kind.devices now.root) * kind.unit / seconds (now.nowMonoNs - first.nowMonoNs) ↔
      deviceSum counter (kind.devices first.root) = deviceSum counter (kind.devices now.root) ∨
        first.nowMonoNs = previous.nowMonoNs := by
    intro counter
    rw [hrate, increase_eq h.devices, rate_eq_iff kind.unit_ne_zero hnow hfirst, sub_eq_zero,
      Nat.cast_inj, eq_comm, @eq_comm _ previous.nowMonoNs]
  rw [← htime, ← hsame]
  constructor
  · intro ht
    have hvalueIn := congrArg MetricReading.value (((hin _).symm.trans (ht.inward hback _)).mp rfl)
    have hvalueOut :=
      congrArg MetricReading.value (((hout _).symm.trans (ht.outward hback _)).mp rfl)
    have hor := (htrue _).mp hvalueIn
    have hor' := (htrue _).mp hvalueOut
    omega
  · intro hcond
    refine ⟨fun hb => absurd hb hback, fun _ r => ?_, fun _ r => ?_⟩
    · rw [hin, (htrue _).mpr (by omega)]
    · rw [hout, (htrue _).mpr (by omega)]

end ConsecutiveFiles

/-- Rates across resets, exactly: for two consecutive files that list the same
devices, the rates that `Sample` emits are true if and only if a device that
went back has taken one of the two sums with it, and, where no device went back,
the file was parsed in every call since, or has not changed. -/
theorem trueRates_iff {kind : CounterKind} {before : List SampleCall} {first : SampleCall}
    {between : List SampleCall} {now : SampleCall}
    (h : ConsecutiveFiles kind before first between now) :
    TrueRates kind (kind.devices first.root) (kind.devices now.root)
        (seconds (now.nowMonoNs - first.nowMonoNs))
        (readingsAfter (before ++ first :: between) now) ↔
      (WentBack (kind.devices first.root) (kind.devices now.root) →
        deviceSum Counters.inward (kind.devices now.root)
            < deviceSum Counters.inward (kind.devices first.root) ∨
          deviceSum Counters.outward (kind.devices now.root)
            < deviceSum Counters.outward (kind.devices first.root)) ∧
      (¬ WentBack (kind.devices first.root) (kind.devices now.root) →
        between = [] ∨ ∀ d ∈ kind.devices first.root, d ∈ kind.devices now.root) := by
  by_cases hback : WentBack (kind.devices first.root) (kind.devices now.root)
  · constructor
    · intro htrue
      exact ⟨fun _ => h.reset_iff.mp (htrue.reset hback), fun hno => absurd hback hno⟩
    · rintro ⟨hsum, _⟩
      exact ⟨fun _ => h.reset_iff.mpr (hsum hback), fun hno => absurd hback hno,
        fun hno => absurd hback hno⟩
  · rw [h.rates_iff hback]
    constructor
    · intro hcond
      exact ⟨fun hb => absurd hb hback, fun _ => hcond⟩
    · rintro ⟨_, hcond⟩
      exact hcond hback

/-- A call that finds nothing but this `diskstats`. -/
def diskCall (seconds : ℤ) (diskstats : String) : SampleCall :=
  ⟨seconds * 1000000000, none, none, none, some diskstats.toList, none, none⟩

/-- Two disks, among a loop device and a line that is cut off. -/
def twoDisks : SampleCall :=
  diskCall 0 "8 0 sda 9 0 100 9 9 0 70 9\n8 16 sdb 9 0 10 9 9 0 20 9\n7 0 loop0 5 0 40 1 0 0 0 0"

/-- Both have read and written more. -/
def twoDisksLater : SampleCall :=
  diskCall 1 "8 16 sdb 9 0 12 9 9 0 21\n8 0 sda 9 0 104 9 9 0 72 9\n8 32 sdc 9"

/-- `sda` has been reset, and `sdb` has read and written more than `sda` had. -/
def oneDiskReset : SampleCall :=
  diskCall 1 "8 0 sda 0 0 0 0 0 0 0 0\n8 16 sdb 9 0 1010 9 9 0 520 9"

theorem devices_twoDisks : CounterKind.disk.devices twoDisks.root
    = [(['s', 'd', 'a'], ⟨100, 70⟩), (['s', 'd', 'b'], ⟨10, 20⟩)] := by
  rw [twoDisks, diskCall, String.toList_ofList]
  decide +kernel

theorem devices_twoDisksLater : CounterKind.disk.devices twoDisksLater.root
    = [(['s', 'd', 'b'], ⟨12, 21⟩), (['s', 'd', 'a'], ⟨104, 72⟩)] := by
  rw [twoDisksLater, diskCall, String.toList_ofList]
  decide +kernel

theorem devices_oneDiskReset : CounterKind.disk.devices oneDiskReset.root
    = [(['s', 'd', 'a'], ⟨0, 0⟩), (['s', 'd', 'b'], ⟨1010, 520⟩)] := by
  rw [oneDiskReset, diskCall, String.toList_ofList]
  decide +kernel

theorem consecutive_twoDisksLater :
    ConsecutiveFiles .disk [] twoDisks [] twoDisksLater where
  times := List.pairwise_pair.mpr (by decide)
  parsed := by simp [devices_twoDisks]
  unparsed := by simp
  devices := by
    rw [devices_twoDisks, devices_twoDisksLater]
    exact ⟨by decide, by decide⟩
  fits := by
    simp only [List.forall_mem_cons, devices_twoDisks, devices_twoDisksLater]
    decide

theorem consecutive_oneDiskReset : ConsecutiveFiles .disk [] twoDisks [] oneDiskReset where
  times := List.pairwise_pair.mpr (by decide)
  parsed := by simp [devices_twoDisks]
  unparsed := by simp
  devices := by
    rw [devices_twoDisks, devices_oneDiskReset]
    exact ⟨by decide, by decide⟩
  fits := by
    simp only [List.forall_mem_cons, devices_twoDisks, devices_oneDiskReset]
    decide

theorem trueRates_iff_example :
    TrueRates .disk (CounterKind.disk.devices twoDisks.root)
      (CounterKind.disk.devices twoDisksLater.root)
      (seconds (twoDisksLater.nowMonoNs - twoDisks.nowMonoNs))
      (readingsAfter [twoDisks] twoDisksLater) := by
  refine (trueRates_iff consecutive_twoDisksLater).mpr ⟨?_, fun _ => Or.inl rfl⟩
  rw [devices_twoDisks, devices_twoDisksLater]
  decide

/-- The growth of `sdb` hides the reset of `sda`: the agent reports 460800 bytes
read per second, of 512000 that `sdb` has read. -/
theorem trueRates_counterexample :
    ConsecutiveFiles .disk [] twoDisks [] oneDiskReset ∧
      WentBack (CounterKind.disk.devices twoDisks.root)
        (CounterKind.disk.devices oneDiskReset.root) ∧
      ⟨kMetricDiskReadBytesS, 460800⟩ ∈ readingsAfter [twoDisks] oneDiskReset ∧
      ¬ TrueRates .disk (CounterKind.disk.devices twoDisks.root)
        (CounterKind.disk.devices oneDiskReset.root)
        (seconds (oneDiskReset.nowMonoNs - twoDisks.nowMonoNs))
        (readingsAfter [twoDisks] oneDiskReset) := by
  have hback : WentBack (CounterKind.disk.devices twoDisks.root)
      (CounterKind.disk.devices oneDiskReset.root) := by
    rw [devices_twoDisks, devices_oneDiskReset]
    decide
  have hread : ⟨kMetricDiskReadBytesS, 460800⟩ ∈ readingsAfter [twoDisks] oneDiskReset := by
    rw [twoDisks, oneDiskReset, diskCall, diskCall, String.toList_ofList, String.toList_ofList]
    decide +kernel
  exact ⟨consecutive_oneDiskReset, hback, hread, fun h => (h.reset hback _ hread).1 rfl⟩

end Agent
