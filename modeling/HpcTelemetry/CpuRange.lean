/-
The range of the CPU percentages (`ProcReader::Sample`).

The busy ticks, the ticks waiting and the idle ticks of two snapshots differ by
three amounts that add up to the growth of the total.  The guard of `Sample`
asks that the total has grown; the percentages are in range only if none of the
three amounts is negative.

* `active_toNat` — without overflow the active ticks are the busy fields;
* `inPercentRange_iff` — two shares of a total are percentages;
* `percentages_inRange_iff` — when the percentages that a call emits are in
  range.
-/
import HpcTelemetry.ProcReader

namespace Agent

/-! ### Ticks without overflow -/

/-- The ticks of the fields that `Sample` counts as active. -/
def CpuTicks.busy (t : CpuTicks) : ℕ :=
  t.user.toNat + t.nice.toNat + t.system.toNat + t.irq.toNat + t.softirq.toNat + t.steal.toNat

/-- The sum of the eight fields, which `Total()` computes modulo the width. -/
def CpuTicks.fieldSum (t : CpuTicks) : ℕ :=
  t.user.toNat + t.nice.toNat + t.system.toNat + t.idle.toNat + t.iowait.toNat + t.irq.toNat
    + t.softirq.toNat + t.steal.toNat

theorem fieldSum_eq (t : CpuTicks) : t.fieldSum = t.busy + t.iowait.toNat + t.idle.toNat := by
  rw [CpuTicks.fieldSum, CpuTicks.busy]
  omega

theorem total_toNat {t : CpuTicks} (h : t.fieldSum < 2 ^ 64) : t.total.toNat = t.fieldSum := by
  rw [CpuTicks.fieldSum] at *
  simp only [CpuTicks.total, UInt64.toNat_add]
  omega

theorem active_toNat {t : CpuTicks} (h : t.fieldSum < 2 ^ 64) : t.active.toNat = t.busy := by
  have htotal := total_toNat h
  have hsum := fieldSum_eq t
  have hidle : t.idle ≤ t.total := by
    rw [UInt64.le_iff_toNat_le]
    omega
  have hrest : (t.total - t.idle).toNat = t.total.toNat - t.idle.toNat :=
    UInt64.toNat_sub_of_le _ _ hidle
  have hiowait : t.iowait ≤ t.total - t.idle := by
    rw [UInt64.le_iff_toNat_le]
    omega
  rw [CpuTicks.active, UInt64.toNat_sub_of_le _ _ hiowait]
  omega

/-! ### Shares of a total -/

/-- The unit contract of `cpu_pct` and `iowait_pct`. -/
structure InPercentRange (cpu iowait : ℚ) : Prop where
  cpu_nonneg : 0 ≤ cpu
  cpu_le : cpu ≤ 100
  iowait_nonneg : 0 ≤ iowait
  iowait_le : iowait ≤ 100
  sum_le : cpu + iowait ≤ 100

/-- Of three amounts with a positive sum, the first two are percentages that
leave room for the third exactly if all three are nonnegative. -/
theorem inPercentRange_iff {busy wait idle total : ℚ} (htotal : 0 < total)
    (hsum : busy + wait + idle = total) :
    InPercentRange (100 * busy / total) (100 * wait / total) ↔
      0 ≤ busy ∧ 0 ≤ wait ∧ 0 ≤ idle := by
  have hpos : ∀ x : ℚ, 0 ≤ 100 * x / total ↔ 0 ≤ x := by
    intro x
    rw [le_div_iff₀ htotal, zero_mul]
    constructor
    · intro h
      linarith
    · intro h
      linarith
  have hle : ∀ x : ℚ, 100 * x / total ≤ 100 ↔ x ≤ total := by
    intro x
    rw [div_le_iff₀ htotal]
    constructor
    · intro h
      linarith
    · intro h
      linarith
  have hroom : 100 * busy / total + 100 * wait / total ≤ 100 ↔ 0 ≤ idle := by
    rw [← add_div, ← mul_add, hle]
    constructor
    · intro h
      linarith
    · intro h
      linarith
  constructor
  · intro h
    exact ⟨(hpos _).mp h.cpu_nonneg, (hpos _).mp h.iowait_nonneg, hroom.mp h.sum_le⟩
  · rintro ⟨hbusy, hwait, hidle⟩
    exact ⟨(hpos _).mpr hbusy, (hle _).mpr (by linarith), (hpos _).mpr hwait,
      (hle _).mpr (by linarith), hroom.mpr hidle⟩

/-! ### What a call emits -/

/-- The percentages of a call are those of the ticks it compares. -/
theorem mem_cpuReadings_of_mem_sample {reader : ProcReader} {now : ProcReads} {r : MetricReading}
    (h : r ∈ (reader.sample now).1) (hid : r.metricId = kMetricCpuPct ∨
      r.metricId = kMetricIowaitPct) : r ∈ cpuReadings reader.priorCpuTicks now.cpuTicks := by
  have hgauge : r ∉ gaugeReadings now := by
    intro hr
    have hmem := metricId_of_mem_gaugeReadings hr
    rcases hid with hid | hid
    · rw [hid] at hmem
      exact absurd hmem (by decide)
    · rw [hid] at hmem
      exact absurd hmem (by decide)
  have hcounter : ∀ idIn idOut unit elapsedS prior c, idIn ∉ [kMetricCpuPct, kMetricIowaitPct] →
      idOut ∉ [kMetricCpuPct, kMetricIowaitPct] →
      r ∉ counterReadings idIn idOut unit elapsedS prior c := by
    intro idIn idOut unit elapsedS prior c hin hout hr
    have hmem : r.metricId ∈ [kMetricCpuPct, kMetricIowaitPct] := List.mem_pair.mpr hid
    rcases metricId_of_mem_counterReadings hr with heq | heq
    · exact hin (heq ▸ hmem)
    · exact hout (heq ▸ hmem)
  rw [ProcReader.sample] at h
  rcases List.mem_append.mp h with h | h
  · split_ifs at h
    · rcases List.mem_append.mp h with h | h
      · rcases List.mem_append.mp h with h | h
        · exact h
        · exact absurd h (hcounter _ _ _ _ _ _ (by decide) (by decide))
      · exact absurd h (hcounter _ _ _ _ _ _ (by decide) (by decide))
    · exact absurd h List.not_mem_nil
  · exact absurd h hgauge

/-- Which percentages are emitted for two snapshots, and when. -/
theorem of_mem_cpuReadings {prior ticks : CpuTicks} {cpu iowait : ℚ}
    (hcpu : ⟨kMetricCpuPct, cpu⟩ ∈ cpuReadings prior (some ticks))
    (hiowait : ⟨kMetricIowaitPct, iowait⟩ ∈ cpuReadings prior (some ticks)) :
    prior.total < ticks.total ∧ cpu = cpuPct ticks prior ∧ iowait = iowaitPct ticks prior := by
  rw [cpuReadings] at hcpu hiowait
  split_ifs at hcpu hiowait with htotal
  · refine ⟨htotal, ?_, ?_⟩
    · rcases List.mem_pair.mp hcpu with h | h
      · exact congrArg MetricReading.value h
      · exact absurd (congrArg MetricReading.metricId h)
          (show kMetricCpuPct ≠ kMetricIowaitPct by decide)
    · rcases List.mem_pair.mp hiowait with h | h
      · exact absurd (congrArg MetricReading.metricId h)
          (show kMetricIowaitPct ≠ kMetricCpuPct by decide)
      · exact congrArg MetricReading.value h
  · cases hcpu

/-- Percentages in range, exactly: in every history of calls, the percentages
that a call emits for the snapshot it reads and the one last read before are in
range if and only if neither the busy ticks nor the ticks waiting nor the idle
ticks have become fewer. -/
theorem percentages_inRange_iff {earlier : List ProcReads} {now : ProcReads} {ticks : CpuTicks}
    {p : ℤ × CpuTicks} (hticks : now.cpuTicks = some ticks)
    (hp : lastRead ProcReads.cpuTicks earlier = some p) (hsum : ticks.fieldSum < 2 ^ 64)
    (hsum' : p.2.fieldSum < 2 ^ 64) {cpu iowait : ℚ}
    (hcpu : ⟨kMetricCpuPct, cpu⟩ ∈ ((readerAfter earlier).sample now).1)
    (hiowait : ⟨kMetricIowaitPct, iowait⟩ ∈ ((readerAfter earlier).sample now).1) :
    InPercentRange cpu iowait ↔
      p.2.busy ≤ ticks.busy ∧ p.2.iowait ≤ ticks.iowait ∧ p.2.idle ≤ ticks.idle := by
  have hprior : (readerAfter earlier).priorCpuTicks = p.2 := by
    rw [reader_after, hp]
    rfl
  have hcpu' := mem_cpuReadings_of_mem_sample hcpu (Or.inl rfl)
  have hiowait' := mem_cpuReadings_of_mem_sample hiowait (Or.inr rfl)
  rw [hprior, hticks] at hcpu' hiowait'
  obtain ⟨hgrew, rfl, rfl⟩ := of_mem_cpuReadings hcpu' hiowait'
  -- nothing wraps, so the percentages are shares of the growth of the total
  have htotal : ((ticks.total - p.2.total).toNat : ℚ) = (ticks.fieldSum : ℚ) - p.2.fieldSum := by
    rw [toNat_sub_cast (UInt64.le_of_lt hgrew), total_toNat hsum, total_toNat hsum']
  have hpos : (0 : ℚ) < (ticks.fieldSum : ℚ) - p.2.fieldSum := by
    rw [sub_pos, Nat.cast_lt, ← total_toNat hsum, ← total_toNat hsum']
    exact UInt64.lt_iff_toNat_lt.mp hgrew
  have hsplit : ((ticks.busy : ℚ) - p.2.busy) + ((ticks.iowait.toNat : ℚ) - p.2.iowait.toNat)
      + ((ticks.idle.toNat : ℚ) - p.2.idle.toNat) = (ticks.fieldSum : ℚ) - p.2.fieldSum := by
    rw [fieldSum_eq, fieldSum_eq]
    push_cast
    ring
  rw [cpuPct, iowaitPct, htotal, active_toNat hsum, active_toNat hsum',
    inPercentRange_iff hpos hsplit, sub_nonneg, sub_nonneg, sub_nonneg, Nat.cast_le, Nat.cast_le,
    Nat.cast_le, UInt64.le_iff_toNat_le, UInt64.le_iff_toNat_le]

/-- A call in which only the ticks can be read. -/
def tickReads (seconds : ℤ) (ticks : CpuTicks) : ProcReads :=
  ⟨seconds * 1000000000, some ticks, none, none, none, none, none⟩

theorem percentages_inRange_iff_example :
    InPercentRange 60 10 ↔ (6 : ℕ) ≤ 12 ∧ (2 : UInt64) ≤ 3 ∧ (1 : UInt64) ≤ 4 :=
  @percentages_inRange_iff [tickReads 0 { user := 6, iowait := 2, idle := 1 }]
    (tickReads 1 { user := 12, iowait := 3, idle := 4 }) _ _ rfl rfl (by decide) (by decide) _ _
    (by decide +kernel) (by decide +kernel)

/-- The ticks waiting fall by five while ten busy ticks pass. -/
theorem percentages_inRange_counterexample :
    let before : CpuTicks := { user := 100, idle := 1000, iowait := 20 }
    let after : CpuTicks := { user := 110, idle := 1000, iowait := 15 }
    before.fieldSum < 2 ^ 64 ∧ after.fieldSum < 2 ^ 64 ∧
      ⟨kMetricCpuPct, 200⟩ ∈ ((readerAfter [tickReads 0 before]).sample (tickReads 1 after)).1 ∧
      ⟨kMetricIowaitPct, -100⟩ ∈ ((readerAfter [tickReads 0 before]).sample (tickReads 1 after)).1 ∧
      ¬ InPercentRange 200 (-100) := by
  refine ⟨by decide, by decide, by decide +kernel, by decide +kernel, fun h => ?_⟩
  exact absurd h.cpu_le (by norm_num)

end Agent
