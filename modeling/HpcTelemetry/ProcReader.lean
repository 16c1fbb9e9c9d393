/-
Rates from two samples (`ProcReader::Sample`).

The reader keeps the last successful reading of each source, and the time of
the last call.  A rate divides the change of a counter since the former by the
time since the latter, so it is right only if the two belong together.

* `reader_after` — the state of the reader as a function of its history;
* `counterDeltas_iff` — for disk and network counters, when the rates emitted
  by a call are true;
* `trueDeltas_iff` — for whole runs and all six rate metrics.
-/
import HpcTelemetry.Wire

namespace Agent

/-- `MetricReading`, with its double as the number it stands for. -/
structure MetricReading where
  metricId : ℕ
  value : ℚ
  deriving DecidableEq

def kMetricCpuPct : ℕ := 1
def kMetricMemUsedBytes : ℕ := 2
def kMetricMemTotalBytes : ℕ := 3
def kMetricLoad1 : ℕ := 4
def kMetricIowaitPct : ℕ := 5
def kMetricDiskReadBytesS : ℕ := 6
def kMetricDiskWriteBytesS : ℕ := 7
def kMetricNetRxBytesS : ℕ := 8
def kMetricNetTxBytesS : ℕ := 9
def kMetricProcCount : ℕ := 10

def kSectorBytes : ℚ := 512

structure CpuTicks where
  user : UInt64 := 0
  nice : UInt64 := 0
  system : UInt64 := 0
  idle : UInt64 := 0
  iowait : UInt64 := 0
  irq : UInt64 := 0
  softirq : UInt64 := 0
  steal : UInt64 := 0
  deriving DecidableEq

def CpuTicks.total (t : CpuTicks) : UInt64 :=
  t.user + t.nice + t.system + t.idle + t.iowait + t.irq + t.softirq + t.steal

/-- The ticks that are neither idle nor waiting. -/
def CpuTicks.active (t : CpuTicks) : UInt64 := t.total - t.idle - t.iowait

/-- `DiskCounters` (sectors read and written) and `NetCounters` (bytes received
and transmitted). -/
structure Counters where
  inward : UInt64 := 0
  outward : UInt64 := 0
  deriving DecidableEq

attribute [ext] Counters

/-- What one call of `Sample` reads: the clock, and the outcome of each of the
six readers. -/
structure ProcReads where
  nowMonoNs : ℤ
  cpuTicks : Option CpuTicks
  disk : Option Counters
  net : Option Counters
  load1 : Option ℚ
  memUsedAndTotal : Option (ℚ × ℚ)
  procCount : Option ℕ
  deriving DecidableEq

structure ProcReader where
  hasPriorSample : Bool := false
  priorCpuTicks : CpuTicks := {}
  priorDisk : Counters := {}
  priorNet : Counters := {}
  priorMonoNs : ℤ := 0
  deriving DecidableEq

def seconds (ns : ℤ) : ℚ := ns / 1000000000

/-! ### One call -/

def cpuPct (ticks prior : CpuTicks) : ℚ :=
  100 * ((ticks.active.toNat : ℚ) - prior.active.toNat) / (ticks.total - prior.total).toNat

def iowaitPct (ticks prior : CpuTicks) : ℚ :=
  100 * ((ticks.iowait.toNat : ℚ) - prior.iowait.toNat) / (ticks.total - prior.total).toNat

def cpuReadings (prior : CpuTicks) : Option CpuTicks → List MetricReading
  | none => []
  | some ticks =>
    if ticks.total > prior.total then
      [⟨kMetricCpuPct, cpuPct ticks prior⟩, ⟨kMetricIowaitPct, iowaitPct ticks prior⟩]
    else []

/-- The two rates of one source of counters, in units of `unit`; none when a
counter went backwards. -/
def counterReadings (idIn idOut : ℕ) (unit elapsedS : ℚ) (prior : Counters) :
    Option Counters → List MetricReading
  | none => []
  | some c =>
    if c.inward ≥ prior.inward ∧ c.outward ≥ prior.outward then
      [⟨idIn, (c.inward - prior.inward).toNat * unit / elapsedS⟩,
        ⟨idOut, (c.outward - prior.outward).toNat * unit / elapsedS⟩]
    else []

def diskReadings := counterReadings kMetricDiskReadBytesS kMetricDiskWriteBytesS kSectorBytes

def netReadings := counterReadings kMetricNetRxBytesS kMetricNetTxBytesS 1

/-- The metrics that are no rates. -/
def gaugeReadings (reads : ProcReads) : List MetricReading :=
  (reads.load1.toList.map fun x => ⟨kMetricLoad1, x⟩) ++
  (reads.memUsedAndTotal.toList.flatMap fun m =>
    [⟨kMetricMemUsedBytes, m.1⟩, ⟨kMetricMemTotalBytes, m.2⟩]) ++
  (reads.procCount.toList.map fun n => ⟨kMetricProcCount, n⟩)

/-- `Sample`: the readings of a call and the reader after it. -/
def ProcReader.sample (r : ProcReader) (reads : ProcReads) : List MetricReading × ProcReader :=
  let elapsedS := seconds (reads.nowMonoNs - r.priorMonoNs)
  let rates :=
    if r.hasPriorSample ∧ elapsedS > 0 then
      cpuReadings r.priorCpuTicks reads.cpuTicks ++ diskReadings elapsedS r.priorDisk reads.disk ++
        netReadings elapsedS r.priorNet reads.net
    else []
  (rates ++ gaugeReadings reads,
    { hasPriorSample := true
      priorCpuTicks := reads.cpuTicks.getD r.priorCpuTicks
      priorDisk := reads.disk.getD r.priorDisk
      priorNet := reads.net.getD r.priorNet
      priorMonoNs := reads.nowMonoNs })

/-- The reader after some calls. -/
def readerAfter (calls : List ProcReads) : ProcReader :=
  calls.foldl (fun r reads => (r.sample reads).2) {}

/-! ### What a rate should be -/

/-- The most recent successful read of a source, with its time. -/
def lastRead {γ : Type*} (source : ProcReads → Option γ) (calls : List ProcReads) :
    Option (ℤ × γ) :=
  calls.reverse.findSome? fun reads => (source reads).map fun x => (reads.nowMonoNs, x)

/-- The counters last read, zero if there are none. -/
def lastCounters (source : ProcReads → Option Counters) (calls : List ProcReads) : Counters :=
  ((lastRead source calls).map Prod.snd).getD {}

/-- Every reading of this metric is the change of a counter since the source was
last read, in units of `unit`, over the time since then. -/
def TrueRate (source : ProcReads → Option Counters) (counter : Counters → UInt64) (unit : ℚ)
    (id : ℕ) (earlier : List ProcReads) (now : ProcReads) (readings : List MetricReading) : Prop :=
  ∀ r ∈ readings, r.metricId = id → ∃ c p, source now = some c ∧ lastRead source earlier = some p ∧
    r.value = (((counter c).toNat : ℚ) - (counter p.2).toNat) * unit
      / seconds (now.nowMonoNs - p.1)

/-- Every reading of this metric compares the ticks with those last read. -/
def TruePct (pct : CpuTicks → CpuTicks → ℚ) (id : ℕ) (earlier : List ProcReads) (now : ProcReads)
    (readings : List MetricReading) : Prop :=
  ∀ r ∈ readings, r.metricId = id → ∃ ticks p, now.cpuTicks = some ticks ∧
    lastRead ProcReads.cpuTicks earlier = some p ∧ r.value = pct ticks p.2

/-- All rates emitted by a call that follows `earlier` are true. -/
structure TrueDeltas (earlier : List ProcReads) (now : ProcReads)
    (readings : List MetricReading) : Prop where
  cpu : TruePct cpuPct kMetricCpuPct earlier now readings
  iowait : TruePct iowaitPct kMetricIowaitPct earlier now readings
  diskRead : TrueRate ProcReads.disk Counters.inward kSectorBytes kMetricDiskReadBytesS
    earlier now readings
  diskWrite : TrueRate ProcReads.disk Counters.outward kSectorBytes kMetricDiskWriteBytesS
    earlier now readings
  netRx : TrueRate ProcReads.net Counters.inward 1 kMetricNetRxBytesS earlier now readings
  netTx : TrueRate ProcReads.net Counters.outward 1 kMetricNetTxBytesS earlier now readings

/-- When the rates of a source of counters come out right: if the source is read
now, this is not the first call, and no counter has gone backwards since the
source was last read, then the call before has read it, too, or it was read
before and has not changed. -/
def CountersReady (source : ProcReads → Option Counters) (earlier : List ProcReads)
    (now : ProcReads) : Prop :=
  ∀ c, source now = some c → ∀ previous, earlier.getLast? = some previous →
    (lastCounters source earlier).inward ≤ c.inward →
    (lastCounters source earlier).outward ≤ c.outward →
    (source previous).isSome ∨ (lastRead source earlier).map Prod.snd = some c

/-- When the percentages come out right: if the ticks are read now and are not
all zero, and this is not the first call, they have been read before. -/
def TicksReady (earlier : List ProcReads) (now : ProcReads) : Prop :=
  ∀ ticks, now.cpuTicks = some ticks → earlier ≠ [] → ticks.total > 0 →
    (lastRead ProcReads.cpuTicks earlier).isSome

/-! ### The reader's state -/

theorem lastRead_concat {γ : Type*} (source : ProcReads → Option γ) (calls : List ProcReads)
    (reads : ProcReads) :
    lastRead source (calls ++ [reads]) =
      ((source reads).map fun x => (reads.nowMonoNs, x)).or (lastRead source calls) := by
  rw [lastRead, List.reverse_append, List.findSome?_append]
  cases h : source reads <;> simp [h, lastRead]

/-- What the reader remembers: the last successful read of each source, and the
time of the last call. -/
theorem reader_after (calls : List ProcReads) :
    readerAfter calls =
      { hasPriorSample := decide (calls ≠ [])
        priorCpuTicks := ((lastRead ProcReads.cpuTicks calls).map Prod.snd).getD {}
        priorDisk := lastCounters ProcReads.disk calls
        priorNet := lastCounters ProcReads.net calls
        priorMonoNs := (calls.getLast?.map ProcReads.nowMonoNs).getD 0 } := by
  induction calls using List.reverseRecOn with
  | nil => rfl
  | append_singleton calls reads ih =>
    -- a source that was not read keeps what was read before
    have hprior : ∀ {γ : Type} (source : ProcReads → Option γ) (d : γ),
        ((lastRead source (calls ++ [reads])).map Prod.snd).getD d
          = (source reads).getD (((lastRead source calls).map Prod.snd).getD d) := by
      intro γ source d
      rw [lastRead_concat]
      cases source reads <;> rfl
    rw [readerAfter, List.foldl_append, ← readerAfter, ih]
    simp only [lastCounters, hprior, List.foldl_cons, List.foldl_nil, ProcReader.sample]
    simp

/-! ### Times -/

/-- Calls at strictly increasing times. -/
def Increasing (calls : List ProcReads) : Prop :=
  calls.Pairwise fun a b => a.nowMonoNs < b.nowMonoNs

theorem lastRead_mem {γ : Type*} {source : ProcReads → Option γ} {calls : List ProcReads}
    {p : ℤ × γ} (h : lastRead source calls = some p) :
    ∃ c ∈ calls, c.nowMonoNs = p.1 ∧ source c = some p.2 := by
  obtain ⟨c, hc, hp⟩ := List.exists_of_findSome?_eq_some h
  obtain ⟨x, hx, rfl⟩ := Option.map_eq_some_iff.mp hp
  exact ⟨c, List.mem_reverse.mp hc, rfl, hx⟩

/-- The last read is no later than the last call, and as late only if that call
has read the source. -/
theorem lastRead_time {γ : Type*} {source : ProcReads → Option γ} {calls : List ProcReads}
    {previous : ProcReads} (htimes : Increasing (calls ++ [previous])) {p : ℤ × γ}
    (h : lastRead source (calls ++ [previous]) = some p) :
    p.1 ≤ previous.nowMonoNs ∧ (previous.nowMonoNs = p.1 ↔ (source previous).isSome) := by
  rw [lastRead_concat] at h
  cases hs : source previous with
  | some x =>
    rw [hs] at h
    injection h with h
    rw [← h]
    exact ⟨le_rfl, by simp⟩
  | none =>
    rw [hs] at h
    obtain ⟨c, hc, htime, _⟩ := lastRead_mem h
    have hlt : c.nowMonoNs < previous.nowMonoNs :=
      (List.pairwise_append.mp htimes).2.2 c hc previous (List.mem_singleton_self _)
    rw [htime] at hlt
    exact ⟨hlt.le, by simp [hlt.ne']⟩

theorem seconds_pos {t t₀ : ℤ} (h : t₀ < t) : 0 < seconds (t - t₀) := by
  have hpos : (0 : ℚ) < ((t - t₀ : ℤ) : ℚ) := by
    rw [Int.cast_pos]
    omega
  exact div_pos hpos (by norm_num)

theorem seconds_inj {a b : ℤ} : seconds a = seconds b ↔ a = b := by
  rw [seconds, seconds, div_left_inj' (by norm_num), Int.cast_inj]

/-- A change over two intervals that end together gives one rate only if the
intervals are the same or there is no change. -/
theorem rate_eq_iff {d unit : ℚ} (hunit : unit ≠ 0) {t t₀ t₁ : ℤ} (h₀ : t₀ < t) (h₁ : t₁ < t) :
    d * unit / seconds (t - t₀) = d * unit / seconds (t - t₁) ↔ d = 0 ∨ t₀ = t₁ := by
  have hs₀ := (seconds_pos h₀).ne'
  have hs₁ := (seconds_pos h₁).ne'
  constructor
  · intro h
    by_cases hd : d = 0
    · exact Or.inl hd
    · rw [div_eq_div_iff hs₀ hs₁, mul_right_inj' (mul_ne_zero hd hunit), seconds_inj] at h
      exact Or.inr (by omega)
  · rintro (rfl | rfl)
    · rw [zero_mul, zero_div, zero_div]
    · rfl

/-! ### Disk and network rates -/

/-- The difference of two counters, as a number. -/
theorem toNat_sub_cast {a b : UInt64} (h : b ≤ a) :
    ((a - b).toNat : ℚ) = (a.toNat : ℚ) - b.toNat := by
  rw [UInt64.toNat_sub_of_le _ _ h, Nat.cast_sub (UInt64.le_iff_toNat_le.mp h)]

theorem toNat_sub_eq_zero {a b : UInt64} : (a.toNat : ℚ) - b.toNat = 0 ↔ a = b := by
  rw [sub_eq_zero, Nat.cast_inj, UInt64.toNat_inj]

/-- Whether a rate is true, when there is one reading of it. -/
theorem trueRate_iff_of_read {source : ProcReads → Option Counters} {counter : Counters → UInt64}
    {unit : ℚ} {id : ℕ} {earlier : List ProcReads} {now : ProcReads}
    {readings : List MetricReading} {value : ℚ} (hread : ∀ r, (r ∈ readings ∧ r.metricId = id) ↔
      r = ⟨id, value⟩) {c : Counters} (hc : source now = some c) {p : ℤ × Counters}
    (hp : lastRead source earlier = some p) :
    TrueRate source counter unit id earlier now readings ↔
      value = (((counter c).toNat : ℚ) - (counter p.2).toNat) * unit
        / seconds (now.nowMonoNs - p.1) := by
  constructor
  · intro h
    obtain ⟨hmem, hid⟩ := (hread ⟨id, value⟩).mpr rfl
    obtain ⟨c', p', hc', hp', hvalue⟩ := h _ hmem hid
    rw [hc, Option.some_inj] at hc'
    rw [hp, Option.some_inj] at hp'
    rw [hc', hp']
    exact hvalue
  · intro hvalue r hr hid
    rw [(hread r).mp ⟨hr, hid⟩]
    exact ⟨c, p, hc, hp, hvalue⟩

/-- Of two readings of different metrics, each is the only one of its metric. -/
theorem mem_pair_metricId {a b : MetricReading} (hid : a.metricId ≠ b.metricId)
    (r : MetricReading) :
    ((r ∈ [a, b] ∧ r.metricId = a.metricId) ↔ r = a) ∧
      ((r ∈ [a, b] ∧ r.metricId = b.metricId) ↔ r = b) := by
  rw [List.mem_pair]
  constructor
  · constructor
    · rintro ⟨rfl | rfl, h⟩
      · rfl
      · exact absurd h.symm hid
    · rintro rfl
      exact ⟨Or.inl rfl, rfl⟩
  · constructor
    · rintro ⟨rfl | rfl, h⟩
      · exact absurd h hid
      · rfl
    · rintro rfl
      exact ⟨Or.inr rfl, rfl⟩

section CounterRates

variable {source : ProcReads → Option Counters} {unit : ℚ} (hunit : unit ≠ 0)
  {idIn idOut : ℕ} (hid : idIn ≠ idOut) {calls : List ProcReads} {previous now : ProcReads}
  (htimes : Increasing (calls ++ [previous])) (hnow : previous.nowMonoNs < now.nowMonoNs)

include hunit hid htimes hnow

/-- With both rates emitted, they are true if and only if the intervals agree or
nothing has changed. -/
theorem counterDeltas_iff_of_emitted {c : Counters} (hs : source now = some c)
    (hin : (lastCounters source (calls ++ [previous])).inward ≤ c.inward)
    (hout : (lastCounters source (calls ++ [previous])).outward ≤ c.outward) :
    let earlier := calls ++ [previous]
    let elapsedS := seconds (now.nowMonoNs - previous.nowMonoNs)
    let readings : List MetricReading :=
      [⟨idIn, (c.inward - (lastCounters source earlier).inward).toNat * unit / elapsedS⟩,
        ⟨idOut, (c.outward - (lastCounters source earlier).outward).toNat * unit / elapsedS⟩]
    TrueRate source Counters.inward unit idIn earlier now readings ∧
      TrueRate source Counters.outward unit idOut earlier now readings ↔
      (source previous).isSome ∨ (lastRead source earlier).map Prod.snd = some c := by
  intro earlier elapsedS readings
  cases hl : lastRead source earlier with
  | none =>
    -- the source was never read: there is nothing the rates could refer to
    refine iff_of_false ?_ ?_
    · rintro ⟨htrue, _⟩
      obtain ⟨_, p, _, hp, _⟩ := htrue _ List.mem_cons_self rfl
      rw [hl] at hp
      cases hp
    · rintro (hsome | heq)
      · rw [lastRead_concat] at hl
        obtain ⟨x, hx⟩ := Option.isSome_iff_exists.mp hsome
        rw [hx] at hl
        cases hl
      · cases heq
  | some p =>
    -- the emitted rate divides by the time since the last call, the true one by
    -- the time since the last read
    have hprior : lastCounters source earlier = p.2 := by
      rw [lastCounters, hl]
      rfl
    obtain ⟨hle, htime⟩ := lastRead_time htimes hl
    have hp : p.1 < now.nowMonoNs := lt_of_le_of_lt hle hnow
    have hreadIn : ∀ r, (r ∈ readings ∧ r.metricId = idIn) ↔ r = ⟨idIn,
        (c.inward - (lastCounters source earlier).inward).toNat * unit / elapsedS⟩ :=
      fun r => (mem_pair_metricId hid r).1
    have hreadOut : ∀ r, (r ∈ readings ∧ r.metricId = idOut) ↔ r = ⟨idOut,
        (c.outward - (lastCounters source earlier).outward).toNat * unit / elapsedS⟩ :=
      fun r => (mem_pair_metricId hid r).2
    rw [trueRate_iff_of_read hreadIn hs hl, trueRate_iff_of_read hreadOut hs hl,
      toNat_sub_cast hin, toNat_sub_cast hout, hprior, rate_eq_iff hunit hnow hp,
      rate_eq_iff hunit hnow hp, toNat_sub_eq_zero, toNat_sub_eq_zero, ← htime]
    -- the two counters together are unchanged, or the intervals agree
    have hsame : (Option.map Prod.snd (some p) = some c) ↔
        (c.inward = p.2.inward ∧ c.outward = p.2.outward) := by
      rw [Option.map_some, Option.some_inj, eq_comm, Counters.ext_iff]
    rw [hsame, ← and_or_right]
    exact or_comm

/-- The rates of a source of counters are true in exactly the calls described by
`CountersReady`. -/
theorem counterDeltas_iff :
    let earlier := calls ++ [previous]
    let readings := counterReadings idIn idOut unit (seconds (now.nowMonoNs - previous.nowMonoNs))
      (lastCounters source earlier) (source now)
    TrueRate source Counters.inward unit idIn earlier now readings ∧
      TrueRate source Counters.outward unit idOut earlier now readings ↔
      CountersReady source earlier now := by
  intro earlier readings
  have hlast : earlier.getLast? = some previous := List.getLast?_concat ..
  by_cases hemit : ∃ c, source now = some c ∧
      (lastCounters source earlier).inward ≤ c.inward ∧
      (lastCounters source earlier).outward ≤ c.outward
  · obtain ⟨c, hs, hin, hout⟩ := hemit
    have hready : CountersReady source earlier now ↔
        ((source previous).isSome ∨ (lastRead source earlier).map Prod.snd = some c) := by
      constructor
      · intro h
        exact h c hs previous hlast hin hout
      · intro h c' hc' previous' hprevious' _ _
        rw [hs, Option.some_inj] at hc'
        rw [hlast, Option.some_inj] at hprevious'
        rw [← hc', ← hprevious']
        exact h
    have hreadings : readings =
        [⟨idIn, (c.inward - (lastCounters source earlier).inward).toNat * unit
            / seconds (now.nowMonoNs - previous.nowMonoNs)⟩,
          ⟨idOut, (c.outward - (lastCounters source earlier).outward).toNat * unit
            / seconds (now.nowMonoNs - previous.nowMonoNs)⟩] := by
      show counterReadings idIn idOut unit _ _ (source now) = _
      rw [hs]
      exact if_pos ⟨hin, hout⟩
    rw [hready, hreadings]
    exact counterDeltas_iff_of_emitted hunit hid htimes hnow hs hin hout
  · -- nothing is emitted, and nothing is asked of the call
    have hreadings : readings = [] := by
      show counterReadings idIn idOut unit _ _ (source now) = []
      cases hs : source now with
      | none => rfl
      | some c => exact if_neg fun h => hemit ⟨c, hs, h⟩
    rw [hreadings]
    refine iff_of_true ⟨?_, ?_⟩ ?_
    · exact fun r hr => absurd hr List.not_mem_nil
    · exact fun r hr => absurd hr List.not_mem_nil
    · exact fun c hc _ _ hin hout => absurd ⟨c, hc, hin, hout⟩ hemit

end CounterRates

/-! ### Percentages -/

/-- The percentages are true in exactly the calls described by `TicksReady`. -/
theorem percentages_iff {calls : List ProcReads} {previous now : ProcReads} :
    let earlier := calls ++ [previous]
    let readings := cpuReadings (((lastRead ProcReads.cpuTicks earlier).map Prod.snd).getD {})
      now.cpuTicks
    TruePct cpuPct kMetricCpuPct earlier now readings ∧
      TruePct iowaitPct kMetricIowaitPct earlier now readings ↔ TicksReady earlier now := by
  intro earlier readings
  have hne : earlier ≠ [] := by simp [earlier]
  constructor
  · rintro ⟨hcpu, _⟩ ticks hticks _ htotal
    by_contra hnone
    rw [Option.not_isSome_iff_eq_none] at hnone
    -- ticks that were never read count as zero, and `cpu_pct` is emitted
    have hemitted : (⟨kMetricCpuPct, cpuPct ticks {}⟩ : MetricReading) ∈ readings := by
      show _ ∈ cpuReadings _ now.cpuTicks
      rw [hticks, hnone, cpuReadings]
      rw [if_pos]
      · exact List.mem_cons_self
      · exact htotal
    obtain ⟨_, p, _, hp, _⟩ := hcpu _ hemitted rfl
    rw [hnone] at hp
    cases hp
  · intro hready
    -- whatever is emitted was computed against the ticks last read
    have hall : ∀ r ∈ readings, ∃ ticks p, now.cpuTicks = some ticks ∧
        lastRead ProcReads.cpuTicks earlier = some p ∧
        (r = ⟨kMetricCpuPct, cpuPct ticks p.2⟩ ∨ r = ⟨kMetricIowaitPct, iowaitPct ticks p.2⟩) := by
      intro r hr
      cases hticks : now.cpuTicks with
      | none =>
        have hnil : readings = [] := by
          show cpuReadings _ now.cpuTicks = []
          rw [hticks]
          rfl
        rw [hnil] at hr
        cases hr
      | some ticks =>
        have hr' : r ∈ cpuReadings (((lastRead ProcReads.cpuTicks earlier).map Prod.snd).getD {})
            (some ticks) := hticks ▸ hr
        rw [cpuReadings] at hr'
        split_ifs at hr' with htotal
        · have hpos : ticks.total > 0 :=
            UInt64.lt_iff_toNat_lt.mpr (Nat.zero_lt_of_lt (UInt64.lt_iff_toNat_lt.mp htotal))
          obtain ⟨p, hp⟩ := Option.isSome_iff_exists.mp (hready ticks hticks hne hpos)
          rw [hp] at hr'
          exact ⟨ticks, p, rfl, hp, List.mem_pair.mp hr'⟩
        · cases hr'
    constructor
    · intro r hr hid
      obtain ⟨ticks, p, hticks, hp, rfl | rfl⟩ := hall r hr
      · exact ⟨ticks, p, hticks, hp, rfl⟩
      · cases hid
    · intro r hr hid
      obtain ⟨ticks, p, hticks, hp, rfl | rfl⟩ := hall r hr
      · cases hid
      · exact ⟨ticks, p, hticks, hp, rfl⟩

/-! ### Whole calls -/

theorem TrueRate.congr {source : ProcReads → Option Counters} {counter : Counters → UInt64}
    {unit : ℚ} {id : ℕ} {earlier : List ProcReads} {now : ProcReads}
    {readings readings' : List MetricReading}
    (h : ∀ r : MetricReading, r.metricId = id → (r ∈ readings ↔ r ∈ readings')) :
    TrueRate source counter unit id earlier now readings ↔
      TrueRate source counter unit id earlier now readings' :=
  forall_congr' fun r => ⟨fun hr hmem hid => hr ((h r hid).mpr hmem) hid,
    fun hr hmem hid => hr ((h r hid).mp hmem) hid⟩

theorem TruePct.congr {pct : CpuTicks → CpuTicks → ℚ} {id : ℕ} {earlier : List ProcReads}
    {now : ProcReads} {readings readings' : List MetricReading}
    (h : ∀ r : MetricReading, r.metricId = id → (r ∈ readings ↔ r ∈ readings')) :
    TruePct pct id earlier now readings ↔ TruePct pct id earlier now readings' :=
  forall_congr' fun r => ⟨fun hr hmem hid => hr ((h r hid).mpr hmem) hid,
    fun hr hmem hid => hr ((h r hid).mp hmem) hid⟩

theorem metricId_of_mem_cpuReadings {prior : CpuTicks} {ticks : Option CpuTicks}
    {r : MetricReading} (h : r ∈ cpuReadings prior ticks) :
    r.metricId = kMetricCpuPct ∨ r.metricId = kMetricIowaitPct := by
  cases ticks with
  | none => cases h
  | some t =>
    rw [cpuReadings] at h
    split_ifs at h
    · rcases List.mem_pair.mp h with rfl | rfl
      · exact Or.inl rfl
      · exact Or.inr rfl
    · cases h

theorem metricId_of_mem_counterReadings {idIn idOut : ℕ} {unit elapsedS : ℚ} {prior : Counters}
    {c : Option Counters} {r : MetricReading}
    (h : r ∈ counterReadings idIn idOut unit elapsedS prior c) :
    r.metricId = idIn ∨ r.metricId = idOut := by
  cases c with
  | none => cases h
  | some c =>
    rw [counterReadings] at h
    split_ifs at h
    · rcases List.mem_pair.mp h with rfl | rfl
      · exact Or.inl rfl
      · exact Or.inr rfl
    · cases h

theorem metricId_of_mem_gaugeReadings {reads : ProcReads} {r : MetricReading}
    (h : r ∈ gaugeReadings reads) :
    r.metricId ∈ [kMetricLoad1, kMetricMemUsedBytes, kMetricMemTotalBytes, kMetricProcCount] := by
  rw [gaugeReadings, List.mem_append, List.mem_append] at h
  rcases h with (h | h) | h
  · obtain ⟨x, _, rfl⟩ := List.mem_map.mp h
    show kMetricLoad1 ∈ _
    decide
  · obtain ⟨m, _, hr⟩ := List.mem_flatMap.mp h
    rcases List.mem_pair.mp hr with rfl | rfl
    · show kMetricMemUsedBytes ∈ _
      decide
    · show kMetricMemTotalBytes ∈ _
      decide
  · obtain ⟨n, _, rfl⟩ := List.mem_map.mp h
    show kMetricProcCount ∈ _
    decide

/-- The readings of a call that is not the first. -/
theorem sample_readings {calls : List ProcReads} {previous now : ProcReads}
    (hnow : previous.nowMonoNs < now.nowMonoNs) :
    let earlier := calls ++ [previous]
    let elapsedS := seconds (now.nowMonoNs - previous.nowMonoNs)
    ((readerAfter earlier).sample now).1 =
      cpuReadings (((lastRead ProcReads.cpuTicks earlier).map Prod.snd).getD {}) now.cpuTicks ++
        diskReadings elapsedS (lastCounters ProcReads.disk earlier) now.disk ++
        netReadings elapsedS (lastCounters ProcReads.net earlier) now.net ++ gaugeReadings now := by
  intro earlier elapsedS
  have hprior : decide (earlier ≠ []) = true := by simp [earlier]
  have htime : (earlier.getLast?.map ProcReads.nowMonoNs).getD 0 = previous.nowMonoNs := by
    rw [show earlier.getLast? = some previous from List.getLast?_concat ..]
    rfl
  rw [reader_after, ProcReader.sample]
  simp only [hprior, htime]
  rw [if_pos ⟨trivial, seconds_pos hnow⟩]

/-- A reading of one of the metrics of a source comes from that source. -/
theorem mem_sample_iff (calls : List ProcReads) {previous now : ProcReads}
    (hnow : previous.nowMonoNs < now.nowMonoNs) (r : MetricReading) :
    let earlier := calls ++ [previous]
    let elapsedS := seconds (now.nowMonoNs - previous.nowMonoNs)
    let readings := ((readerAfter earlier).sample now).1
    (r.metricId = kMetricCpuPct ∨ r.metricId = kMetricIowaitPct → (r ∈ readings ↔
      r ∈ cpuReadings (((lastRead ProcReads.cpuTicks earlier).map Prod.snd).getD {})
        now.cpuTicks)) ∧
    (r.metricId = kMetricDiskReadBytesS ∨ r.metricId = kMetricDiskWriteBytesS → (r ∈ readings ↔
      r ∈ diskReadings elapsedS (lastCounters ProcReads.disk earlier) now.disk)) ∧
    (r.metricId = kMetricNetRxBytesS ∨ r.metricId = kMetricNetTxBytesS → (r ∈ readings ↔
      r ∈ netReadings elapsedS (lastCounters ProcReads.net earlier) now.net)) := by
  intro earlier elapsedS readings
  have hreadings : readings = _ := sample_readings hnow
  rw [hreadings, List.mem_append, List.mem_append, List.mem_append]
  have hcpu := @metricId_of_mem_cpuReadings
    (((lastRead ProcReads.cpuTicks earlier).map Prod.snd).getD {}) now.cpuTicks r
  have hdisk : r ∈ diskReadings elapsedS (lastCounters ProcReads.disk earlier) now.disk → _ :=
    metricId_of_mem_counterReadings
  have hnet : r ∈ netReadings elapsedS (lastCounters ProcReads.net earlier) now.net → _ :=
    metricId_of_mem_counterReadings
  have hgauge := @metricId_of_mem_gaugeReadings now r
  simp only [kMetricCpuPct, kMetricIowaitPct, kMetricDiskReadBytesS, kMetricDiskWriteBytesS,
    kMetricNetRxBytesS, kMetricNetTxBytesS, kMetricLoad1, kMetricMemUsedBytes,
    kMetricMemTotalBytes, kMetricProcCount, List.mem_cons, List.not_mem_nil, or_false]
    at hcpu hdisk hnet hgauge ⊢
  refine ⟨fun hid => ⟨?_, ?_⟩, fun hid => ⟨?_, ?_⟩, fun hid => ⟨?_, ?_⟩⟩
  · rintro (((h | h) | h) | h)
    · exact h
    · exact absurd (hdisk h) (by omega)
    · exact absurd (hnet h) (by omega)
    · exact absurd (hgauge h) (by omega)
  · exact fun h => Or.inl (Or.inl (Or.inl h))
  · rintro (((h | h) | h) | h)
    · exact absurd (hcpu h) (by omega)
    · exact h
    · exact absurd (hnet h) (by omega)
    · exact absurd (hgauge h) (by omega)
  · exact fun h => Or.inl (Or.inl (Or.inr h))
  · rintro (((h | h) | h) | h)
    · exact absurd (hcpu h) (by omega)
    · exact absurd (hdisk h) (by omega)
    · exact h
    · exact absurd (hgauge h) (by omega)
  · exact fun h => Or.inl (Or.inr h)

/-- True deltas, exactly: in a run of calls at increasing times, all rates a
call emits are true if and only if the disk counters, the network counters and
the ticks were read at the right times before it. -/
theorem trueDeltas_iff (calls : List ProcReads) (htimes : Increasing calls)
    (earlier : List ProcReads) (now : ProcReads) (later : List ProcReads)
    (hcalls : calls = earlier ++ now :: later) :
    TrueDeltas earlier now ((readerAfter earlier).sample now).1 ↔
      CountersReady ProcReads.disk earlier now ∧ CountersReady ProcReads.net earlier now ∧
        TicksReady earlier now := by
  subst hcalls
  rcases List.eq_nil_or_concat earlier with rfl | ⟨before, previous, rfl⟩
  · -- the first call emits no rate, and nothing is asked of it
    have hgauges : ((readerAfter []).sample now).1 = gaugeReadings now := by
      rw [reader_after, ProcReader.sample]
      simp
    have hnone : ∀ (id : ℕ), id ∉ [kMetricLoad1, kMetricMemUsedBytes, kMetricMemTotalBytes,
        kMetricProcCount] → ∀ r ∈ ((readerAfter []).sample now).1, r.metricId ≠ id := by
      intro id hid r hr heq
      rw [hgauges] at hr
      exact hid (heq ▸ metricId_of_mem_gaugeReadings hr)
    refine iff_of_true ⟨?_, ?_, ?_, ?_, ?_, ?_⟩ ⟨?_, ?_, ?_⟩
    · exact fun r hr hid => absurd hid (hnone _ (by decide) r hr)
    · exact fun r hr hid => absurd hid (hnone _ (by decide) r hr)
    · exact fun r hr hid => absurd hid (hnone _ (by decide) r hr)
    · exact fun r hr hid => absurd hid (hnone _ (by decide) r hr)
    · exact fun r hr hid => absurd hid (hnone _ (by decide) r hr)
    · exact fun r hr hid => absurd hid (hnone _ (by decide) r hr)
    · exact fun c _ previous hp => by cases hp
    · exact fun c _ previous hp => by cases hp
    · exact fun ticks _ hne => absurd rfl hne
  · rw [List.concat_eq_append] at htimes ⊢
    have hbefore : Increasing (before ++ [previous]) := (List.pairwise_append.mp htimes).1
    have hnow : previous.nowMonoNs < now.nowMonoNs :=
      (List.pairwise_append.mp htimes).2.2 previous
        (List.mem_append_right _ (List.mem_singleton_self _)) now List.mem_cons_self
    have hmem := mem_sample_iff before hnow
    -- each source by itself
    have hdisk : (TrueRate ProcReads.disk Counters.inward kSectorBytes kMetricDiskReadBytesS
          (before ++ [previous]) now ((readerAfter (before ++ [previous])).sample now).1 ∧
        TrueRate ProcReads.disk Counters.outward kSectorBytes kMetricDiskWriteBytesS
          (before ++ [previous]) now ((readerAfter (before ++ [previous])).sample now).1) ↔
        CountersReady ProcReads.disk (before ++ [previous]) now := by
      rw [TrueRate.congr fun r hid => (hmem r).2.1 (Or.inl hid),
        TrueRate.congr fun r hid => (hmem r).2.1 (Or.inr hid)]
      exact counterDeltas_iff (by norm_num [kSectorBytes]) (by decide) hbefore hnow
    have hnet : (TrueRate ProcReads.net Counters.inward 1 kMetricNetRxBytesS
          (before ++ [previous]) now ((readerAfter (before ++ [previous])).sample now).1 ∧
        TrueRate ProcReads.net Counters.outward 1 kMetricNetTxBytesS
          (before ++ [previous]) now ((readerAfter (before ++ [previous])).sample now).1) ↔
        CountersReady ProcReads.net (before ++ [previous]) now := by
      rw [TrueRate.congr fun r hid => (hmem r).2.2 (Or.inl hid),
        TrueRate.congr fun r hid => (hmem r).2.2 (Or.inr hid)]
      exact counterDeltas_iff one_ne_zero (by decide) hbefore hnow
    have hcpu : (TruePct cpuPct kMetricCpuPct (before ++ [previous]) now
          ((readerAfter (before ++ [previous])).sample now).1 ∧
        TruePct iowaitPct kMetricIowaitPct (before ++ [previous]) now
          ((readerAfter (before ++ [previous])).sample now).1) ↔
        TicksReady (before ++ [previous]) now := by
      rw [TruePct.congr fun r hid => (hmem r).1 (Or.inl hid),
        TruePct.congr fun r hid => (hmem r).1 (Or.inr hid)]
      exact percentages_iff
    rw [← hdisk, ← hnet, ← hcpu]
    constructor
    · rintro ⟨h₁, h₂, h₃, h₄, h₅, h₆⟩
      exact ⟨⟨h₃, h₄⟩, ⟨h₅, h₆⟩, h₁, h₂⟩
    · rintro ⟨⟨h₃, h₄⟩, ⟨h₅, h₆⟩, h₁, h₂⟩
      exact ⟨h₁, h₂, h₃, h₄, h₅, h₆⟩

/-- A call in which at most the disk counters can be read. -/
def diskReads (seconds : ℤ) (disk : Option Counters) : ProcReads :=
  ⟨seconds * 1000000000, none, disk, none, none, none, none⟩

theorem trueDeltas_iff_example :
    TrueDeltas [diskReads 0 (some ⟨0, 0⟩)] (diskReads 1 (some ⟨8, 0⟩))
        ((readerAfter [diskReads 0 (some ⟨0, 0⟩)]).sample (diskReads 1 (some ⟨8, 0⟩))).1 ↔
      CountersReady ProcReads.disk [diskReads 0 (some ⟨0, 0⟩)] (diskReads 1 (some ⟨8, 0⟩)) ∧
        CountersReady ProcReads.net [diskReads 0 (some ⟨0, 0⟩)] (diskReads 1 (some ⟨8, 0⟩)) ∧
        TicksReady [diskReads 0 (some ⟨0, 0⟩)] (diskReads 1 (some ⟨8, 0⟩)) :=
  trueDeltas_iff [diskReads 0 (some ⟨0, 0⟩), diskReads 1 (some ⟨8, 0⟩)]
    (by simp [Increasing, diskReads]) [diskReads 0 (some ⟨0, 0⟩)] (diskReads 1 (some ⟨8, 0⟩)) [] rfl

/-- The disk counters are read at 0 s and at 2 s, but not at 1 s: the change over
two seconds is divided by one. -/
theorem trueDeltas_counterexample :
    Increasing [diskReads 0 (some ⟨0, 0⟩), diskReads 1 none, diskReads 2 (some ⟨8, 0⟩)] ∧
      ¬ TrueDeltas [diskReads 0 (some ⟨0, 0⟩), diskReads 1 none] (diskReads 2 (some ⟨8, 0⟩))
        ((readerAfter [diskReads 0 (some ⟨0, 0⟩), diskReads 1 none]).sample
          (diskReads 2 (some ⟨8, 0⟩))).1 := by
  refine ⟨by simp [Increasing, diskReads], fun h => ?_⟩
  have hmem : (⟨kMetricDiskReadBytesS, 4096⟩ : MetricReading) ∈
      ((readerAfter [diskReads 0 (some ⟨0, 0⟩), diskReads 1 none]).sample
        (diskReads 2 (some ⟨8, 0⟩))).1 := by
    decide +kernel
  obtain ⟨c, p, hc, hp, hvalue⟩ := h.diskRead _ hmem rfl
  rw [show c = ⟨8, 0⟩ from (Option.some_inj.mp hc).symm,
    show p = (0, ⟨0, 0⟩) from (Option.some_inj.mp hp).symm] at hvalue
  have h8 : (8 : UInt64).toNat = 8 := rfl
  norm_num [seconds, diskReads, kSectorBytes, h8] at hvalue

end Agent
