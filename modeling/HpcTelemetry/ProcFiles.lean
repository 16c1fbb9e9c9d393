/-
The files under `/proc` (the readers of `ProcReader`).

Each reader opens one file and parses it with stream extraction.  What they
return together is what one call of `Sample` reads.

* `ProcRoot` — the contents of the files at the time of a call;
* `readCpuTicks`, `readLoad1`, `readMemUsedAndTotalBytes`, `readDiskCounters`,
  `readNetCounters`, `readProcCount` — the readers;
* `diskDevice_columns`, `netDevice_columns` — which columns of a line are read;
* `sumDevices_eq` — the counters of a file are the sums over the devices listed
  in it.
-/
import HpcTelemetry.ProcReader
import HpcTelemetry.StreamExtraction

namespace Agent

open StreamExtraction

/-- The files under `proc_root_`, and the names in the directory; `none` if it
cannot be opened. -/
structure ProcRoot where
  stat : Option (List Char)
  loadavg : Option (List Char)
  meminfo : Option (List Char)
  diskstats : Option (List Char)
  netDev : Option (List Char)
  entries : Option (List (List Char))
  deriving DecidableEq

/-! ### Ticks and load -/

/-- `ReadCpuTicks`, on the text of `stat`. -/
def readCpuTicks (text : List Char) : Option CpuTicks :=
  match lines text with
  | [] => none
  | firstLine :: _ =>
    let (label, stream) := (IStream.ofText firstLine).extract word []
    if label ≠ "cpu".toList then none
    else
      let (ticks, stream) := stream.extractMany unsigned 0 8
      -- a line that ends early leaves the other fields zero
      if stream.fail ∧ ¬ stream.eof then none
      else some
        { user := ticks.getD 0 0
          nice := ticks.getD 1 0
          system := ticks.getD 2 0
          idle := ticks.getD 3 0
          iowait := ticks.getD 4 0
          irq := ticks.getD 5 0
          softirq := ticks.getD 6 0
          steal := ticks.getD 7 0 }

/-- `ReadLoad1`, on the text of `loadavg`. -/
def readLoad1 (text : List Char) : Option ℚ :=
  let (load1, file) := (IStream.ofText text).extract double 0
  if file.fail then none else some load1

/-! ### Memory -/

/-- The two values `ReadMemUsedAndTotalBytes` looks for. -/
structure MemKb where
  memTotalKb : Option ℚ := none
  memAvailableKb : Option ℚ := none
  deriving DecidableEq

/-- `stream >> key >> value` on a line of `meminfo`: the key, the value, and the
stream, whose state is not looked at. -/
def memFields (line : List Char) : List Char × ℚ × IStream :=
  let (key, stream) := (IStream.ofText line).extract word []
  (key, stream.extract double 0)

/-- What a line assigns. -/
def MemKb.assign (mem : MemKb) (line : List Char) : MemKb :=
  let (key, value, _) := memFields line
  if key = "MemTotal:".toList then { mem with memTotalKb := some value }
  else if key = "MemAvailable:".toList then { mem with memAvailableKb := some value }
  else mem

/-- The loop over the lines, which stops when both values are there. -/
def MemKb.scan (mem : MemKb) : List (List Char) → MemKb
  | [] => mem
  | line :: rest =>
    let mem' := mem.assign line
    if mem'.memTotalKb.isSome ∧ mem'.memAvailableKb.isSome then mem' else mem'.scan rest

/-- `ReadMemUsedAndTotalBytes`, on the text of `meminfo`. -/
def readMemUsedAndTotalBytes (text : List Char) : Option (ℚ × ℚ) :=
  let mem := ({} : MemKb).scan (lines text)
  match mem.memTotalKb, mem.memAvailableKb with
  | some memTotalKb, some memAvailableKb =>
    some ((memTotalKb - memAvailableKb) * 1024, memTotalKb * 1024)
  | _, _ => none

/-! ### Disks and interfaces -/

/-- A device or interface by its name, with the counters that are summed. -/
abbrev Device := List Char × Counters

/-- The block device a line of `diskstats` lists; `none` for a line that does not
parse and for a pseudo device. -/
def diskDevice (line : List Char) : Option Device :=
  let (names, stream) := (IStream.ofText line).extractMany word [] 3
  -- reads_completed, reads_merged, sectors_read, time_reading_ms,
  -- writes_completed, writes_merged, sectors_written
  let (numbers, stream) := stream.extractMany unsigned 0 7
  let name := names.getD 2 []
  if stream.fail then none
  else if "loop".toList.isPrefixOf name ∨ "ram".toList.isPrefixOf name then none
  else some (name, ⟨numbers.getD 2 0, numbers.getD 6 0⟩)

/-- The interface a line of `net/dev` lists; `none` for a line that does not
parse and for the loopback. -/
def netDevice (line : List Char) : Option Device :=
  if ':' ∉ line then none
  else
    let iface := (line.takeWhile (· ≠ ':')).dropWhile fun c => c = ' ' ∨ c = '\t'
    if iface = "lo".toList then none
    else
      -- rx_bytes, rx_packets, rx_errs, rx_drop, rx_fifo, rx_frame,
      -- rx_compressed, rx_multicast, tx_bytes
      let (numbers, stream) :=
        (IStream.ofText ((line.dropWhile (· ≠ ':')).drop 1)).extractMany unsigned 0 9
      if stream.fail then none else some (iface, ⟨numbers.getD 0 0, numbers.getD 8 0⟩)

/-- The number in a column. -/
def columnNumber (c : Column) : UInt64 := UInt64.ofNat (decimal c.field)

theorem reads_numbers {numbers : List Column} (h : ∀ c ∈ numbers, IsDecimal c.field) :
    List.Forall₂ (fun c x => Reads unsigned c.field x) numbers (numbers.map columnNumber) := by
  rw [List.forall₂_map_right_iff, List.forall₂_same]
  exact fun c hc => reads_unsigned (h c hc)

theorem reads_words {names : List Column} (h : ∀ c ∈ names, IsWord c.field) :
    List.Forall₂ (fun c x => Reads word c.field x) names (names.map Column.field) := by
  rw [List.forall₂_map_right_iff, List.forall₂_same]
  exact fun c hc => reads_word (h c hc)

/-- Of a line of `diskstats`, the third column is the name, and the sixth and the
tenth are the sectors read and written. -/
theorem diskDevice_columns {major minor name readsCompleted readsMerged sectorsRead timeReadingMs
    writesCompleted writesMerged sectorsWritten : Column} {rest : List Char}
    (hoff : SetOff ([major, minor, name] ++ [readsCompleted, readsMerged, sectorsRead,
      timeReadingMs, writesCompleted, writesMerged, sectorsWritten]))
    (hwords : ∀ c ∈ [major, minor, name], IsWord c.field)
    (hnumbers : ∀ c ∈ [readsCompleted, readsMerged, sectorsRead, timeReadingMs, writesCompleted,
      writesMerged, sectorsWritten], IsDecimal c.field) (hrest : Ends rest) :
    diskDevice (columns ([major, minor, name] ++ [readsCompleted, readsMerged, sectorsRead,
        timeReadingMs, writesCompleted, writesMerged, sectorsWritten]) ++ rest) =
      if "loop".toList.isPrefixOf name.field ∨ "ram".toList.isPrefixOf name.field then none
      else some (name.field, ⟨columnNumber sectorsRead, columnNumber sectorsWritten⟩) := by
  obtain ⟨hnames, hcounts, hblank⟩ := hoff.append
  have hwordsRead := IStream.extractMany_columns (reads_words hwords) hnames []
    (hcounts.ends hblank hrest)
  have hnumbersRead := IStream.extractMany_columns (reads_numbers hnumbers) hcounts 0 hrest
  have htext : columns ([major, minor, name] ++ [readsCompleted, readsMerged, sectorsRead,
      timeReadingMs, writesCompleted, writesMerged, sectorsWritten]) ++ rest
      = columns [major, minor, name] ++ (columns [readsCompleted, readsMerged, sectorsRead,
        timeReadingMs, writesCompleted, writesMerged, sectorsWritten] ++ rest) := by
    rw [columns, List.flatMap_append, List.append_assoc]
    rfl
  rw [isEmpty_columns hblank] at hwordsRead
  simp only [diskDevice, htext]
  rw [show (3 : ℕ) = [major, minor, name].length from rfl, hwordsRead]
  simp only
  rw [show (7 : ℕ) = [readsCompleted, readsMerged, sectorsRead, timeReadingMs, writesCompleted,
      writesMerged, sectorsWritten].length from rfl,
    show (⟨columns [readsCompleted, readsMerged, sectorsRead, timeReadingMs, writesCompleted,
      writesMerged, sectorsWritten] ++ rest, false, false⟩ : IStream) = IStream.ofText _ from rfl,
    hnumbersRead]
  rfl

/-- Of a line of `net/dev`, the first column behind the colon is the number of bytes
received, and the ninth that of bytes sent. -/
theorem netDevice_columns {indent iface : List Char} {rxBytes rxPackets rxErrs rxDrop rxFifo rxFrame
    rxCompressed rxMulticast txBytes : Column} {rest : List Char}
    (hindent : ∀ c ∈ indent, c = ' ' ∨ c = '\t') (hiface : IsWord iface) (hcolon : ':' ∉ iface)
    (hoff : SetOff [rxBytes, rxPackets, rxErrs, rxDrop, rxFifo, rxFrame, rxCompressed, rxMulticast,
      txBytes])
    (hnumbers : ∀ c ∈ [rxBytes, rxPackets, rxErrs, rxDrop, rxFifo, rxFrame, rxCompressed,
      rxMulticast, txBytes], IsDecimal c.field) (hrest : Ends rest) :
    netDevice (indent ++ iface ++ ':' :: (columns [rxBytes, rxPackets, rxErrs, rxDrop, rxFifo,
        rxFrame, rxCompressed, rxMulticast, txBytes] ++ rest)) =
      if iface = "lo".toList then none
      else some (iface, ⟨columnNumber rxBytes, columnNumber txBytes⟩) := by
  have hread := IStream.extractMany_columns (reads_numbers hnumbers) hoff 0 hrest
  have hindent' : ∀ c ∈ indent, c ≠ ':' := by
    intro c hc
    rcases hindent c hc with rfl | rfl
    · decide
    · decide
  have hname : ∀ c ∈ indent ++ iface, decide (c ≠ ':') = true := by
    intro c hc
    rw [decide_eq_true_eq]
    rcases List.mem_append.mp hc with hc | hc
    · exact hindent' c hc
    · exact fun h => hcolon (h ▸ hc)
  have hspan := @span_append (fun c => decide (c ≠ ':')) (indent ++ iface)
    (':' :: (columns [rxBytes, rxPackets, rxErrs, rxDrop, rxFifo, rxFrame, rxCompressed,
      rxMulticast, txBytes] ++ rest)) hname fun c hc => by
      obtain rfl := Option.some_inj.mp hc
      rfl
  have hstrip := @span_append (fun c => decide (c = ' ' ∨ c = '\t')) indent iface
    (fun c hc => decide_eq_true (hindent c hc)) fun c hc => by
      have hspace := hiface.2 c (List.mem_of_mem_head? hc)
      rw [decide_eq_false_iff_not]
      rintro (rfl | rfl)
      · cases hspace
      · cases hspace
  rw [netDevice, if_neg (by simp), hspan.1, hspan.2, hstrip.2]
  simp only [List.drop_one, List.tail_cons]
  rw [show (9 : ℕ) = [rxBytes, rxPackets, rxErrs, rxDrop, rxFifo, rxFrame, rxCompressed,
    rxMulticast, txBytes].length from rfl, hread]
  rfl

/-- `totals += ...`, modulo the width. -/
def Counters.add (totals c : Counters) : Counters :=
  ⟨totals.inward + c.inward, totals.outward + c.outward⟩

/-- The loop over the lines of a file: the totals over the devices listed there,
or `none` if there is no device. -/
def sumDevices (device : List Char → Option Device) (lines : List (List Char)) :
    Option Counters :=
  let (totals, sawAny) := lines.foldl
    (fun (acc : Counters × Bool) line =>
      match device line with
      | none => acc
      | some d => (acc.1.add d.2, true)) ({}, false)
  if sawAny then some totals else none

/-- The devices' counters added up. -/
def totals (devices : List Device) : Counters := devices.foldl (fun t d => t.add d.2) {}

/-- The totals are those of the devices listed. -/
theorem sumDevices_eq (device : List Char → Option Device) (lines : List (List Char)) :
    sumDevices device lines = if lines.filterMap device = [] then none
      else some (totals (lines.filterMap device)) := by
  have key : ∀ (lines : List (List Char)) (acc : Counters × Bool),
      lines.foldl (fun (acc : Counters × Bool) line =>
        match device line with
        | none => acc
        | some d => (acc.1.add d.2, true)) acc
        = ((lines.filterMap device).foldl (fun t d => t.add d.2) acc.1,
          acc.2 || !(lines.filterMap device).isEmpty) := by
    intro lines
    induction lines with
    | nil => simp
    | cons line lines ih =>
      intro acc
      rw [List.foldl_cons, ih]
      cases hd : device line with
      | none => simp [hd]
      | some d => simp [hd]
  rw [sumDevices, key, totals]
  cases lines.filterMap device <;> simp

/-- Counters that do not overflow are added up exactly. -/
theorem totals_toNat {devices : List Device}
    (hin : (devices.map fun d => d.2.inward.toNat).sum < 2 ^ 64)
    (hout : (devices.map fun d => d.2.outward.toNat).sum < 2 ^ 64) :
    (totals devices).inward.toNat = (devices.map fun d => d.2.inward.toNat).sum ∧
      (totals devices).outward.toNat = (devices.map fun d => d.2.outward.toNat).sum := by
  have key : ∀ (devices : List Device) (t : Counters),
      (devices.foldl (fun t d => t.add d.2) t).inward.toNat
        = (t.inward.toNat + (devices.map fun d => d.2.inward.toNat).sum) % 2 ^ 64 ∧
      (devices.foldl (fun t d => t.add d.2) t).outward.toNat
        = (t.outward.toNat + (devices.map fun d => d.2.outward.toNat).sum) % 2 ^ 64 := by
    intro devices
    induction devices with
    | nil =>
      intro t
      have h₁ := t.inward.toNat_lt
      have h₂ := t.outward.toNat_lt
      simp only [List.foldl_nil, List.map_nil, List.sum_nil]
      omega
    | cons d devices ih =>
      intro t
      obtain ⟨h₁, h₂⟩ := ih (t.add d.2)
      simp only [Counters.add, UInt64.toNat_add] at h₁ h₂
      simp only [List.foldl_cons, List.map_cons, List.sum_cons, Counters.add]
      omega
  obtain ⟨h₁, h₂⟩ := key devices {}
  have hzero : (0 : UInt64).toNat = 0 := rfl
  simp only [hzero] at h₁ h₂
  rw [totals]
  omega

/-- `ReadDiskCounters`, on the text of `diskstats`. -/
def readDiskCounters (text : List Char) : Option Counters := sumDevices diskDevice (lines text)

/-- `ReadNetCounters`, on the text of `net/dev`, which has a header of two lines. -/
def readNetCounters (text : List Char) : Option Counters :=
  sumDevices netDevice ((lines text).drop 2)

/-! ### Processes -/

def isAllDigits (s : List Char) : Bool := s ≠ [] ∧ s.all Char.isDigit

/-- `ReadProcCount`, on the names in the directory. -/
def readProcCount (entries : List (List Char)) : ℕ := entries.countP isAllDigits

/-- What `Sample` reads at this time. -/
def ProcRoot.reads (root : ProcRoot) (nowMonoNs : ℤ) : ProcReads where
  nowMonoNs := nowMonoNs
  cpuTicks := root.stat.bind readCpuTicks
  disk := root.diskstats.bind readDiskCounters
  net := root.netDev.bind readNetCounters
  load1 := root.loadavg.bind readLoad1
  memUsedAndTotal := root.meminfo.bind readMemUsedAndTotalBytes
  procCount := root.entries.map readProcCount

end Agent
