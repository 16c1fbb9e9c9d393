/-
Straggler ranking (`hpctel/analysis/straggler.py`), in exact arithmetic.

* `rankStragglers` — the modified z-scores of the nodes of one phase, and the
  nodes in their order;
* `tagRootCause` — which metric rose most;
* `rankStragglers_ranked`, `length_rankedNodes` — a ranking has a node for each
  duration, and is made of three durations or more.
-/
import HpcTelemetry.DoubleArithmetic
import HpcTelemetry.KeyedTable
import HpcTelemetry.OrderStatistics
import Mathlib.Data.Prod.Lex
import Mathlib.Data.String.Basic

namespace Analysis

open OrderStatistics

def madZThreshold : ℚ := 3.5
def madConstant : ℚ := 0.6745
def madFloorNs : ℚ := 1000000
def minReportingNodes : ℕ := 3
def rootCauseRelativeThreshold : ℚ := 0.25

structure RankedNode where
  nodeId : String
  durationNs : ℤ
  zScore : ℚ
  flagged : Bool
  deriving DecidableEq

inductive ReportStatus where
  | ranked
  | insufficientEvidence
  deriving DecidableEq

inductive RootCause where
  | cpuContention
  | ioStall
  | network
  | unknown
  deriving DecidableEq

structure StragglerReport where
  jobId : String
  phaseIndex : ℕ
  status : ReportStatus
  rankedNodes : List RankedNode := []
  topCandidate : Option String := none
  naiveBaselineCandidate : Option String := none
  rootCause : Option RootCause := none
  deriving DecidableEq

/-- A dictionary from nodes to durations: its items in insertion order. -/
abbrev Durations := KeyedTable (Prod.fst : String × ℤ → String)

namespace Durations

/-- The median of the durations. -/
def median (durationsNs : Durations) : ℚ :=
  OrderStatistics.median (durationsNs.rows.map fun item => (item.2 : ℚ))

/-- The median deviation from the median, or the floor. -/
def mad (durationsNs : Durations) : ℚ :=
  max
    (OrderStatistics.median
      (durationsNs.rows.map fun item => |(item.2 : ℚ) - durationsNs.median|))
    madFloorNs

def zScore (durationsNs : Durations) (durationNs : ℤ) : ℚ :=
  madConstant * (durationNs - durationsNs.median) / durationsNs.mad

def rankedNode (durationsNs : Durations) (item : String × ℤ) : RankedNode :=
  ⟨item.1, item.2, durationsNs.zScore item.2, durationsNs.zScore item.2 > madZThreshold⟩

end Durations

/-- The sort key of a node. -/
def rankKey (node : RankedNode) : ℚ ×ₗ String := toLex (-node.zScore, node.nodeId)

/-- The key of the naive baseline. -/
def naiveKey (item : String × ℤ) : ℤ ×ₗ String := toLex (item.2, item.1)

/-- The nodes by descending z-score, ties by ascending name. -/
def rankedNodes (durationsNs : Durations) : List RankedNode :=
  (durationsNs.rows.map durationsNs.rankedNode).insertionSort fun a b => rankKey a ≤ rankKey b

/-- `rank_stragglers`. -/
def rankStragglers (jobId : String) (phaseIndex : ℕ) (durationsNs : Durations) :
    StragglerReport :=
  if durationsNs.rows.length < minReportingNodes then
    { jobId := jobId, phaseIndex := phaseIndex, status := .insufficientEvidence }
  else
    let flagged := (rankedNodes durationsNs).filter (·.flagged)
    { jobId := jobId
      phaseIndex := phaseIndex
      status := .ranked
      rankedNodes := rankedNodes durationsNs
      topCandidate := flagged.head?.map (·.nodeId)
      naiveBaselineCandidate :=
        (firstBest (fun a b => naiveKey b < naiveKey a) durationsNs.rows).map Prod.fst }

/-- `tag_root_cause`. -/
def tagRootCause (cpuPctDelta iowaitPctDelta netBytesSDelta : Option Double) : RootCause :=
  let candidates := [(RootCause.cpuContention, cpuPctDelta), (.ioStall, iowaitPctDelta),
    (.network, netBytesSDelta)]
  let measurable := candidates.filterMap fun item => item.2.map fun delta => (item.1, delta)
  match firstBest (fun a b => b.2.lt a.2) measurable with
  | none => .unknown
  | some (bestTag, bestDelta) =>
    if (Double.finite rootCauseRelativeThreshold).lt bestDelta then bestTag else .unknown

/-! ### What a ranking is made of -/

theorem rankStragglers_ranked {jobId : String} {phaseIndex : ℕ} {durationsNs : Durations} :
    (rankStragglers jobId phaseIndex durationsNs).status = .ranked
      ↔ minReportingNodes ≤ durationsNs.rows.length := by
  rw [rankStragglers]
  split_ifs with h
  · constructor
    · intro hc
      cases hc
    · intro hc
      omega
  · constructor
    · intro _
      omega
    · intro _
      rfl

theorem length_rankedNodes (durationsNs : Durations) :
    (rankedNodes durationsNs).length = durationsNs.rows.length := by
  rw [rankedNodes, List.length_insertionSort, List.length_map]

end Analysis
