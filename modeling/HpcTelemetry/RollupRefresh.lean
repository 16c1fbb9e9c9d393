/-
The background task that refreshes the rollups (`_refresh_rollups_periodically` in
`hpctel/api.py`).

Every pass recomputes the rollups of all pairs there are.  Nothing catches what
`recompute_rollups` raises, so the first pair that it raises for ends the pass and
with it the task.

* `refreshPass` — one pass; `refreshPass_spec` — what it does;
* `Service`, `ServiceStep` — the store and the task, between passes;
* `refreshing_iff` — the task refreshes everything in exactly the runs in which no
  pass finds an hour of a pair with infinities of both signs.
-/
import HpcTelemetry.Finality
import HpcTelemetry.Rollups
import HpcTelemetry.Transitions

namespace Api

open Ingest Transitions Wire

/-! ### One pass -/

/-- The body of the loop, behind the `sleep`. -/
def refreshPass (store : TSDBStore) : List (String × ℕ) → TSDBStore × TSDBStore.CallResult
  | [] => (store, .returned)
  | pair :: pairs =>
    let r := store.recomputeRollups pair.1 pair.2
    if r.2 = .returned then refreshPass r.1 pairs else r

/-- No pair has samples of `+inf` and of `-inf` in one hour. -/
def NoMixedHour (store : TSDBStore) : Prop :=
  ∀ nodeId metricId,
    ¬ TSDBStore.MixedBucket store.samples TSDBStore.bucketWidthNs1h nodeId metricId

/-- What a pass over some pairs does. -/
structure Passes (store : TSDBStore) (pairs : List (String × ℕ))
    (r : TSDBStore × TSDBStore.CallResult) : Prop where
  returns : r.2 = .returned ↔ ∀ pair ∈ pairs,
    ¬ TSDBStore.MixedBucket store.samples TSDBStore.bucketWidthNs1h pair.1 pair.2
  rolledUp : r.2 = .returned → ∀ pair ∈ pairs, r.1.RolledUp pair.1 pair.2
  others : ∀ pair ∉ pairs, TSDBStore.SameRollups store r.1 pair.1 pair.2

theorem refreshPass_spec (store : TSDBStore) (pairs : List (String × ℕ)) :
    Passes store pairs (refreshPass store pairs) := by
  induction pairs generalizing store with
  | nil =>
    refine ⟨⟨fun _ pair hpair => absurd hpair List.not_mem_nil, fun _ => rfl⟩,
      fun _ pair hpair => absurd hpair List.not_mem_nil, fun _ _ => ⟨rfl, rfl, rfl⟩⟩
  | cons pair pairs ih =>
    have hcall := store.recomputeRollups_spec pair.1 pair.2
    have hrest := ih (store.recomputeRollups pair.1 pair.2).1
    rw [refreshPass]
    by_cases hreturned : (store.recomputeRollups pair.1 pair.2).2 = .returned
    · rw [if_pos hreturned]
      refine ⟨?_, fun h p hp => ?_, fun p hp => ?_⟩
      · rw [hrest.returns, hcall.samples, List.forall_mem_cons]
        constructor
        · intro h
          exact ⟨hcall.returns.mp hreturned, h⟩
        · rintro ⟨_, h⟩
          exact h
      · -- the rest of the pass recomputes the pair or leaves it alone
        by_cases hmem : p ∈ pairs
        · exact hrest.rolledUp h p hmem
        · obtain rfl : p = pair := (List.mem_cons.mp hp).resolve_right hmem
          exact (hrest.others p hmem).rolledUp (hcall.rolledUp hreturned)
      · rw [List.mem_cons, not_or] at hp
        have hfirst := hcall.others p.1 p.2 hp.1
        have hlast := hrest.others p hp.2
        exact ⟨hlast.samples.trans hfirst.samples, hlast.minutes.trans hfirst.minutes,
          hlast.hours.trans hfirst.hours⟩
    · rw [if_neg hreturned]
      refine ⟨⟨fun hc => absurd hc hreturned, fun h => ?_⟩, fun hc => absurd hc hreturned,
        fun p hp => ?_⟩
      · exact absurd (hcall.returns.mpr (h pair List.mem_cons_self)) hreturned
      · rw [List.mem_cons, not_or] at hp
        exact hcall.others p.1 p.2 hp.1

/-- A pass over all pairs returns if no hour is mixed. -/
theorem refreshPass_returned_iff {store : TSDBStore} {pairs : List (String × ℕ)}
    (hpairs : pairs.Perm store.distinctNodeMetricPairs) :
    (refreshPass store pairs).2 = .returned ↔ NoMixedHour store := by
  rw [(refreshPass_spec store pairs).returns]
  constructor
  · intro h nodeId metricId hmixed
    -- the pair is one of those that have samples
    have ⟨r, hr, _⟩ := hmixed
    obtain ⟨hrow, hpair⟩ := List.mem_filter.mp hr
    obtain ⟨hnode, hmetric⟩ := of_decide_eq_true hpair
    refine h (nodeId, metricId) ?_ hmixed
    rw [hpairs.mem_iff, TSDBStore.distinctNodeMetricPairs, List.mem_dedup]
    exact List.mem_map.mpr ⟨r, hrow, Prod.ext hnode hmetric⟩
  · intro h pair _
    exact h pair.1 pair.2

/-! ### The service -/

structure Service where
  store : TSDBStore
  /-- `_refresh_rollups_periodically` has not ended. -/
  refreshing : Bool

/-- The store is new and the task has been created. -/
def Service.start : Service := ⟨.empty, true⟩

inductive ServiceAction where
  | store (a : StoreAction)
  /-- The sleep is over; the pairs come in some order. -/
  | refresh (pairs : List (String × ℕ))

inductive ServiceStep : Service → ServiceAction → Service → Prop where
  | store {s : Service} {a : StoreAction} :
      ServiceStep s (.store a) { s with store := applyAction s.store a }
  | refresh {s : Service} {pairs : List (String × ℕ)} : s.refreshing = true →
      pairs.Perm s.store.distinctNodeMetricPairs →
      ServiceStep s (.refresh pairs)
        ⟨(refreshPass s.store pairs).1, (refreshPass s.store pairs).2 = .returned⟩

/-- A pass recomputes the rollups of every pair, and the task stays alive. -/
structure Refreshed (s s' : Service) : Prop where
  alive : s'.refreshing = true
  rolledUp : ∀ pair ∈ s.store.distinctNodeMetricPairs, s'.store.RolledUp pair.1 pair.2

/-- So does every pass of a run, and the task is alive at its end. -/
structure KeepsRefreshing (tr : List (Service × ServiceAction)) (s : Service) : Prop where
  alive : s.refreshing = true
  passes : ∀ before q pairs after, tr = before ++ (q, .refresh pairs) :: after →
    ∃ s₁, ServiceStep q (.refresh pairs) s₁ ∧ Run ServiceStep s₁ after s ∧ Refreshed q s₁

theorem refreshed_iff {s s' : Service} {pairs : List (String × ℕ)}
    (hstep : ServiceStep s (.refresh pairs) s') : Refreshed s s' ↔ NoMixedHour s.store := by
  cases hstep with
  | refresh _ hpairs =>
    rw [← refreshPass_returned_iff hpairs]
    constructor
    · intro h
      exact of_decide_eq_true h.alive
    · intro h
      refine ⟨decide_eq_true h, fun pair hpair => ?_⟩
      exact (refreshPass_spec s.store pairs).rolledUp h pair (hpairs.mem_iff.mpr hpair)

/-- When every pass of a run recomputes everything. -/
theorem refreshing_iff {tr : List (Service × ServiceAction)} {s : Service}
    (hrun : Run ServiceStep .start tr s) :
    KeepsRefreshing tr s ↔ ∀ p ∈ tr, ∀ pairs, p.2 = .refresh pairs → NoMixedHour p.1.store := by
  constructor
  · intro h p hp pairs hrefresh
    obtain ⟨before, after, rfl⟩ := List.append_of_mem hp
    obtain ⟨q, a⟩ := p
    obtain rfl : a = .refresh pairs := hrefresh
    obtain ⟨s₁, hstep, _, hrefreshed⟩ := h.passes before q pairs after rfl
    exact (refreshed_iff hstep).mp hrefreshed
  · intro hguard
    constructor
    case alive =>
      refine @Run.invariant_of_guard _ _ _ _ _ _ (fun s => s.refreshing = true)
        (fun s a => ∀ pairs, a = .refresh pairs → NoMixedHour s.store) rfl ?_ hrun hguard
      intro s a s' halive hnone hstep
      cases a with
      | store a =>
        cases hstep with
        | store => exact halive
      | refresh pairs => exact ((refreshed_iff hstep).mpr (hnone pairs rfl)).alive
    case passes =>
      intro before q pairs after htr
      subst htr
      obtain ⟨s₁, _, hstep, hafter⟩ := hrun.split
      have hnone := hguard _ (List.mem_append_right _ List.mem_cons_self) pairs rfl
      exact ⟨s₁, hstep, hafter, (refreshed_iff hstep).mpr hnone⟩

/-! ### Infinities -/

/-- The bytes of a sample of metric 1 with a value whose last bytes are given. -/
def valueBytes (node ts b b' : UInt8) : Bytes :=
  [0x1a, 0x10, 0x0a, 0x01, node, 0x10, 0x01, 0x18, ts, 0x31, 0, 0, 0, 0, 0, 0, b, b']

/-- `a` reports `+inf`, and `b` reports 1. -/
def firstPayload : Bytes :=
  [0x08, 0x01, 0x12, 0x01, 0x70] ++ valueBytes 0x61 1 0xf0 0x7f ++ valueBytes 0x62 1 0xf0 0x3f

/-- `a` reports `-inf`. -/
def secondPayload : Bytes := [0x08, 0x01, 0x12, 0x01, 0x70] ++ valueBytes 0x61 2 0xf0 0xff

/-- What the generated parser does with the two batches. -/
def infinitiesCodec : Codec where
  parseSampleBatch payload :=
    [(firstPayload, ⟨1, "p", [⟨"a", 1, 1, 0, 0, .posInf⟩, ⟨"b", 1, 1, 0, 0, .finite 1⟩]⟩),
      (secondPayload, (⟨1, "p", [⟨"a", 1, 2, 0, 0, .negInf⟩]⟩ : SampleBatch))].lookup payload
  parsePhaseEvent _ := none

/-- A batch arrives on a connection of its own. -/
def batchArrives (payload : Bytes) : StoreAction :=
  .ingest ⟨infinitiesCodec, fun _ => ⟨0, 0⟩, "('127.0.0.1', 9)"⟩
    (connected "('127.0.0.1', 9)").task ⟨frameTagSampleBatch, payload⟩

/-- The store after the first batch, and after both. -/
def oneInfinity : TSDBStore := applyAction .empty (batchArrives firstPayload)
def twoInfinities : TSDBStore := applyAction oneInfinity (batchArrives secondPayload)

/-- After the first batch both pairs are refreshed. -/
theorem refreshing_iff_example :
    ∃ (tr : List (Service × ServiceAction)) (s : Service), KeepsRefreshing tr s ∧
      tr.map Prod.snd = [.store (batchArrives firstPayload), .refresh [("a", 1), ("b", 1)]] ∧
      s.store.rollup1m.rows.map (fun r => (r.nodeId, r.avgValue.val))
        = [("a", .posInf), ("b", .finite 1)] := by
  have hpairs : [("a", 1), ("b", 1)].Perm oneInfinity.distinctNodeMetricPairs := by
    decide +kernel
  have hfirst : ServiceStep .start (.store (batchArrives firstPayload)) ⟨oneInfinity, true⟩ :=
    .store
  have hpass := (Run.nil.snoc hfirst).snoc (.refresh rfl hpairs)
  refine ⟨_, _, (refreshing_iff hpass).mpr fun p hp pairs hrefresh => ?_, rfl, by decide +kernel⟩
  rcases List.mem_append.mp hp with hp | hp
  · obtain rfl := List.mem_singleton.mp hp
    cases hrefresh
  · obtain rfl := List.mem_singleton.mp hp
    exact (refreshPass_returned_iff hpairs).mp (by decide +kernel)

/-- The second batch ends the task in its next pass, before the rollups of `b` are
recomputed. -/
theorem refreshing_counterexample :
    ∃ (tr : List (Service × ServiceAction)) (s : Service), Run ServiceStep .start tr s ∧
      tr.map Prod.snd = [.store (batchArrives firstPayload), .store (batchArrives secondPayload),
        .refresh [("a", 1), ("b", 1)]] ∧
      s.refreshing = false ∧ ("b", 1) ∈ s.store.distinctNodeMetricPairs ∧
      ¬ s.store.RolledUp "b" 1 ∧ ¬ KeepsRefreshing tr s := by
  have hpairs : [("a", 1), ("b", 1)].Perm
      twoInfinities.distinctNodeMetricPairs := by
    decide +kernel
  have hfirst : ServiceStep .start (.store (batchArrives firstPayload)) ⟨oneInfinity, true⟩ :=
    .store
  have hsecond : ServiceStep ⟨oneInfinity, true⟩ (.store (batchArrives secondPayload))
      ⟨twoInfinities, true⟩ := .store
  have hpass := ((Run.nil.snoc hfirst).snoc hsecond).snoc (.refresh rfl hpairs)
  refine ⟨_, _, hpass, rfl, by decide +kernel, by decide +kernel, fun hup => ?_, fun hkeeps => ?_⟩
  · exact absurd (congrArg List.length hup.minutes) (by decide +kernel)
  · exact absurd hkeeps.alive (by decide +kernel)

end Api
