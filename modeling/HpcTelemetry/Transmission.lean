/-
The order of transmission.

The erasure after a send removes a number of records, not the records that were
sent, and `Enqueue` may move the front of the queue meanwhile.  It only ever
moves forward, though, and never short of the batch: so the records that left
the queue are a prefix of those enqueued, and each batch starts behind the
batches sent before it.

* `SenderState.Advancing` — where the queue and the batch in flight lie among
  the records enqueued;
* `SenderState.transmission` — in every run the queue is a suffix of the records
  enqueued, and the batches sent are blocks of it, one behind the other.
-/
import HpcTelemetry.SenderQueue

namespace Agent

open Transitions

namespace SenderState

variable {ρ : Type*}

/-- The batch lies among the records enqueued, behind those sent, and the queue
starts with it or behind its first record. -/
structure Ahead (s : SenderState ρ) (gone batch : List (ℕ × ρ)) : Prop where
  block : ∃ before after, s.enqueued = before ++ batch ++ after ∧
    s.sent.flatten.Sublist before ∧ before.length ≤ gone.length
  short : batch.length ≤ kMaxBatchSize

/-- The records that have left the queue are a prefix of those enqueued, and
what was sent is among them, in order. -/
structure Advancing (s : SenderState ρ) : Prop where
  numbered : s.enqueued.map Prod.fst = List.range s.enqueued.length
  queued : ∃ gone, s.enqueued = gone ++ s.sender.queue ∧ s.sent.flatten.Sublist gone ∧
    ∀ batch, s.inFlight = some batch → s.Ahead gone batch
  blocks : ∀ batch ∈ s.sent, batch <:+: s.enqueued ∧ batch.length ≤ kMaxBatchSize

theorem advancing_init : (init : SenderState ρ).Advancing where
  numbered := rfl
  queued := ⟨[], rfl, List.Sublist.refl _, fun _ h => (by cases h)⟩
  blocks := fun _ h => absurd h List.not_mem_nil

/-- Prefixes of one list are ordered by their lengths. -/
theorem prefix_of_append_eq {α : Type*} {p q p' q' : List α} (h : p ++ q = p' ++ q')
    (hlen : p.length ≤ p'.length) : p <+: p' :=
  List.prefix_of_prefix_length_le (List.prefix_append p q)
    (h ▸ List.prefix_append p' q') hlen

theorem advancing_step {maxQueueSize : ℕ} {s s' : SenderState ρ} {a : SenderAction ρ}
    (h : s.Advancing) (hstep : SenderStep maxQueueSize s a s') : s'.Advancing := by
  obtain ⟨hnumbered, ⟨gone, hgone, hsent, hflight⟩, hblocks⟩ := h
  cases hstep with
  | @enqueue record sender' he =>
    obtain ⟨rest, hqueue, hqueue', _⟩ := SampleSender.enqueue_spec he
    refine ⟨?_, ⟨gone ++ s.sender.overflow maxQueueSize, ?_, ?_, ?_⟩, ?_⟩
    · rw [List.map_append, hnumbered, List.length_append, List.map_singleton,
        List.length_singleton, List.range_succ]
    · -- what overflows joins the records that are gone
      show s.enqueued ++ _ = gone ++ _ ++ sender'.queue
      rw [hqueue', hgone, hqueue]
      simp only [List.append_assoc]
    · exact hsent.trans (List.sublist_append_left _ _)
    · intro batch hb
      obtain ⟨⟨before, after, hblock, hbefore, hlen⟩, hshort⟩ := hflight batch hb
      refine ⟨⟨before, after ++ [(s.enqueued.length, record)], ?_, hbefore, ?_⟩, hshort⟩
      · show s.enqueued ++ _ = _
        rw [hblock, List.append_assoc _ after]
      · rw [List.length_append]
        omega
    · intro batch hb
      obtain ⟨hin, hshort⟩ := hblocks batch hb
      exact ⟨hin.trans (List.prefix_append _ _).isInfix, hshort⟩
  | snapshot _ =>
    refine ⟨hnumbered, ⟨gone, hgone, hsent, fun batch hb => ?_⟩, hblocks⟩
    simp only at hb
    split_ifs at hb with hnil
    rw [Option.some_inj] at hb
    subst hb
    -- the batch is the front of the queue
    refine ⟨⟨gone, s.sender.queue.drop (min s.sender.queue.length kMaxBatchSize), ?_, hsent,
      le_rfl⟩, ?_⟩
    · show s.enqueued = gone ++ s.sender.queue.take _ ++ _
      rw [List.append_assoc, List.take_append_drop, ← hgone]
    · rw [SampleSender.batch, List.length_take]
      omega
  | @success batch hb =>
    obtain ⟨⟨before, after, hblock, hbefore, hlen⟩, hshort⟩ := hflight batch hb
    set n := min batch.length s.sender.queue.length with hn
    have hgone' : s.enqueued = (gone ++ s.sender.queue.take n) ++ s.sender.queue.drop n := by
      rw [List.append_assoc, List.take_append_drop, ← hgone]
    -- the erasure takes the front at least to the end of the batch
    have hprefix : before ++ batch <+: gone ++ s.sender.queue.take n := by
      rcases Nat.le_total batch.length s.sender.queue.length with hle | hle
      · refine prefix_of_append_eq (hblock.symm.trans hgone') ?_
        rw [List.length_append, List.length_append, List.length_take]
        omega
      · have hall : s.sender.queue.take n = s.sender.queue :=
          List.take_of_length_le (by omega)
        rw [hall, ← hgone, hblock]
        exact List.prefix_append _ _
    have hflat : (s.sent ++ [batch]).flatten = s.sent.flatten ++ batch := by
      rw [List.flatten_append, List.flatten_singleton]
    refine ⟨hnumbered, ⟨gone ++ s.sender.queue.take n, hgone', ?_, fun _ hc => (by cases hc)⟩, ?_⟩
    · show (s.sent ++ [batch]).flatten.Sublist _
      rw [hflat]
      exact (hbefore.append (List.Sublist.refl batch)).trans hprefix.sublist
    · intro b hb'
      rcases List.mem_append.mp hb' with hb' | hb'
      · exact hblocks b hb'
      · rw [List.mem_singleton] at hb'
        subst hb'
        exact ⟨⟨before, after, hblock.symm⟩, hshort⟩
  | failure _ =>
    exact ⟨hnumbered, ⟨gone, hgone, hsent, fun _ hc => (by cases hc)⟩, hblocks⟩

/-! ### Every run -/

/-- The records sent are some of those enqueued, in order and each once.  A
record's number is its place among those enqueued. -/
structure InOrder (s : SenderState ρ) : Prop where
  numbered : s.enqueued.map Prod.fst = List.range s.enqueued.length
  suffix : s.sender.queue <:+ s.enqueued
  subsequence : s.sent.flatten.Sublist s.enqueued
  increasing : (s.sent.flatten.map Prod.fst).Pairwise (· < ·)
  blocks : ∀ batch ∈ s.sent, batch <:+: s.enqueued ∧ batch.length ≤ kMaxBatchSize

/-- Transmission in order and at most once: in every run, whatever overflowed
and whenever. -/
theorem transmission {maxQueueSize : ℕ} {tr : List (SenderState ρ × SenderAction ρ)}
    {s : SenderState ρ} (hrun : Run (SenderStep maxQueueSize) init tr s) : s.InOrder := by
  have h : s.Advancing :=
    hrun.invariant advancing_init fun _ _ _ ha hstep => advancing_step ha hstep
  obtain ⟨gone, hgone, hsent, _⟩ := h.queued
  have hsub : s.sent.flatten.Sublist s.enqueued := by
    rw [hgone]
    exact hsent.trans (List.sublist_append_left _ _)
  refine ⟨h.numbered, ⟨gone, hgone.symm⟩, hsub, ?_, h.blocks⟩
  have hpairs : (s.enqueued.map Prod.fst).Pairwise (· < ·) := by
    rw [h.numbered]
    exact List.pairwise_lt_range
  exact hpairs.sublist (hsub.map _)

/-- With room for one record: `7` is copied, `8` drops it from the queue, `7` is
sent and `8` erased, and then `9` is sent. -/
theorem transmission_example :
    (⟨⟨[], 1⟩, none, [(0, 7), (1, 8), (2, 9)], [[(0, 7)], [(2, 9)]], [(0, 7)]⟩ :
      SenderState ℕ).InOrder :=
  transmission (show Run (SenderStep 1) init _ _ from
    ((((((Run.nil.snoc (@SenderStep.enqueue ℕ 1 _ 7 _ rfl)).snoc (.snapshot rfl)).snoc
      (@SenderStep.enqueue ℕ 1 _ 8 _ rfl)).snoc
      (@SenderStep.success ℕ 1 ⟨⟨[(1, 8)], 1⟩, some [(0, 7)], [(0, 7), (1, 8)], [], [(0, 7)]⟩
        [(0, 7)] rfl)).snoc (@SenderStep.enqueue ℕ 1 _ 9 _ rfl)).snoc (.snapshot rfl)).snoc
      (@SenderStep.success ℕ 1 ⟨⟨[(2, 9)], 1⟩, some [(2, 9)], [(0, 7), (1, 8), (2, 9)],
        [[(0, 7)]], [(0, 7)]⟩ [(2, 9)] rfl))

end SenderState

end Agent
