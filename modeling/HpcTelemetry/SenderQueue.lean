/-
The sender's queue (`SampleSender::Enqueue` and `SampleSender::RunLoop`).

The sampling loop enqueues; the sender thread copies a batch off the front of
the queue, sends it without holding the mutex, and erases as many records as
the batch had.  Between the copy and the erasure the sampling loop may enqueue,
and a full queue then drops the very records that are in flight.

Each record carries the number of the call that enqueued it, and the state
remembers what was enqueued, sent and dropped (`SenderState`).

* `SenderState.Consistent` — what holds in every run;
* `SenderState.Partitioned` — what holds as long as no erasure meets a queue
  that has moved;
* `conserved_iff` — records are conserved in exactly the runs in which no
  erasure meets a queue that has moved.
-/
import HpcTelemetry.Transitions

namespace Agent

open Transitions

/-- `kMaxBatchSize`. -/
def kMaxBatchSize : ℕ := 256

/-- The part of `SampleSender` the mutex protects, and `dropped_count_`. -/
structure SampleSender (ρ : Type*) where
  queue : List ρ
  droppedCount : ℕ
  deriving DecidableEq

namespace SampleSender

variable {ρ : Type*}

/-- `Enqueue`; `none` is a `pop_front()` on an empty queue. -/
def enqueue (maxQueueSize : ℕ) (record : ρ) (s : SampleSender ρ) : Option (SampleSender ρ) :=
  if s.queue.length ≥ maxQueueSize then
    match s.queue with
    | [] => none
    | _ :: rest => some ⟨rest ++ [record], s.droppedCount + 1⟩
  else some ⟨s.queue ++ [record], s.droppedCount⟩

/-- The batch `RunLoop` copies. -/
def batch (s : SampleSender ρ) : List ρ := s.queue.take (min s.queue.length kMaxBatchSize)

/-- The erasure after a successful send. -/
def eraseSent (batch : List ρ) (s : SampleSender ρ) : SampleSender ρ :=
  { s with queue := s.queue.drop (min batch.length s.queue.length) }

/-- What the overflow branch of an `Enqueue` drops. -/
def overflow (maxQueueSize : ℕ) (s : SampleSender ρ) : List ρ :=
  if s.queue.length ≥ maxQueueSize then s.queue.take 1 else []

/-- `Enqueue` takes what overflows off the front and appends the record. -/
theorem enqueue_spec {maxQueueSize : ℕ} {record : ρ} {s s' : SampleSender ρ}
    (h : s.enqueue maxQueueSize record = some s') :
    ∃ rest, s.queue = s.overflow maxQueueSize ++ rest ∧ s'.queue = rest ++ [record] ∧
      s'.droppedCount = s.droppedCount + (s.overflow maxQueueSize).length := by
  rw [enqueue] at h
  rw [overflow]
  by_cases hfull : s.queue.length ≥ maxQueueSize
  · rw [if_pos hfull] at h ⊢
    cases hq : s.queue with
    | nil =>
      rw [hq] at h
      cases h
    | cons front rest =>
      rw [hq] at h
      injection h with h
      exact ⟨rest, rfl, by rw [← h], by rw [← h]; rfl⟩
  · rw [if_neg hfull] at h ⊢
    injection h with h
    exact ⟨s.queue, rfl, by rw [← h], by rw [← h]; rfl⟩

/-- With room for one record, `Enqueue` always succeeds. -/
theorem enqueue_total {maxQueueSize : ℕ} (hmax : 1 ≤ maxQueueSize) (record : ρ)
    (s : SampleSender ρ) : ∃ s', s.enqueue maxQueueSize record = some s' := by
  rw [enqueue]
  by_cases hfull : s.queue.length ≥ maxQueueSize
  · rw [if_pos hfull]
    cases hq : s.queue with
    | nil =>
      rw [hq, List.length_nil] at hfull
      omega
    | cons front rest => exact ⟨_, rfl⟩
  · rw [if_neg hfull]
    exact ⟨_, rfl⟩

theorem batch_prefix (s : SampleSender ρ) : s.batch <+: s.queue := List.take_prefix _ _

end SampleSender

/-! ### The two threads -/

/-- The sender between two steps of its two threads.  A record is numbered by
its `Enqueue` call; `inFlight` is the local `batch` of `RunLoop`, and the last
three fields only remember. -/
structure SenderState (ρ : Type*) where
  sender : SampleSender (ℕ × ρ)
  inFlight : Option (List (ℕ × ρ))
  enqueued : List (ℕ × ρ)
  sent : List (List (ℕ × ρ))
  dropped : List (ℕ × ρ)

inductive SenderAction (ρ : Type*) where
  | enqueue (record : ρ)
  /-- `RunLoop` copies a batch; an empty one starts the next round. -/
  | snapshot
  /-- `SendBatch` returned true. -/
  | success
  /-- `ConnectIfNeeded` or `SendBatch` returned false. -/
  | failure
  deriving DecidableEq

variable {ρ : Type*}

/-- One step of the sampling loop or of the sender thread. -/
inductive SenderStep (maxQueueSize : ℕ) :
    SenderState ρ → SenderAction ρ → SenderState ρ → Prop where
  | enqueue {s : SenderState ρ} {record : ρ} {sender' : SampleSender (ℕ × ρ)} :
      s.sender.enqueue maxQueueSize (s.enqueued.length, record) = some sender' →
      SenderStep maxQueueSize s (.enqueue record) { s with
        sender := sender'
        enqueued := s.enqueued ++ [(s.enqueued.length, record)]
        dropped := s.dropped ++ s.sender.overflow maxQueueSize }
  | snapshot {s : SenderState ρ} : s.inFlight = none →
      SenderStep maxQueueSize s .snapshot { s with
        inFlight := if s.sender.batch = [] then none else some s.sender.batch }
  | success {s : SenderState ρ} {batch : List (ℕ × ρ)} : s.inFlight = some batch →
      SenderStep maxQueueSize s .success { s with
        sender := s.sender.eraseSent batch, inFlight := none, sent := s.sent ++ [batch] }
  | failure {s : SenderState ρ} {batch : List (ℕ × ρ)} : s.inFlight = some batch →
      SenderStep maxQueueSize s .failure { s with inFlight := none }

namespace SenderState

/-- A new `SampleSender`. -/
def init : SenderState ρ := ⟨⟨[], 0⟩, none, [], [], []⟩

/-- A record is in exactly one place: the queue, a batch that was sent, or the
records dropped. -/
def InOnePlace (s : SenderState ρ) (r : ℕ × ρ) : Prop :=
  (r ∈ s.sender.queue ∧ r ∉ s.sent.flatten ∧ r ∉ s.dropped) ∨
  (r ∉ s.sender.queue ∧ r ∈ s.sent.flatten ∧ r ∉ s.dropped) ∨
  (r ∉ s.sender.queue ∧ r ∉ s.sent.flatten ∧ r ∈ s.dropped)

instance [DecidableEq ρ] (s : SenderState ρ) (r : ℕ × ρ) : Decidable (s.InOnePlace r) :=
  inferInstanceAs (Decidable (_ ∨ _))

/-- Every record ever enqueued is in one place, and `dropped_count` counts
those that were dropped. -/
structure Conserved [DecidableEq ρ] (s : SenderState ρ) : Prop where
  inOnePlace : ∀ r ∈ s.enqueued, s.InOnePlace r
  count : s.sender.droppedCount = (s.enqueued.filter (· ∈ s.dropped)).length

/-! ### Every run -/

/-- What holds in every run: the records dropped and queued were enqueued in
this order, and a batch in flight is still the front of the queue or has lost a
record to the overflow branch. -/
structure Consistent (s : SenderState ρ) : Prop where
  numbered : s.enqueued.map Prod.fst = List.range s.enqueued.length
  ordered : (s.dropped ++ s.sender.queue).Sublist s.enqueued
  counted : s.sender.droppedCount = s.dropped.length
  front : ∀ batch, s.inFlight = some batch →
    batch ≠ [] ∧ (batch <+: s.sender.queue ∨ ∃ r ∈ batch, r ∈ s.dropped)

theorem Consistent.nodup {s : SenderState ρ} (h : s.Consistent) : s.enqueued.Nodup := by
  refine List.Nodup.of_map Prod.fst ?_
  rw [h.numbered]
  exact List.nodup_range

theorem consistent_init : (init : SenderState ρ).Consistent where
  numbered := rfl
  ordered := List.Sublist.refl _
  counted := rfl
  front := fun _ h => by cases h

/-- A batch at the front of the queue stays there unless its first record is
dropped. -/
theorem front_enqueue {batch dropped popped rest : List (ℕ × ρ)} (r : ℕ × ρ) (hne : batch ≠ [])
    (hpopped : popped.length ≤ 1) (hfront : batch <+: popped ++ rest) :
    batch <+: rest ++ [r] ∨ ∃ x ∈ batch, x ∈ dropped ++ popped := by
  cases popped with
  | nil => exact Or.inl (hfront.trans (List.prefix_append _ _))
  | cons f fs =>
    cases batch with
    | nil => exact absurd rfl hne
    | cons x xs =>
      obtain ⟨rfl, _⟩ := List.cons_prefix_cons.mp hfront
      refine Or.inr ⟨x, List.mem_cons_self, List.mem_append_right _ List.mem_cons_self⟩

theorem consistent_step {maxQueueSize : ℕ} {s s' : SenderState ρ} {a : SenderAction ρ}
    (h : s.Consistent) (hstep : SenderStep maxQueueSize s a s') : s'.Consistent := by
  cases hstep with
  | @enqueue record sender' he =>
    obtain ⟨rest, hqueue, hqueue', hcount⟩ := SampleSender.enqueue_spec he
    constructor
    case numbered =>
      rw [List.map_append, h.numbered, List.length_append, List.map_singleton,
        List.length_singleton, List.range_succ]
    case ordered =>
      -- what overflows moves from the queue to the end of the dropped records
      show ((s.dropped ++ s.sender.overflow maxQueueSize) ++ sender'.queue).Sublist _
      have hordered := h.ordered
      rw [hqueue, ← List.append_assoc] at hordered
      rw [hqueue', ← List.append_assoc]
      exact hordered.append (List.Sublist.refl _)
    case counted =>
      rw [hcount, h.counted, List.length_append]
    case front =>
      intro batch hb
      obtain ⟨hne, hfront⟩ := h.front batch hb
      refine ⟨hne, ?_⟩
      show batch <+: sender'.queue ∨ _
      rw [hqueue']
      rcases hfront with hfront | ⟨r, hr, hd⟩
      · rw [hqueue] at hfront
        refine front_enqueue _ hne ?_ hfront
        rw [SampleSender.overflow]
        split_ifs
        · exact List.length_take_le _ _
        · exact Nat.zero_le _
      · exact Or.inr ⟨r, hr, List.mem_append_left _ hd⟩
  | snapshot _ =>
    refine ⟨h.numbered, h.ordered, h.counted, fun batch hb => ?_⟩
    simp only at hb
    split_ifs at hb with hnil
    rw [Option.some_inj] at hb
    subst hb
    exact ⟨hnil, Or.inl s.sender.batch_prefix⟩
  | @success batch hb =>
    refine ⟨h.numbered, ?_, h.counted, fun _ hc => by cases hc⟩
    refine (List.Sublist.append (List.Sublist.refl _) ?_).trans h.ordered
    exact List.drop_sublist _ _
  | failure _ => exact ⟨h.numbered, h.ordered, h.counted, fun _ hc => by cases hc⟩

/-- Nothing sent or dropped is forgotten. -/
def Remembers (s s' : SenderState ρ) : Prop := s.sent <+: s'.sent ∧ s.dropped <+: s'.dropped

theorem Remembers.refl (s : SenderState ρ) : s.Remembers s :=
  ⟨List.prefix_rfl, List.prefix_rfl⟩

theorem Remembers.trans {s s' s'' : SenderState ρ} (h : s.Remembers s') (h' : s'.Remembers s'') :
    s.Remembers s'' := ⟨h.1.trans h'.1, h.2.trans h'.2⟩

theorem remembers_step {maxQueueSize : ℕ} {s s' : SenderState ρ} {a : SenderAction ρ}
    (hstep : SenderStep maxQueueSize s a s') : s.Remembers s' := by
  cases hstep with
  | enqueue _ => exact ⟨List.prefix_rfl, List.prefix_append _ _⟩
  | snapshot _ => exact ⟨List.prefix_rfl, List.prefix_rfl⟩
  | success _ => exact ⟨List.prefix_append _ _, List.prefix_rfl⟩
  | failure _ => exact ⟨List.prefix_rfl, List.prefix_rfl⟩

/-! ### Runs in which the queue does not move under a batch -/

/-- An erasure finds its batch at the front of the queue. -/
def Undisturbed (s : SenderState ρ) (a : SenderAction ρ) : Prop :=
  a = .success → ∀ batch, s.inFlight = some batch → batch <+: s.sender.queue

/-- The records enqueued are those dropped, sent and queued, each once. -/
def Partitioned (s : SenderState ρ) : Prop :=
  s.enqueued.Perm (s.dropped ++ s.sent.flatten ++ s.sender.queue)

theorem partitioned_init : (init : SenderState ρ).Partitioned := List.Perm.refl []

variable [DecidableEq ρ]

theorem partitioned_step {maxQueueSize : ℕ} {s s' : SenderState ρ} {a : SenderAction ρ}
    (h : s.Partitioned) (hguard : s.Undisturbed a) (hstep : SenderStep maxQueueSize s a s') :
    s'.Partitioned := by
  rw [Partitioned, List.perm_iff_count] at h ⊢
  intro x
  have hx := h x
  rw [List.count_append, List.count_append] at hx ⊢
  cases hstep with
  | @enqueue record sender' he =>
    obtain ⟨rest, hqueue, hqueue', _⟩ := SampleSender.enqueue_spec he
    rw [hqueue, List.count_append] at hx
    show List.count x (s.enqueued ++ _) = List.count x (s.dropped ++ _)
      + List.count x s.sent.flatten + List.count x sender'.queue
    rw [hqueue', List.count_append, List.count_append, List.count_append]
    omega
  | snapshot _ => exact hx
  | @success batch hb =>
    obtain ⟨rest, hrest⟩ := hguard rfl batch hb
    -- the erasure removes the batch and nothing else
    have hdrop : (s.sender.eraseSent batch).queue = rest := by
      rw [SampleSender.eraseSent, ← hrest, List.length_append,
        min_eq_left (Nat.le_add_right _ _), List.drop_left]
    rw [← hrest, List.count_append] at hx
    show List.count x s.enqueued = List.count x s.dropped
      + List.count x (s.sent ++ [batch]).flatten + List.count x (s.sender.eraseSent batch).queue
    rw [hdrop, List.flatten_append, List.count_append, List.flatten_singleton]
    omega
  | failure _ => exact hx

theorem Consistent.count_eq {s : SenderState ρ} (h : s.Consistent) :
    s.sender.droppedCount = (s.enqueued.filter (· ∈ s.dropped)).length := by
  have hsub : s.dropped.Sublist s.enqueued :=
    (List.sublist_append_left _ _).trans h.ordered
  rw [h.counted]
  refine List.Perm.length_eq ?_
  rw [List.perm_ext_iff_of_nodup (hsub.nodup h.nodup) (h.nodup.filter _)]
  intro r
  rw [List.mem_filter, decide_eq_true_iff]
  exact ⟨fun hr => ⟨hsub.subset hr, hr⟩, fun hr => hr.2⟩

theorem Partitioned.conserved {s : SenderState ρ} (h : s.Partitioned) (hc : s.Consistent) :
    s.Conserved := by
  refine ⟨fun r hr => ?_, hc.count_eq⟩
  -- the numbers make the records distinct, so the three parts are disjoint
  have hnodup := h.nodup hc.nodup
  rw [List.nodup_append, List.nodup_append] at hnodup
  obtain ⟨⟨_, _, hds⟩, _, hdsq⟩ := hnodup
  rcases List.mem_append.mp (h.subset hr) with hmem | hq
  · rcases List.mem_append.mp hmem with hd | hsent
    · refine Or.inr (Or.inr ⟨fun hq => ?_, fun hs => hds r hd r hs rfl, hd⟩)
      exact hdsq r hmem r hq rfl
    · refine Or.inr (Or.inl ⟨fun hq => ?_, hsent, fun hd => hds r hd r hsent rfl⟩)
      exact hdsq r hmem r hq rfl
  · refine Or.inl ⟨hq, fun hs => ?_, fun hd => ?_⟩
    · exact hdsq r (List.mem_append_right _ hs) r hq rfl
    · exact hdsq r (List.mem_append_left _ hd) r hq rfl

/-! ### Conservation -/

/-- Conservation, exactly: a run conserves the records if and only if each of
its erasures finds the batch it erases at the front of the queue, that is, no
`Enqueue` has overflowed since the batch was copied.  After any other erasure a
record that was dropped counts as sent, too, and a record that was not sent is
gone. -/
theorem conserved_iff {maxQueueSize : ℕ} {tr : List (SenderState ρ × SenderAction ρ)}
    {s : SenderState ρ} (hrun : Run (SenderStep maxQueueSize) init tr s) :
    s.Conserved ↔ ∀ p ∈ tr, p.1.Undisturbed p.2 := by
  have hconsistent : ∀ {tr s}, Run (SenderStep maxQueueSize) (init : SenderState ρ) tr s →
      s.Consistent := fun hrun =>
    hrun.invariant consistent_init fun _ _ _ hc hstep => consistent_step hc hstep
  constructor
  · intro hcons p hp ha batch hb
    by_contra hmoved
    obtain ⟨tr₁, tr₂, rfl⟩ := List.append_of_mem hp
    obtain ⟨s₁, hrun₁, hstep, hrun₂⟩ := hrun.split
    -- the batch is sent, although one of its records was dropped before
    obtain ⟨_, hfront⟩ := (hconsistent hrun₁).front batch hb
    obtain ⟨r, hr, hd⟩ := hfront.resolve_left hmoved
    have hsent : r ∈ s₁.sent.flatten := by
      rw [ha] at hstep
      cases hstep with
      | success hb' =>
        rw [hb, Option.some_inj] at hb'
        subst hb'
        rw [List.flatten_append, List.flatten_singleton]
        exact List.mem_append_right _ hr
    have hdropped : r ∈ s₁.dropped := (remembers_step hstep).2.subset hd
    -- and both remain so
    obtain ⟨hs, hd'⟩ : s₁.Remembers s :=
      hrun₂.rel Remembers.refl Remembers.trans fun _ _ _ => remembers_step
    have hsent' : r ∈ s.sent.flatten := by
      obtain ⟨b, hbs, hrb⟩ := List.mem_flatten.mp hsent
      exact List.mem_flatten.mpr ⟨b, hs.subset hbs, hrb⟩
    have henqueued : r ∈ s.enqueued :=
      (hconsistent hrun).ordered.subset (List.mem_append_left _ (hd'.subset hdropped))
    rcases hcons.inOnePlace r henqueued with ⟨_, hn, _⟩ | ⟨_, _, hn⟩ | ⟨_, hn, _⟩
    · exact hn hsent'
    · exact hn (hd'.subset hdropped)
    · exact hn hsent'
  · intro hguard
    refine Partitioned.conserved ?_ (hconsistent hrun)
    exact hrun.invariant_of_guard partitioned_init
      (fun _ _ _ h hg hstep => partitioned_step h hg hstep) hguard

/-- With room for one record, `8` drops `7` before a batch is copied; the batch
is then `8` alone, and is sent. -/
theorem conserved_iff_example :
    (⟨⟨[], 1⟩, none, [(0, 7), (1, 8)], [[(1, 8)]], [(0, 7)]⟩ : SenderState ℕ).Conserved ∧
      ∀ p ∈ [((init : SenderState ℕ), SenderAction.enqueue 7),
        (⟨⟨[(0, 7)], 0⟩, none, [(0, 7)], [], []⟩, .enqueue 8),
        (⟨⟨[(1, 8)], 1⟩, none, [(0, 7), (1, 8)], [], [(0, 7)]⟩, .snapshot),
        (⟨⟨[(1, 8)], 1⟩, some [(1, 8)], [(0, 7), (1, 8)], [], [(0, 7)]⟩, .success)],
        p.1.Undisturbed p.2 := by
  have hrun : Run (SenderStep 1) (init : SenderState ℕ) _ _ :=
    (((Run.nil.snoc (.enqueue rfl)).snoc (.enqueue rfl)).snoc (.snapshot rfl)).snoc
      (@SenderStep.success ℕ 1 ⟨⟨[(1, 8)], 1⟩, some [(1, 8)], [(0, 7), (1, 8)], [], [(0, 7)]⟩
        [(1, 8)] rfl)
  have hconserved : (⟨⟨[], 1⟩, none, [(0, 7), (1, 8)], [[(1, 8)]], [(0, 7)]⟩ :
      SenderState ℕ).Conserved := ⟨by decide, rfl⟩
  exact ⟨hconserved, (conserved_iff hrun).mp hconserved⟩

/-- With room for one record: `7` is copied, `8` overflows the queue and drops
`7`, and the erasure after the send takes `8`, which is never sent. -/
theorem conserved_counterexample :
    ∃ s : SenderState ℕ, Reachable (SenderStep 1) init s ∧ s.inFlight = none ∧
      (1, 8) ∈ s.enqueued ∧ (1, 8) ∉ s.sender.queue ∧ (1, 8) ∉ s.sent.flatten ∧
      (1, 8) ∉ s.dropped ∧ ¬ s.Conserved := by
  refine ⟨⟨⟨[], 1⟩, none, [(0, 7), (1, 8)], [[(0, 7)]], [(0, 7)]⟩, ?_, rfl, by decide,
    by decide, by decide, by decide, ?_⟩
  · exact (((Reachable.refl.snoc (.enqueue rfl)).snoc (.snapshot rfl)).snoc (.enqueue rfl)).snoc
      (@SenderStep.success ℕ 1 ⟨⟨[(1, 8)], 1⟩, some [(0, 7)], [(0, 7), (1, 8)], [], [(0, 7)]⟩
        [(0, 7)] rfl)
  · intro h
    have hplace := h.inOnePlace (1, 8) (by decide)
    revert hplace
    decide

end SenderState

end Agent
