/-
The capacity of the sender's queue (`AgentConfig::FromEnvironment`, `Enqueue` and
`RunLoop`).

The capacity is whatever integer `MAX_QUEUE_SIZE` holds, converted to `size_t`.
With any capacity the queue stays within it; with none at all the first `Enqueue`
pops an empty deque.

* `AgentConfig.fromEnvironment` — the configuration;
* `toSizeT_eq_zero` — of the values of an `int`, only zero becomes zero;
* `bounded_step` — no step of the two threads exceeds the capacity;
* `inRange_iff` — when the operations on the deque are in range.
-/
import HpcTelemetry.Delivery
import HpcTelemetry.StreamExtraction

namespace Agent

open Transitions StreamExtraction

/-! ### The configuration -/

/-- `EnvIntOr`, of the value of the variable. -/
def envIntOr (value : Option String) (fallback : ℤ) : ℤ :=
  (value.bind fun s => stoi s.toList).getD fallback

/-- `static_cast<size_t>`, of 64 bits. -/
def toSizeT (v : ℤ) : ℕ := (v % 2 ^ 64).toNat

/-- `FromEnvironment`, for the fields the sender reads. -/
def AgentConfig.fromEnvironment (getenv : String → Option String) : AgentConfig where
  nodeId := (getenv "NODE_ID").getD "node-unknown"
  maxQueueSize := toSizeT (envIntOr (getenv "MAX_QUEUE_SIZE") 512)

theorem stoi_range {s : List Char} {v : ℤ} (h : stoi s = some v) : -2 ^ 31 ≤ v ∧ v < 2 ^ 31 := by
  simp only [stoi, Option.ite_none_left_eq_some, Option.some_inj] at h
  obtain ⟨hfits, rfl⟩ := h
  rw [not_or, not_or] at hfits
  exact ⟨not_lt.mp hfits.2.1, not_le.mp hfits.2.2⟩

theorem envIntOr_range (value : Option String) {fallback : ℤ}
    (hfallback : -2 ^ 31 ≤ fallback ∧ fallback < 2 ^ 31) :
    -2 ^ 31 ≤ envIntOr value fallback ∧ envIntOr value fallback < 2 ^ 31 := by
  rw [envIntOr]
  cases h : value.bind fun s => stoi s.toList with
  | none => exact hfallback
  | some v =>
    obtain ⟨s, _, hs⟩ := Option.bind_eq_some_iff.mp h
    exact stoi_range hs

/-- A negative capacity becomes a huge one. -/
theorem toSizeT_eq_zero {v : ℤ} (h : -2 ^ 31 ≤ v ∧ v < 2 ^ 31) : toSizeT v = 0 ↔ v = 0 := by
  rw [toSizeT]
  omega

/-! ### The deque -/

namespace SampleSender

variable {ρ : Type*}

/-- How many records `RunLoop` erases. -/
def eraseCount (batch : List ρ) (s : SampleSender ρ) : ℕ := min batch.length s.queue.length

theorem eraseSent_queue (batch : List ρ) (s : SampleSender ρ) :
    (s.eraseSent batch).queue = s.queue.drop (s.eraseCount batch) := rfl

/-- What an `Enqueue` does to the length of the queue. -/
theorem length_enqueue {maxQueueSize : ℕ} {record : ρ} {s s' : SampleSender ρ}
    (h : s.enqueue maxQueueSize record = some s') :
    s'.queue.length = if s.queue.length ≥ maxQueueSize then s.queue.length
      else s.queue.length + 1 := by
  rw [enqueue] at h
  by_cases hfull : s.queue.length ≥ maxQueueSize
  · rw [if_pos hfull] at h ⊢
    cases hq : s.queue with
    | nil =>
      rw [hq] at h
      cases h
    | cons front rest =>
      rw [hq] at h
      injection h with h
      rw [← h, List.length_append, List.length_singleton, List.length_cons]
  · rw [if_neg hfull] at h ⊢
    injection h with h
    rw [← h, List.length_append, List.length_singleton]

/-- Without capacity there is nothing to pop. -/
theorem enqueue_eq_none {maxQueueSize : ℕ} {record : ρ} {s : SampleSender ρ}
    (hmax : maxQueueSize = 0)
    (hbounded : s.queue.length ≤ maxQueueSize) : s.enqueue maxQueueSize record = none := by
  have hnil : s.queue = [] := List.length_eq_zero_iff.mp (by omega)
  rw [enqueue, if_pos (by omega), hnil]

end SampleSender

namespace SenderState

variable {ρ : Type*}

/-- `Enqueue` would not pop an empty deque, `RunLoop` would not erase more records
than the queue holds, and the queue is within its capacity. -/
structure InRange (maxQueueSize : ℕ) (s : SenderState ρ) : Prop where
  popFront : ∀ record, (s.sender.enqueue maxQueueSize (s.enqueued.length, record)).isSome
  erase : ∀ batch, s.inFlight = some batch → s.sender.eraseCount batch ≤ s.sender.queue.length
  bounded : s.sender.queue.length ≤ maxQueueSize

theorem bounded_step {maxQueueSize : ℕ} {s s' : SenderState ρ} {a : SenderAction ρ}
    (h : s.sender.queue.length ≤ maxQueueSize) (hstep : SenderStep maxQueueSize s a s') :
    s'.sender.queue.length ≤ maxQueueSize := by
  cases hstep with
  | @enqueue record sender' he =>
    show sender'.queue.length ≤ maxQueueSize
    rw [SampleSender.length_enqueue he]
    split_ifs
    · exact h
    · omega
  | snapshot _ => exact h
  | @success batch _ =>
    show (s.sender.eraseSent batch).queue.length ≤ maxQueueSize
    rw [SampleSender.eraseSent_queue, List.length_drop]
    omega
  | failure _ => exact h

theorem bounded_of_reachable {maxQueueSize : ℕ} {s : SenderState ρ}
    (h : Reachable (SenderStep maxQueueSize) init s) : s.sender.queue.length ≤ maxQueueSize :=
  h.invariant (fun s => s.sender.queue.length ≤ maxQueueSize) (Nat.zero_le _)
    fun _ _ _ hs hstep => bounded_step hs hstep

end SenderState

/-- Operations in range, exactly: in every state of every run of the sender, with
whatever the environment holds, the operations on the deque are in range and the
queue is within its capacity if and only if the capacity asked for is not zero. -/
theorem inRange_iff {getenv : String → Option String} {serialize : Serializer} {s : RunLoop}
    (h : Reachable (LoopStep (AgentConfig.fromEnvironment getenv) serialize) .init s) :
    s.state.InRange (AgentConfig.fromEnvironment getenv).maxQueueSize ↔
      envIntOr (getenv "MAX_QUEUE_SIZE") 512 ≠ 0 := by
  have hbounded := SenderState.bounded_of_reachable (reachable_refines h)
  have hzero : (AgentConfig.fromEnvironment getenv).maxQueueSize = 0 ↔
      envIntOr (getenv "MAX_QUEUE_SIZE") 512 = 0 :=
    toSizeT_eq_zero (envIntOr_range _ (by norm_num))
  rw [Ne, ← hzero]
  constructor
  · intro hin hmax
    -- any record will do
    have hpop := hin.popFront ⟨0, 0, 0, .finite 0⟩
    rw [SampleSender.enqueue_eq_none hmax hbounded] at hpop
    exact Bool.false_ne_true hpop
  · intro hmax
    refine ⟨fun record => ?_, fun batch _ => Nat.min_le_right _ _, hbounded⟩
    obtain ⟨s', hs'⟩ := SampleSender.enqueue_total (Nat.one_le_iff_ne_zero.mpr hmax)
      (s.state.enqueued.length, record) s.state.sender
    rw [hs', Option.isSome_some]

/-- An environment in which only the capacity is set. -/
def capacityEnv (capacity : String) (name : String) : Option String :=
  if name = "MAX_QUEUE_SIZE" then some capacity else none

/-- The environment of node `n`, with room for one record. -/
def oneRecordEnv (name : String) : Option String :=
  if name = "NODE_ID" then some "n" else capacityEnv "1" name

theorem fromEnvironment_oneRecordEnv : AgentConfig.fromEnvironment oneRecordEnv = ⟨"n", 1⟩ :=
  congrArg₂ AgentConfig.mk (by decide +kernel) (by decide +kernel)

/-- The first send fails, the second record drops the first, and the second send
succeeds. -/
def secondSent : RunLoop :=
  ⟨⟨⟨[], 1⟩, none, [(0, recordAt 1), (1, recordAt 2)], [[(1, recordAt 2)]], [(0, recordAt 1)]⟩,
    some ⟨recordFrame 2, [([recordAt 2], true)]⟩, [⟨[], [([recordAt 1], false)]⟩]⟩

theorem reachable_secondSent :
    Reachable (LoopStep ⟨"n", 1⟩ recordsSerializer) .init secondSent := by
  have hstart : Reachable (LoopStep ⟨"n", 1⟩ recordsSerializer) .init .init := .refl
  have hfailed := ((hstart.snoc (@LoopStep.enqueue _ _ _ (recordAt 1) _ (.enqueue rfl))).snoc
    (.snapshot (.snapshot rfl))).snoc
    (@LoopStep.finish _ _ _ [(0, recordAt 1)] ⟨true, fun _ => -1⟩ rfl)
  exact ((hfailed.snoc (@LoopStep.enqueue _ _ _ (recordAt 2) _ (.enqueue rfl))).snoc
    (.snapshot (.snapshot rfl))).snoc
    (@LoopStep.finish _ _ _ [(1, recordAt 2)] ⟨true, fun _ => 30⟩ rfl)

theorem inRange_iff_example :
    secondSent.state.InRange (AgentConfig.fromEnvironment oneRecordEnv).maxQueueSize :=
  (@inRange_iff oneRecordEnv recordsSerializer secondSent
    (fromEnvironment_oneRecordEnv ▸ reachable_secondSent)).mpr (by decide +kernel)

/-- With `MAX_QUEUE_SIZE=0` the first `Enqueue` pops an empty deque. -/
theorem inRange_counterexample :
    Reachable (LoopStep (AgentConfig.fromEnvironment (capacityEnv "0")) fun _ => some []) .init
        RunLoop.init ∧
      RunLoop.init.state.sender.enqueue (AgentConfig.fromEnvironment (capacityEnv "0")).maxQueueSize
        (0, ⟨1, 0, 0, .finite 0⟩) = none := by
  exact ⟨.refl, by decide +kernel⟩

end Agent
