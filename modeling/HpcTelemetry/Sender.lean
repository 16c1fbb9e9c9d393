/-
The sender thread and its connections (`sender.cpp`).

`SendBatch` writes one frame with as many `send()` calls as it takes, and the
first call that fails makes the thread close the socket: the next batch travels
over a new connection.  The state keeps each connection as a pipe: the bytes
the kernel has accepted, and the `SendBatch` calls made on it.

* `sendAll_spec` — the partial-write loop accepts all of its input or a strict
  prefix of it;
* `exact_of_reachable` — every pipe of every run carries the frames of the
  batches that were sent, and then at most a strict prefix of one frame;
* `loopStep_refines` — the thread with its socket is a refinement of the
  sender's queue;
* `loopStep_pipes`, `SentOn` — the batches sent are those whose attempt on some
  connection succeeded.
-/
import HpcTelemetry.Framing
import HpcTelemetry.SenderQueue

namespace Agent

open Transitions

/-! ### Sending one batch -/

structure SampleRecord where
  metricId : ℕ
  tsNs : ℤ
  monoNs : ℤ
  value : Double
  deriving DecidableEq

/-- The fields of `AgentConfig` the sender reads. -/
structure AgentConfig where
  nodeId : String
  maxQueueSize : ℕ

/-- The loop of `SendAll`: whether it wrote everything, and the bytes the kernel
accepted.  `results k` is what the `k`-th `send()` returns; a call accepts at
most what it is given. -/
def sendAllFuel (results : ℕ → ℤ) : ℕ → ℕ → Bytes → Bool × Bytes
  | _, _, [] => (true, [])
  | 0, _, _ :: _ => (false, [])
  | fuel + 1, k, b :: bs =>
    let n := results k
    if n ≤ 0 then (false, [])
    else
      let r := sendAllFuel results fuel (k + 1) ((b :: bs).drop n.toNat)
      (r.1, (b :: bs).take n.toNat ++ r.2)

/-- `SendAll`. -/
def sendAll (results : ℕ → ℤ) (data : Bytes) : Bool × Bytes :=
  sendAllFuel results data.length 0 data

/-- `kSchemaVersion` and `kProducerVersion`. -/
def kSchemaVersion : ℕ := 1
def kProducerVersion : String := "hpctel-agent-0.1"

/-- The `SampleBatch` that `SendBatch` builds. -/
def protoBatch (config : AgentConfig) (batch : List SampleRecord) : Wire.SampleBatch where
  schemaVersion := kSchemaVersion
  producerVersion := kProducerVersion
  samples := batch.map fun record =>
    { nodeId := config.nodeId, metricId := record.metricId, tsNs := record.tsNs,
      monoNs := record.monoNs, serverRecvTsNs := 0, value := record.value }

/-- The generated `SerializeToString`; `none` is a returned false. -/
abbrev Serializer := Wire.SampleBatch → Option Bytes

/-- `SendBatch` on an open socket: its result and the bytes the kernel accepted. -/
def sendBatch (config : AgentConfig) (serialize : Serializer) (results : ℕ → ℤ)
    (batch : List SampleRecord) : Bool × Bytes :=
  match serialize (protoBatch config batch) with
  | none => (false, [])
  | some payload => sendAll results (encodeFrame .kSampleBatch payload)

/-! ### The sender thread -/

/-- A connection, as the sender has used it. -/
structure Pipe where
  accepted : Bytes
  /-- The batches `SendBatch` was called with, and what it returned. -/
  attempts : List (List SampleRecord × Bool)
  deriving DecidableEq

/-- The sender between two steps: the queue and the batch in flight, the pipe
behind `sock_fd_`, and those closed before. -/
structure RunLoop where
  state : SenderState SampleRecord
  sock : Option Pipe
  closed : List Pipe

/-- All connections the sender has opened. -/
def RunLoop.pipes (s : RunLoop) : List Pipe := s.closed ++ s.sock.toList

/-- What the network does in one round: whether `connect` succeeds, if it is
called, and the results of the `send()` calls. -/
structure Network where
  connects : Bool
  sendResults : ℕ → ℤ

/-- `ConnectIfNeeded`: the pipe behind `sock_fd_` afterwards. -/
def connectIfNeeded (connects : Bool) (sock : Option Pipe) : Option Pipe :=
  match sock with
  | some pipe => some pipe
  | none => if connects then some ⟨[], []⟩ else none

inductive LoopAction where
  | enqueue (record : SampleRecord)
  | snapshot
  /-- The round goes on with its batch. -/
  | finish (network : Network)

section Steps

variable (config : AgentConfig) (serialize : Serializer)

/-- The rest of a round once its batch has been copied. -/
def finishRound (network : Network) (batch : List (ℕ × SampleRecord)) (s : RunLoop) : RunLoop :=
  match connectIfNeeded network.connects s.sock with
  | none => { s with state := { s.state with inFlight := none } }
  | some pipe =>
    let records := batch.map Prod.snd
    let r := sendBatch config serialize network.sendResults records
    let pipe' : Pipe := ⟨pipe.accepted ++ r.2, pipe.attempts ++ [(records, r.1)]⟩
    if r.1 then
      { s with
        state := { s.state with
          sender := s.state.sender.eraseSent batch
          inFlight := none
          sent := s.state.sent ++ [batch] }
        sock := some pipe' }
    else
      -- `Disconnect()`
      { state := { s.state with inFlight := none }, sock := none, closed := s.closed ++ [pipe'] }

inductive LoopStep : RunLoop → LoopAction → RunLoop → Prop where
  | enqueue {s : RunLoop} {record : SampleRecord} {state' : SenderState SampleRecord} :
      SenderStep config.maxQueueSize s.state (.enqueue record) state' →
      LoopStep s (.enqueue record) { s with state := state' }
  | snapshot {s : RunLoop} {state' : SenderState SampleRecord} :
      SenderStep config.maxQueueSize s.state .snapshot state' →
      LoopStep s .snapshot { s with state := state' }
  | finish {s : RunLoop} {batch : List (ℕ × SampleRecord)} {network : Network} :
      s.state.inFlight = some batch →
      LoopStep s (.finish network) (finishRound config serialize network batch s)

/-- A sender that has just been started. -/
def RunLoop.init : RunLoop := ⟨.init, none, []⟩

/-! ### Refinement -/

variable {config serialize}

/-- Forgetting the socket, each step of the thread is one of the queue. -/
theorem loopStep_refines {s s' : RunLoop} {a : LoopAction} (h : LoopStep config serialize s a s') :
    ∃ a', SenderStep config.maxQueueSize s.state a' s'.state := by
  cases h with
  | enqueue h => exact ⟨_, h⟩
  | snapshot h => exact ⟨_, h⟩
  | @finish batch network hb =>
    rw [finishRound]
    cases connectIfNeeded network.connects s.sock with
    | none => exact ⟨_, .failure hb⟩
    | some pipe =>
      simp only
      split
      · exact ⟨_, .success hb⟩
      · exact ⟨_, .failure hb⟩

theorem reachable_refines {s : RunLoop} (h : Reachable (LoopStep config serialize) .init s) :
    Reachable (SenderStep config.maxQueueSize) .init s.state := by
  refine h.invariant (fun s => Reachable (SenderStep config.maxQueueSize) .init s.state) .refl
    fun s a s' hs hstep => ?_
  obtain ⟨a', ha'⟩ := loopStep_refines hstep
  exact hs.snoc ha'

end Steps

/-! ### The bytes of a pipe -/

/-- A successful `SendAll` has written everything; a failed one a strict
prefix. -/
theorem sendAll_spec (results : ℕ → ℤ) (data : Bytes) :
    ((sendAll results data).1 = true → (sendAll results data).2 = data) ∧
      ((sendAll results data).1 = false →
        ∃ q, q ≠ [] ∧ data = (sendAll results data).2 ++ q) := by
  -- the fuel is the number of bytes left or more
  have key : ∀ (fuel k : ℕ) (data : Bytes), data.length ≤ fuel →
      ((sendAllFuel results fuel k data).1 = true →
        (sendAllFuel results fuel k data).2 = data) ∧
      ((sendAllFuel results fuel k data).1 = false →
        ∃ q, q ≠ [] ∧ data = (sendAllFuel results fuel k data).2 ++ q) := by
    intro fuel
    induction fuel with
    | zero =>
      intro k data hlen
      rw [List.length_eq_zero_iff.mp (Nat.le_zero.mp hlen)]
      exact ⟨fun _ => rfl, fun h => (by cases h)⟩
    | succ fuel ih =>
      intro k data hlen
      cases data with
      | nil => exact ⟨fun _ => rfl, fun h => (by cases h)⟩
      | cons b bs =>
        rw [sendAllFuel]
        by_cases hn : results k ≤ 0
        · rw [if_pos hn]
          exact ⟨fun h => (by cases h), fun _ => ⟨b :: bs, List.cons_ne_nil _ _, rfl⟩⟩
        · rw [if_neg hn]
          have hdrop : ((b :: bs).drop (results k).toNat).length ≤ fuel := by
            rw [List.length_drop]
            omega
          obtain ⟨htrue, hfalse⟩ := ih (k + 1) _ hdrop
          refine ⟨fun h => ?_, fun h => ?_⟩
          · show (b :: bs).take _ ++ _ = _
            rw [htrue h, List.take_append_drop]
          · obtain ⟨q, hq, hrest⟩ := hfalse h
            refine ⟨q, hq, ?_⟩
            show _ = (b :: bs).take _ ++ _ ++ q
            rw [List.append_assoc, ← hrest, List.take_append_drop]
  exact key data.length 0 data le_rfl

section Pipes

variable (config : AgentConfig) (serialize : Serializer)

/-- What `SendBatch` has written when it returns. -/
theorem sendBatch_spec (results : ℕ → ℤ) (batch : List SampleRecord) :
    let r := sendBatch config serialize results batch
    (r.1 = true → ∃ payload, serialize (protoBatch config batch) = some payload ∧
      r.2 = encodeFrame .kSampleBatch payload) ∧
    (r.1 = false → r.2 = [] ∨ ∃ payload, serialize (protoBatch config batch) = some payload ∧
      ∃ q, q ≠ [] ∧ encodeFrame .kSampleBatch payload = r.2 ++ q) := by
  rw [sendBatch]
  cases hs : serialize (protoBatch config batch) with
  | none => exact ⟨fun h => (by cases h), fun _ => Or.inl rfl⟩
  | some payload =>
    obtain ⟨htrue, hfalse⟩ := sendAll_spec results (encodeFrame .kSampleBatch payload)
    exact ⟨fun h => ⟨payload, rfl, htrue h⟩, fun h => Or.inr ⟨payload, rfl, hfalse h⟩⟩

/-- The pipe carries the frames with these payloads, then `rest`. -/
structure Pipe.Carries (pipe : Pipe) (payloads : List Bytes) (rest : Bytes) : Prop where
  bytes : pipe.accepted = payloads.flatMap (encodeFrame .kSampleBatch) ++ rest
  /-- They are the payloads of the batches that were sent, in order. -/
  sent : (pipe.attempts.filter (·.2)).map (fun a => serialize (protoBatch config a.1))
    = payloads.map some

/-- What is left over on a pipe: nothing, or a strict prefix of the frame of a
batch that was not sent. -/
def Pipe.Leaves (pipe : Pipe) (rest : Bytes) : Prop :=
  rest = [] ∨ ∃ a ∈ pipe.attempts, ∃ payload, serialize (protoBatch config a.1) = some payload ∧
    ∃ q, q ≠ [] ∧ encodeFrame .kSampleBatch payload = rest ++ q

/-- The pipe in use carries whole frames; a closed one may end in a part of
one. -/
structure RunLoop.Exact (s : RunLoop) : Prop where
  sock : ∀ pipe, s.sock = some pipe → ∃ payloads, pipe.Carries config serialize payloads []
  closed : ∀ pipe ∈ s.closed, ∃ payloads rest, pipe.Carries config serialize payloads rest ∧
    pipe.Leaves config serialize rest

variable {config serialize}

theorem exact_finishRound {s : RunLoop} (h : s.Exact config serialize) (network : Network)
    (batch : List (ℕ × SampleRecord)) :
    (finishRound config serialize network batch s).Exact config serialize := by
  have hconnect : ∀ pipe, connectIfNeeded network.connects s.sock = some pipe →
      ∃ payloads, pipe.Carries config serialize payloads [] := by
    intro pipe hpipe
    cases hsock : s.sock with
    | some pipe' =>
      rw [hsock, connectIfNeeded] at hpipe
      injection hpipe with hpipe
      rw [← hpipe]
      exact h.sock pipe' hsock
    | none =>
      rw [hsock, connectIfNeeded] at hpipe
      split_ifs at hpipe
      injection hpipe with hpipe
      rw [← hpipe]
      exact ⟨[], rfl, rfl⟩
  rw [finishRound]
  cases hc : connectIfNeeded network.connects s.sock with
  | none => exact ⟨h.sock, h.closed⟩
  | some pipe =>
    obtain ⟨payloads, hbytes, hsent⟩ := hconnect pipe hc
    rw [List.append_nil] at hbytes
    obtain ⟨htrue, hfalse⟩ :=
      sendBatch_spec config serialize network.sendResults (batch.map Prod.snd)
    simp only
    by_cases hr : (sendBatch config serialize network.sendResults (batch.map Prod.snd)).1 = true
    · -- one more whole frame
      rw [if_pos hr]
      refine ⟨fun pipe' hpipe' => ?_, h.closed⟩
      injection hpipe' with hpipe'
      obtain ⟨payload, hser, hframe⟩ := htrue hr
      rw [← hpipe']
      refine ⟨payloads ++ [payload], ?_, ?_⟩
      · show pipe.accepted ++ _ = _
        rw [hbytes, hframe, List.flatMap_append, List.flatMap_singleton, List.append_nil]
      · show (List.filter _ (pipe.attempts ++ _)).map _ = _
        rw [List.filter_append, List.map_append, hsent, List.map_append, hr]
        show _ ++ [serialize (protoBatch config (batch.map Prod.snd))] = _
        rw [hser]
        rfl
    · -- a part of a frame, and the pipe is closed
      rw [if_neg hr]
      rw [Bool.not_eq_true] at hr
      refine ⟨fun pipe' hpipe' => (by cases hpipe'), fun pipe' hpipe' => ?_⟩
      rcases List.mem_append.mp hpipe' with hold | hnew
      · exact h.closed pipe' hold
      · rw [List.mem_singleton] at hnew
        rw [hnew]
        refine ⟨payloads, _, ⟨congrArg (· ++ _) hbytes, ?_⟩, ?_⟩
        · show (List.filter _ (pipe.attempts ++ _)).map _ = _
          rw [List.filter_append, hr, ← hsent]
          exact congrArg (List.map _) (List.append_nil _)
        · rcases hfalse hr with hnil | ⟨payload, hser, q, hq, hframe⟩
          · exact Or.inl hnil
          · exact Or.inr ⟨_, List.mem_append_right _ (List.mem_singleton_self _), payload, hser,
              q, hq, hframe⟩

/-- Every pipe of every run carries the frames of the batches that were sent on
it, in order, and then at most a part of one frame more. -/
theorem exact_of_reachable {s : RunLoop} (h : Reachable (LoopStep config serialize) .init s) :
    s.Exact config serialize := by
  refine h.invariant (RunLoop.Exact config serialize)
    ⟨fun _ hc => (by cases hc), fun _ hc => absurd hc List.not_mem_nil⟩
    fun s a s' hs hstep => ?_
  cases hstep with
  | enqueue _ => exact ⟨hs.sock, hs.closed⟩
  | snapshot _ => exact ⟨hs.sock, hs.closed⟩
  | finish _ => exact exact_finishRound hs _ _

theorem carries_of_mem_pipes {s : RunLoop} (h : Reachable (LoopStep config serialize) .init s)
    {pipe : Pipe} (hpipe : pipe ∈ s.pipes) :
    ∃ payloads rest, pipe.Carries config serialize payloads rest ∧
      pipe.Leaves config serialize rest := by
  have hexact := exact_of_reachable h
  rcases List.mem_append.mp hpipe with hclosed | hsock
  · exact hexact.closed pipe hclosed
  · obtain ⟨payloads, hcarries⟩ := hexact.sock pipe (Option.mem_toList.mp hsock)
    exact ⟨payloads, [], hcarries, Or.inl rfl⟩

end Pipes

/-! ### What was sent, and where -/

section Sent

variable {config : AgentConfig} {serialize : Serializer}

/-- What a step does to the connections: none, or one more attempt on the last
one, which may be new. -/
theorem loopStep_pipes {s s' : RunLoop} {a : LoopAction} (h : LoopStep config serialize s a s') :
    s'.pipes = s.pipes ∧ s'.state.sent = s.state.sent ∨
      ∃ before pipe bytes batch ok,
        (s.pipes = before ++ [pipe] ∨ s.pipes = before ∧ pipe = ⟨[], []⟩) ∧
        s'.pipes = before
          ++ [⟨pipe.accepted ++ bytes, pipe.attempts ++ [(batch.map Prod.snd, ok)]⟩] ∧
        s'.state.sent = if ok = true then s.state.sent ++ [batch] else s.state.sent := by
  cases h with
  | enqueue h =>
    cases h with
    | enqueue _ => exact .inl ⟨rfl, rfl⟩
  | snapshot h =>
    cases h with
    | snapshot _ => exact .inl ⟨rfl, rfl⟩
  | @finish batch network _ =>
    rw [finishRound]
    have hpipes : ∀ pipe, connectIfNeeded network.connects s.sock = some pipe →
        s.pipes = s.closed ++ [pipe] ∨ s.pipes = s.closed ∧ pipe = ⟨[], []⟩ := by
      intro pipe hpipe
      rw [RunLoop.pipes]
      cases hsock : s.sock with
      | some pipe' =>
        rw [hsock, connectIfNeeded, Option.some_inj] at hpipe
        exact .inl (by rw [hpipe]; rfl)
      | none =>
        rw [hsock, connectIfNeeded] at hpipe
        split_ifs at hpipe
        rw [Option.some_inj] at hpipe
        exact .inr ⟨List.append_nil _, hpipe.symm⟩
    cases hc : connectIfNeeded network.connects s.sock with
    | none => exact .inl ⟨rfl, rfl⟩
    | some pipe =>
      set r := sendBatch config serialize network.sendResults (batch.map Prod.snd) with hr
      refine .inr ⟨s.closed, pipe, r.2, batch, r.1, hpipes pipe hc, ?_⟩
      by_cases hok : r.1 = true
      · simp only [← hr, if_pos hok]
        exact ⟨by rw [hok]; rfl, trivial⟩
      · simp only [← hr, if_neg hok]
        exact ⟨List.append_nil _, trivial⟩

/-- The connections of `s` are still there, and may have been used since. -/
def Grows (s s' : RunLoop) : Prop :=
  ∀ (i : ℕ) (pipe : Pipe), s.pipes[i]? = some pipe →
    ∃ pipe', s'.pipes[i]? = some pipe' ∧ pipe.accepted <+: pipe'.accepted

theorem grows_step {s s' : RunLoop} {a : LoopAction} (h : LoopStep config serialize s a s') :
    Grows s s' := by
  intro i pipe hpipe
  rcases loopStep_pipes h with ⟨hsame, _⟩ | ⟨before, last, bytes, batch, ok, hlast, hpipes, _⟩
  · exact ⟨pipe, hsame ▸ hpipe, List.prefix_rfl⟩
  · rw [hpipes]
    rcases hlast with hlast | ⟨hlast, _⟩
    · rw [hlast, List.getElem?_append] at hpipe
      rw [List.getElem?_append]
      split_ifs at hpipe ⊢ with hi
      · exact ⟨pipe, hpipe, List.prefix_rfl⟩
      · rw [List.getElem?_singleton] at hpipe
        split_ifs at hpipe with hzero
        obtain rfl := Option.some_inj.mp hpipe
        rw [hzero]
        exact ⟨_, rfl, List.prefix_append _ _⟩
    · rw [hlast] at hpipe
      obtain ⟨hi, _⟩ := List.getElem?_eq_some_iff.mp hpipe
      rw [List.getElem?_append_left hi]
      exact ⟨pipe, hpipe, List.prefix_rfl⟩

/-- The batches sent are those whose attempt on some connection succeeded. -/
structure SentOn (s : RunLoop) : Prop where
  batches : ∀ pipe ∈ s.pipes, ∀ a ∈ pipe.attempts, a.2 = true →
    ∃ batch ∈ s.state.sent, a.1 = batch.map Prod.snd
  attempts : ∀ batch ∈ s.state.sent, ∃ pipe ∈ s.pipes, (batch.map Prod.snd, true) ∈ pipe.attempts

theorem sentOn_step {s s' : RunLoop} {a : LoopAction} (h : SentOn s)
    (hstep : LoopStep config serialize s a s') : SentOn s' := by
  rcases loopStep_pipes hstep with
    ⟨hpipes, hsent⟩ | ⟨before, last, bytes, batch, ok, hlast, hpipes, hsent⟩
  · refine ⟨?_, ?_⟩
    · rw [hpipes, hsent]
      exact h.batches
    · rw [hpipes, hsent]
      exact h.attempts
  · have hkept : ∀ b ∈ s.state.sent, b ∈ s'.state.sent := by
      intro b hb
      rw [hsent]
      split
      · exact List.mem_append_left _ hb
      · exact hb
    have hbefore : ∀ pipe ∈ before, pipe ∈ s.pipes := by
      intro pipe hpipe
      rcases hlast with hlast | ⟨hlast, _⟩
      · exact hlast ▸ List.mem_append_left _ hpipe
      · exact hlast ▸ hpipe
    constructor
    case batches =>
      intro pipe hpipe a ha hok
      have hold : (∃ pipe ∈ s.pipes, a ∈ pipe.attempts) ∨ a = (batch.map Prod.snd, ok) := by
        rw [hpipes, List.mem_append, List.mem_singleton] at hpipe
        rcases hpipe with hpipe | rfl
        · exact .inl ⟨pipe, hbefore pipe hpipe, ha⟩
        · rcases List.mem_append.mp ha with ha | ha
          · rcases hlast with hlast | ⟨_, rfl⟩
            · exact .inl ⟨last, hlast ▸ List.mem_append_right _ (List.mem_singleton_self _), ha⟩
            · exact absurd ha List.not_mem_nil
          · exact .inr (List.mem_singleton.mp ha)
      rcases hold with ⟨pipe, hpipe, ha⟩ | rfl
      · obtain ⟨b, hb, heq⟩ := h.batches pipe hpipe a ha hok
        exact ⟨b, hkept b hb, heq⟩
      · rw [hsent, if_pos hok]
        exact ⟨batch, List.mem_append_right _ (List.mem_singleton_self _), rfl⟩
    case attempts =>
      intro b hb
      have hnew : b ∈ s.state.sent ∨ ok = true ∧ b = batch := by
        rw [hsent] at hb
        split_ifs at hb with hok
        · exact (List.mem_append.mp hb).imp_right fun hb => ⟨hok, List.mem_singleton.mp hb⟩
        · exact .inl hb
      rw [hpipes]
      rcases hnew with hb | ⟨rfl, rfl⟩
      · obtain ⟨pipe, hpipe, ha⟩ := h.attempts b hb
        rcases hlast with hlast | ⟨hlast, _⟩
        · rw [hlast, List.mem_append, List.mem_singleton] at hpipe
          rcases hpipe with hpipe | rfl
          · exact ⟨pipe, List.mem_append_left _ hpipe, ha⟩
          · exact ⟨_, List.mem_append_right _ (List.mem_singleton_self _),
              List.mem_append_left _ ha⟩
        · exact ⟨pipe, List.mem_append_left _ (hlast ▸ hpipe), ha⟩
      · exact ⟨_, List.mem_append_right _ (List.mem_singleton_self _),
          List.mem_append_right _ (List.mem_singleton_self _)⟩

theorem sentOn_of_reachable {s : RunLoop} (h : Reachable (LoopStep config serialize) .init s) :
    SentOn s :=
  h.invariant SentOn
    ⟨fun _ hc => absurd hc List.not_mem_nil, fun _ hc => absurd hc List.not_mem_nil⟩
    fun _ _ _ => sentOn_step

end Sent

end Agent
