/-
The agent as a process (`main.cpp` and the sender thread of `sender.cpp`).

The main thread samples and enqueues until a shutdown is requested, and then
stops the sender; the sender thread connects, sends and reconnects.  Between any
two `send()` calls the server may close or reset the connection, or stop reading
from it, in which case a `send()` does not return; `connect()` is taken to
return.  `main` installs handlers for SIGINT and SIGTERM; every other signal has
its default disposition, and a `send()` on a connection the peer has reset raises
one of them.

* `AgentMove`, `AgentStep` — one step of a thread, of the server, or a signal;
* `send_cases` — what a `send()` can do;
* `agentStep_refines` — seen from the queue it is a step of the sender's queue
  or none;
* `agentProcess_refines` — so what holds in every run of the queue holds in
  every run of the process.
-/
import HpcTelemetry.Sender

namespace Agent

open Transitions

/-! ### Signals -/

inductive Signal where
  | sigint
  | sigterm
  | sigpipe
  deriving DecidableEq

inductive Disposition where
  /-- `HandleSignal`. -/
  | handleSignal
  /-- `SIG_DFL`, which terminates the process for each of these signals. -/
  | default
  deriving DecidableEq

/-- The dispositions after the two calls of `std::signal` in `main`. -/
def disposition : Signal → Disposition
  | .sigint => .handleSignal
  | .sigterm => .handleSignal
  | .sigpipe => .default

/-! ### The process -/

/-- Where `main` stands. -/
inductive MainState where
  /-- At the top of the sampling loop. -/
  | loop
  /-- With readings it has yet to enqueue. -/
  | enqueueing (readings : List SampleRecord)
  /-- In `sender.Stop()`. -/
  | stopping
  deriving DecidableEq

/-- Where `RunLoop` stands. -/
inductive ThreadState where
  /-- At the top of the loop. -/
  | top
  /-- In `wait_for`. -/
  | waiting
  /-- With a batch, before `SendBatch`. -/
  | batched (batch : List (ℕ × SampleRecord))
  /-- In `SendAll`, with the rest of the frame. -/
  | sending (batch : List (ℕ × SampleRecord)) (rest : Bytes)
  | returned
  deriving DecidableEq

/-- The connection behind `sock_fd_`: its number among those opened, and what the
peer has done to it. -/
structure Socket where
  number : ℕ
  /-- The peer has closed it; a segment that is sent now is answered by a reset. -/
  closed : Bool := false
  reset : Bool := false
  /-- The peer reads nothing, and the buffers on the way are full. -/
  stalled : Bool := false
  deriving DecidableEq

/-- A `send()` on it returns: it accepts bytes or fails. -/
structure Socket.Open (sock : Socket) : Prop where
  reset : sock.reset = false
  stalled : sock.stalled = false

inductive ProcessStatus where
  | running
  | exited
  | killed (sig : Signal)
  deriving DecidableEq

structure AgentProcess where
  /-- The queue, and the batch in flight. -/
  state : SenderState SampleRecord
  main : MainState
  thread : ThreadState
  /-- `running_`. -/
  running : Bool
  /-- `sock_fd_`. -/
  sock : Option Socket
  /-- The connections opened so far. -/
  opened : ℕ
  /-- `g_shutdown_requested`. -/
  shutdownRequested : Bool
  status : ProcessStatus

/-- After the calls of `std::signal` and `sender.Start()`. -/
def AgentProcess.start : AgentProcess :=
  ⟨.init, .loop, .top, true, none, 0, false, .running⟩

/-- A signal is delivered to the process. -/
def deliver (sig : Signal) (s : AgentProcess) : AgentProcess :=
  match disposition sig with
  | .handleSignal => { s with shutdownRequested := true }
  | .default => { s with status := .killed sig }

inductive AgentAction where
  | signal (sig : Signal)
  /-- The peer closes the connection: nothing happens to what is sent next. -/
  | peerClose
  /-- The peer resets the connection, at once or in answer to a segment that
  arrives after it has closed. -/
  | peerReset
  /-- The buffers fill up: a `send()` blocks. -/
  | peerStall
  /-- The peer reads again, or the connection times out: a `send()` returns. -/
  | peerResume
  | sample (readings : List SampleRecord)
  | enqueue (record : SampleRecord)
  | sleep
  | stop
  | exit
  | checkRunning
  | snapshot
  | connect (succeeds : Bool)
  | sendBatch
  /-- One `send()` call and its result. -/
  | send (n : ℤ)
  | sent

section Steps

variable (config : AgentConfig) (serialize : Serializer)

/-- What the two threads and the world around them can do. -/
inductive AgentMove : AgentProcess → AgentAction → AgentProcess → Prop where
  | signal {s : AgentProcess} {sig : Signal} : sig = .sigint ∨ sig = .sigterm →
      AgentMove s (.signal sig) (deliver sig s)
  | peerClose {s : AgentProcess} {sock : Socket} : s.sock = some sock →
      AgentMove s .peerClose { s with sock := some { sock with closed := true } }
  | peerReset {s : AgentProcess} {sock : Socket} : s.sock = some sock →
      AgentMove s .peerReset { s with sock := some { sock with reset := true } }
  | peerStall {s : AgentProcess} {sock : Socket} : s.sock = some sock →
      AgentMove s .peerStall { s with sock := some { sock with stalled := true } }
  | peerResume {s : AgentProcess} {sock : Socket} : s.sock = some sock →
      AgentMove s .peerResume { s with sock := some { sock with stalled := false } }
  -- `main`
  | sample {s : AgentProcess} {readings : List SampleRecord} : s.main = .loop →
      s.shutdownRequested = false →
      AgentMove s (.sample readings) { s with main := .enqueueing readings }
  | enqueue {s : AgentProcess} {record : SampleRecord} {readings : List SampleRecord}
      {state' : SenderState SampleRecord} : s.main = .enqueueing (record :: readings) →
      SenderStep config.maxQueueSize s.state (.enqueue record) state' →
      AgentMove s (.enqueue record) { s with state := state', main := .enqueueing readings }
  | sleep {s : AgentProcess} : s.main = .enqueueing [] →
      AgentMove s .sleep { s with main := .loop }
  | stop {s : AgentProcess} : s.main = .loop → s.shutdownRequested = true →
      AgentMove s .stop { s with main := .stopping, running := false }
  | exit {s : AgentProcess} : s.main = .stopping → s.thread = .returned →
      AgentMove s .exit { s with sock := none, status := .exited }
  -- `RunLoop`
  | checkRunning {s : AgentProcess} : s.thread = .top →
      AgentMove s .checkRunning { s with thread := if s.running then .waiting else .returned }
  | snapshot {s : AgentProcess} {state' : SenderState SampleRecord} : s.thread = .waiting →
      SenderStep config.maxQueueSize s.state .snapshot state' →
      AgentMove s .snapshot { s with
        state := state'
        thread := match state'.inFlight with
          | none => .top
          | some batch => .batched batch }
  | connected {s : AgentProcess} {batch : List (ℕ × SampleRecord)} : s.thread = .batched batch →
      s.sock = none →
      AgentMove s (.connect true) { s with
        sock := some { number := s.opened }
        opened := s.opened + 1 }
  | connectFailed {s : AgentProcess} {batch : List (ℕ × SampleRecord)}
      {state' : SenderState SampleRecord} : s.thread = .batched batch → s.sock = none →
      SenderStep config.maxQueueSize s.state .failure state' →
      AgentMove s (.connect false) { s with state := state', thread := .top }
  | serialized {s : AgentProcess} {batch : List (ℕ × SampleRecord)} {sock : Socket}
      {payload : Bytes} : s.thread = .batched batch → s.sock = some sock →
      serialize (protoBatch config (batch.map Prod.snd)) = some payload →
      AgentMove s .sendBatch { s with
        thread := .sending batch (encodeFrame .kSampleBatch payload) }
  | serializeFailed {s : AgentProcess} {batch : List (ℕ × SampleRecord)} {sock : Socket}
      {state' : SenderState SampleRecord} : s.thread = .batched batch → s.sock = some sock →
      serialize (protoBatch config (batch.map Prod.snd)) = none →
      SenderStep config.maxQueueSize s.state .failure state' →
      AgentMove s .sendBatch { s with state := state', thread := .top, sock := none }
  -- `SendAll`
  | send {s : AgentProcess} {batch : List (ℕ × SampleRecord)} {rest : Bytes} {sock : Socket}
      {n : ℤ} : s.thread = .sending batch rest → rest ≠ [] → s.sock = some sock →
      sock.Open → 0 < n →
      AgentMove s (.send n) { s with thread := .sending batch (rest.drop n.toNat) }
  | sendFailed {s : AgentProcess} {batch : List (ℕ × SampleRecord)} {rest : Bytes} {sock : Socket}
      {n : ℤ} {state' : SenderState SampleRecord} : s.thread = .sending batch rest → rest ≠ [] →
      s.sock = some sock → sock.Open → n ≤ 0 →
      SenderStep config.maxQueueSize s.state .failure state' →
      AgentMove s (.send n) { s with state := state', thread := .top, sock := none }
  | sendReset {s : AgentProcess} {batch : List (ℕ × SampleRecord)} {rest : Bytes} {sock : Socket}
      {n : ℤ} : s.thread = .sending batch rest → rest ≠ [] → s.sock = some sock →
      sock.reset = true →
      AgentMove s (.send n) (deliver .sigpipe s)
  | sent {s : AgentProcess} {batch : List (ℕ × SampleRecord)}
      {state' : SenderState SampleRecord} : s.thread = .sending batch [] →
      SenderStep config.maxQueueSize s.state .success state' →
      AgentMove s .sent { s with state := state', thread := .top }

/-- A process that is over takes no steps. -/
def AgentStep (s : AgentProcess) (a : AgentAction) (s' : AgentProcess) : Prop :=
  s.status = .running ∧ AgentMove config serialize s a s'

variable {config serialize}

/-- What a `send()` does: it accepts bytes, or fails, or is answered by a signal. -/
theorem send_cases {s s' : AgentProcess} {n : ℤ}
    (h : AgentStep config serialize s (.send n) s') :
    ∃ sock batch rest, s.sock = some sock ∧ s.thread = .sending batch rest ∧ rest ≠ [] ∧
      (sock.Open ∧ 0 < n ∧ s' = { s with thread := .sending batch (rest.drop n.toNat) } ∨
        sock.Open ∧ n ≤ 0 ∧ s' = { s with
          state := { s.state with inFlight := none }, thread := .top, sock := none } ∨
        sock.reset = true ∧ s' = deliver .sigpipe s) := by
  obtain ⟨_, h⟩ := h
  cases h with
  | send hthread hrest hsock hopen hpos =>
    exact ⟨_, _, _, hsock, hthread, hrest, .inl ⟨hopen, hpos, rfl⟩⟩
  | sendFailed hthread hrest hsock hopen hneg hfailure =>
    cases hfailure with
    | failure _ => exact ⟨_, _, _, hsock, hthread, hrest, .inr (.inl ⟨hopen, hneg, rfl⟩)⟩
  | sendReset hthread hrest hsock hreset =>
    exact ⟨_, _, _, hsock, hthread, hrest, .inr (.inr ⟨hreset, rfl⟩)⟩

/-- Seen from the queue, a step of the process is a step of the sender's queue or
none. -/
theorem agentStep_refines {s s' : AgentProcess} {a : AgentAction}
    (h : AgentStep config serialize s a s') :
    s'.state = s.state ∨ ∃ a', SenderStep config.maxQueueSize s.state a' s'.state := by
  obtain ⟨_, h⟩ := h
  cases h with
  | @signal sig hsig =>
    refine .inl ?_
    rw [deliver]
    split
    · rfl
    · rfl
  | peerClose _ => exact .inl rfl
  | peerReset _ => exact .inl rfl
  | peerStall _ => exact .inl rfl
  | peerResume _ => exact .inl rfl
  | sample _ _ => exact .inl rfl
  | enqueue _ hstep => exact .inr ⟨_, hstep⟩
  | sleep _ => exact .inl rfl
  | stop _ _ => exact .inl rfl
  | exit _ _ => exact .inl rfl
  | checkRunning _ => exact .inl rfl
  | snapshot _ hstep => exact .inr ⟨_, hstep⟩
  | connected _ _ => exact .inl rfl
  | connectFailed _ _ hstep => exact .inr ⟨_, hstep⟩
  | serialized _ _ _ => exact .inl rfl
  | serializeFailed _ _ _ hstep => exact .inr ⟨_, hstep⟩
  | send _ _ _ _ _ => exact .inl rfl
  | sendFailed _ _ _ _ _ hstep => exact .inr ⟨_, hstep⟩
  | sendReset _ _ _ _ => exact .inl rfl
  | sent _ hstep => exact .inr ⟨_, hstep⟩

theorem agentProcess_refines {s : AgentProcess}
    (h : Reachable (AgentStep config serialize) .start s) :
    Reachable (SenderStep config.maxQueueSize) .init s.state := by
  refine h.invariant (fun s => Reachable (SenderStep config.maxQueueSize) .init s.state) .refl
    fun s a s' hs hstep => ?_
  rcases agentStep_refines hstep with hsame | ⟨a', hstep'⟩
  · rw [hsame]
    exact hs
  · exact hs.snoc hstep'

end Steps

end Agent
