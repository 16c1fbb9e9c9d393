/-
How long the agent lives.

A `send()` that fails is answered by a new connection, and the queue is kept.
A `send()` on a connection the peer has reset does not fail, though: it raises
SIGPIPE, for which there is no handler.

* `Supervised` — the invariant of the runs in which no `send()` meets a reset
  connection: the process is only over when a shutdown was requested;
* `retries_of_failed` — what follows a failed `send()`;
* `outlives_iff` — the agent outlives its server exactly in these runs.
-/
import HpcTelemetry.AgentProcess
import HpcTelemetry.Delivery

namespace Agent

open Transitions

variable {config : AgentConfig} {serialize : Serializer}

/-- As long as no shutdown is requested, a `send()` finds the connection open. -/
def SendsOnOpen (p : AgentProcess × AgentAction) : Prop :=
  p.1.shutdownRequested = false → ∀ n, p.2 = .send n →
    ∀ sock, p.1.sock = some sock → sock.reset = false

/-- A `send()` on an open connection fails. -/
def FailedSend (p : AgentProcess × AgentAction) (sock : Socket) : Prop :=
  p.1.sock = some sock ∧ sock.reset = false ∧ ∃ n ≤ 0, p.2 = .send n

/-! ### The process is not over -/

structure Supervised (s : AgentProcess) : Prop where
  stopping : s.main = .stopping → s.shutdownRequested = true
  alive : s.status ≠ .running → s.shutdownRequested = true

theorem supervised_start : Supervised .start where
  stopping := fun h => by cases h
  alive := fun h => absurd rfl h

theorem supervised_step {s s' : AgentProcess} {a : AgentAction} (h : Supervised s)
    (hopen : SendsOnOpen (s, a)) (hstep : AgentStep config serialize s a s') : Supervised s' := by
  obtain ⟨hrunning, hstep⟩ := hstep
  have halive : s.status ≠ .running → s.shutdownRequested = true := fun hc => absurd hrunning hc
  cases hstep with
  | @signal sig hsig =>
    rcases hsig with rfl | rfl
    · exact ⟨fun _ => rfl, fun _ => rfl⟩
    · exact ⟨fun _ => rfl, fun _ => rfl⟩
  | peerClose _ => exact ⟨h.stopping, halive⟩
  | peerReset _ => exact ⟨h.stopping, halive⟩
  | peerStall _ => exact ⟨h.stopping, halive⟩
  | peerResume _ => exact ⟨h.stopping, halive⟩
  | sample _ _ => exact ⟨fun hc => (by cases hc), halive⟩
  | enqueue _ _ => exact ⟨fun hc => (by cases hc), halive⟩
  | sleep _ => exact ⟨fun hc => (by cases hc), halive⟩
  | stop _ hshutdown => exact ⟨fun _ => hshutdown, halive⟩
  | exit hmain _ => exact ⟨h.stopping, fun _ => h.stopping hmain⟩
  | checkRunning _ => exact ⟨h.stopping, halive⟩
  | snapshot _ _ => exact ⟨h.stopping, halive⟩
  | connected _ _ => exact ⟨h.stopping, halive⟩
  | connectFailed _ _ _ => exact ⟨h.stopping, halive⟩
  | serialized _ _ _ => exact ⟨h.stopping, halive⟩
  | serializeFailed _ _ _ _ => exact ⟨h.stopping, halive⟩
  | send _ _ _ _ _ => exact ⟨h.stopping, halive⟩
  | sendFailed _ _ _ _ _ _ => exact ⟨h.stopping, halive⟩
  | @sendReset batch rest sock n _ _ hsock hreset =>
    -- a shutdown was requested before, or the guard excludes the step
    refine ⟨h.stopping, fun _ => ?_⟩
    by_contra hshutdown
    have hclosed := hopen (Bool.eq_false_of_not_eq_true hshutdown) n rfl sock hsock
    rw [hreset] at hclosed
    cases hclosed
  | sent _ _ => exact ⟨h.stopping, halive⟩

/-- A process that is over stays as it is. -/
theorem eq_of_run_of_over {s s' : AgentProcess} {tr : List (AgentProcess × AgentAction)}
    (hover : s.status ≠ .running) (hrun : Run (AgentStep config serialize) s tr s') : s' = s := by
  induction hrun with
  | nil => rfl
  | snoc _ hstep ih =>
    rw [ih] at hstep
    exact absurd hstep.1 hover

/-! ### Connections -/

/-- The connection in use is one of those opened. -/
def Numbered (s : AgentProcess) : Prop := ∀ sock, s.sock = some sock → sock.number < s.opened

/-- No connection in use is older than `m`. -/
def Newer (m : ℕ) (s : AgentProcess) : Prop :=
  m ≤ s.opened ∧ ∀ sock, s.sock = some sock → m ≤ sock.number

/-- A step keeps the connection, up to what the peer does to it, or closes it, or
opens a new one. -/
theorem sock_step {s s' : AgentProcess} {a : AgentAction}
    (h : AgentStep config serialize s a s') :
    s'.opened = s.opened ∧ (∀ sock', s'.sock = some sock' →
        ∃ sock, s.sock = some sock ∧ sock'.number = sock.number) ∨
      s'.opened = s.opened + 1 ∧ s'.sock = some { number := s.opened } := by
  have hsame : ∀ s'' : AgentProcess, s''.opened = s.opened → s''.sock = s.sock →
      s''.opened = s.opened ∧ (∀ sock', s''.sock = some sock' →
        ∃ sock, s.sock = some sock ∧ sock'.number = sock.number) ∨
      s''.opened = s.opened + 1 ∧ s''.sock = some { number := s.opened } := by
    intro s'' hopened hsock
    refine .inl ⟨hopened, fun sock' hsock' => ⟨sock', ?_, rfl⟩⟩
    rw [← hsock, hsock']
  -- the peer does something to the connection
  have htouched : ∀ (s'' : AgentProcess) {sock sock' : Socket}, s.sock = some sock →
      s''.sock = some sock' → sock'.number = sock.number → s''.opened = s.opened →
      s''.opened = s.opened ∧ (∀ sock', s''.sock = some sock' →
        ∃ sock, s.sock = some sock ∧ sock'.number = sock.number) ∨
      s''.opened = s.opened + 1 ∧ s''.sock = some { number := s.opened } := by
    intro s'' sock sock' hsock hsock' hnumber hopened
    refine .inl ⟨hopened, fun sock₂ hsock₂ => ⟨sock, hsock, ?_⟩⟩
    rw [← Option.some_inj.mp (hsock'.symm.trans hsock₂), hnumber]
  obtain ⟨_, h⟩ := h
  cases h with
  | @signal sig hsig =>
    rcases hsig with rfl | rfl
    · exact hsame _ rfl rfl
    · exact hsame _ rfl rfl
  | peerClose hsock => exact htouched _ hsock rfl rfl rfl
  | peerReset hsock => exact htouched _ hsock rfl rfl rfl
  | peerStall hsock => exact htouched _ hsock rfl rfl rfl
  | peerResume hsock => exact htouched _ hsock rfl rfl rfl
  | sample _ _ => exact hsame _ rfl rfl
  | enqueue _ _ => exact hsame _ rfl rfl
  | sleep _ => exact hsame _ rfl rfl
  | stop _ _ => exact hsame _ rfl rfl
  | exit _ _ => exact .inl ⟨rfl, fun _ hc => (by cases hc)⟩
  | checkRunning _ => exact hsame _ rfl rfl
  | snapshot _ _ => exact hsame _ rfl rfl
  | connected _ _ => exact .inr ⟨rfl, rfl⟩
  | connectFailed _ hsock _ => exact hsame _ rfl rfl
  | serialized _ _ _ => exact hsame _ rfl rfl
  | serializeFailed _ _ _ _ => exact .inl ⟨rfl, fun _ hc => (by cases hc)⟩
  | send _ _ _ _ _ => exact hsame _ rfl rfl
  | sendFailed _ _ _ _ _ _ => exact .inl ⟨rfl, fun _ hc => (by cases hc)⟩
  | sendReset _ _ _ _ => exact hsame _ rfl rfl
  | sent _ _ => exact hsame _ rfl rfl

theorem numbered_step {s s' : AgentProcess} {a : AgentAction} (h : Numbered s)
    (hstep : AgentStep config serialize s a s') : Numbered s' := by
  intro sock' hsock'
  rcases sock_step hstep with ⟨hopened, hkeeps⟩ | ⟨hopened, hnew⟩
  · obtain ⟨sock, hsock, hnumber⟩ := hkeeps sock' hsock'
    rw [hopened, hnumber]
    exact h sock hsock
  · rw [hnew, Option.some_inj] at hsock'
    rw [hopened, ← hsock']
    exact Nat.lt_succ_self _

theorem newer_step {m : ℕ} {s s' : AgentProcess} {a : AgentAction} (h : Newer m s)
    (hstep : AgentStep config serialize s a s') : Newer m s' := by
  obtain ⟨hle, hsocks⟩ := h
  rcases sock_step hstep with ⟨hopened, hkeeps⟩ | ⟨hopened, hnew⟩
  · refine ⟨hopened ▸ hle, fun sock' hsock' => ?_⟩
    obtain ⟨sock, hsock, hnumber⟩ := hkeeps sock' hsock'
    rw [hnumber]
    exact hsocks sock hsock
  · refine ⟨by omega, fun sock' hsock' => ?_⟩
    rw [hnew, Option.some_inj] at hsock'
    rw [← hsock']
    exact hle

theorem newer_of_run {m : ℕ} {s s' : AgentProcess} {tr : List (AgentProcess × AgentAction)}
    (h : Newer m s) (hrun : Run (AgentStep config serialize) s tr s') : Newer m s' :=
  hrun.invariant h fun _ _ _ => newer_step

/-! ### After a failed `send()` -/

variable (config serialize) in
/-- What `RunLoop` does about a `send()` that fails on `sock` and takes `s` to
`s₁`, from where the run goes on through `after`. -/
structure Retries (sock : Socket) (s s₁ : AgentProcess)
    (after : List (AgentProcess × AgentAction)) : Prop where
  disconnected : s₁.sock = none
  kept : s₁.state.sender = s.state.sender
  looping : s₁.status = .running ∧ s₁.thread = .top
  /-- The connection that failed is never used again. -/
  fresh : ∀ q ∈ after, ∀ sock', q.1.sock = some sock' → sock.number < sock'.number
  /-- Unless it is being stopped, the thread can send what is then at the front
  of the queue, over a new connection. -/
  again : s₁.running = true → s₁.state.sender.batch ≠ [] → ∀ payload,
    serialize (protoBatch config (s₁.state.sender.batch.map Prod.snd)) = some payload →
    ∃ (tr : List (AgentProcess × AgentAction)) (s₂ : AgentProcess),
      Run (AgentStep config serialize) s₁ tr s₂ ∧ s₂.sock = some { number := s₁.opened } ∧
        s₂.thread = .sending s₁.state.sender.batch (encodeFrame .kSampleBatch payload)

/-- At the top of its loop and without a connection, the sender thread gets to
send its next batch over a new one. -/
theorem sends_again {s : AgentProcess} (hstatus : s.status = .running) (hthread : s.thread = .top)
    (hsock : s.sock = none) (hflight : s.state.inFlight = none) (hrunning : s.running = true)
    (hbatch : s.state.sender.batch ≠ []) {payload : Bytes}
    (hser : serialize (protoBatch config (s.state.sender.batch.map Prod.snd)) = some payload) :
    ∃ (tr : List (AgentProcess × AgentAction)) (s₂ : AgentProcess),
      Run (AgentStep config serialize) s tr s₂ ∧ s₂.sock = some { number := s.opened } ∧
        s₂.thread = .sending s.state.sender.batch (encodeFrame .kSampleBatch payload) := by
  have hcheck : AgentStep config serialize s .checkRunning { s with thread := .waiting } := by
    have hmove : AgentMove config serialize s _ _ := .checkRunning hthread
    rw [if_pos hrunning] at hmove
    exact ⟨hstatus, hmove⟩
  have hsnapshot : AgentStep config serialize { s with thread := .waiting } .snapshot
      { s with
        state := { s.state with inFlight := some s.state.sender.batch }
        thread := .batched s.state.sender.batch } := by
    have hmove : AgentMove config serialize { s with thread := .waiting } _ _ :=
      .snapshot rfl (.snapshot hflight)
    simp only [if_neg hbatch] at hmove
    exact ⟨hstatus, hmove⟩
  exact ⟨_, _, (((Run.nil.snoc hcheck).snoc hsnapshot).snoc
    ⟨hstatus, .connected rfl hsock⟩).snoc ⟨hstatus, .serialized rfl rfl hser⟩, rfl, rfl⟩

theorem retries_of_failed {before after : List (AgentProcess × AgentAction)}
    {p : AgentProcess × AgentAction} {s : AgentProcess} {sock : Socket}
    (hrun : Run (AgentStep config serialize) .start (before ++ p :: after) s)
    (hfailed : FailedSend p sock) :
    ∃ s₁, AgentStep config serialize p.1 p.2 s₁ ∧ Run (AgentStep config serialize) s₁ after s ∧
      Retries config serialize sock p.1 s₁ after := by
  obtain ⟨s₁, hbefore, hstep, hafter⟩ := hrun.split
  refine ⟨s₁, hstep, hafter, ?_⟩
  obtain ⟨q, a⟩ := p
  obtain ⟨hsock, hreset, n, hn, rfl⟩ := hfailed
  have hnumbered : Numbered q :=
    hbefore.invariant (fun _ hc => (by cases hc)) fun _ _ _ => numbered_step
  obtain ⟨sock', batch, rest, hsock', _, _, hcases⟩ := send_cases hstep
  obtain rfl : sock' = sock := Option.some_inj.mp (hsock'.symm.trans hsock)
  rcases hcases with ⟨_, hpos, _⟩ | ⟨_, _, rfl⟩ | ⟨hreset', _⟩
  · omega
  · refine ⟨rfl, rfl, ⟨hstep.1, rfl⟩, ?fresh, ?again⟩
    case fresh =>
      intro p hp sock₂ hsock₂
      obtain ⟨after₁, after₂, rfl⟩ := List.append_of_mem hp
      obtain ⟨_, hafter₁, _, _⟩ := hafter.split
      have hnewer : Newer q.opened p.1 := by
        refine newer_of_run ⟨?_, fun sock₃ hc => ?_⟩ hafter₁
        · exact le_refl q.opened
        · cases show none = some sock₃ from hc
      exact lt_of_lt_of_le (hnumbered sock' hsock) (hnewer.2 sock₂ hsock₂)
    case again =>
      intro hrunning hbatch payload hser
      refine sends_again ?_ rfl rfl rfl hrunning hbatch hser
      exact hstep.1
  · rw [hreset] at hreset'
    cases hreset'

/-! ### The lifetime -/

variable (config serialize) in
/-- At the end of a run the process is only over when a shutdown was requested,
and every failed `send()` on the way was retried. -/
structure OutlivesServer (tr : List (AgentProcess × AgentAction)) (s : AgentProcess) : Prop where
  alive : s.status ≠ .running → s.shutdownRequested = true
  retries : ∀ before p after sock, tr = before ++ p :: after → FailedSend p sock →
    ∃ s₁, AgentStep config serialize p.1 p.2 s₁ ∧ Run (AgentStep config serialize) s₁ after s ∧
      Retries config serialize sock p.1 s₁ after

/-- The agent outlives its server in exactly the runs in which, before a shutdown
is requested, no `send()` is called on a connection the peer has reset. -/
theorem outlives_iff {tr : List (AgentProcess × AgentAction)} {s : AgentProcess}
    (hrun : Run (AgentStep config serialize) .start tr s) :
    OutlivesServer config serialize tr s ↔ ∀ p ∈ tr, SendsOnOpen p := by
  constructor
  · intro houtlives p hp hshutdown n hsend sock hsock
    by_contra hreset
    rw [Bool.not_eq_false] at hreset
    obtain ⟨before, after, rfl⟩ := List.append_of_mem hp
    obtain ⟨s₁, _, hstep, hafter⟩ := hrun.split
    obtain ⟨q, a⟩ := p
    obtain rfl : a = .send n := hsend
    -- the signal ends the process, and nothing happens afterwards
    have hkilled : s₁ = deliver .sigpipe q := by
      obtain ⟨sock', _, _, hsock', _, _, hcases⟩ := send_cases hstep
      obtain rfl : sock' = sock := Option.some_inj.mp (hsock'.symm.trans hsock)
      rcases hcases with ⟨hsends, _⟩ | ⟨hsends, _⟩ | ⟨_, hs₁⟩
      · cases hreset.symm.trans hsends.reset
      · cases hreset.symm.trans hsends.reset
      · exact hs₁
    have hover : s₁.status ≠ .running := by
      rw [hkilled]
      exact fun hc => (by cases hc)
    have hend : s = deliver .sigpipe q := (eq_of_run_of_over hover hafter).trans hkilled
    have hrequested := houtlives.alive (by
      rw [hend]
      exact fun hc => (by cases hc))
    rw [hend, show (deliver .sigpipe q).shutdownRequested = false from hshutdown] at hrequested
    cases hrequested
  · intro hopen
    constructor
    case alive =>
      exact (hrun.invariant_of_guard (G := fun s a => SendsOnOpen (s, a)) supervised_start
        (fun _ _ _ h hguard hstep => supervised_step h hguard hstep) hopen).alive
    case retries =>
      intro before p after sock htr hfailed
      subst htr
      exact retries_of_failed hrun hfailed

/-! ### One record -/

/-- The agent once it has sampled `oneRecord`, and before its first `send()`. -/
def oneRecordSending : AgentProcess where
  state := ⟨⟨[(0, oneRecord)], 0⟩, some [(0, oneRecord)], [(0, oneRecord)], [], []⟩
  main := .enqueueing []
  thread := .sending [(0, oneRecord)] (encodeFrame .kSampleBatch oneRecordPayload)
  running := true
  sock := some { number := 0 }
  opened := 1
  shutdownRequested := false
  status := .running

theorem run_oneRecordSending :
    ∃ tr : List (AgentProcess × AgentAction),
      Run (AgentStep ⟨"n", 512⟩ oneRecordSerializer) .start tr oneRecordSending ∧
        tr.map Prod.snd = [.sample [oneRecord], .enqueue oneRecord, .checkRunning, .snapshot,
          .connect true, .sendBatch] := by
  have hser : oneRecordSerializer (protoBatch ⟨"n", 512⟩ [oneRecord]) = some oneRecordPayload :=
    if_pos rfl
  have hnil : Run (AgentStep ⟨"n", 512⟩ oneRecordSerializer) .start [] .start := .nil
  have hsampled := hnil.snoc ⟨rfl, @AgentMove.sample _ _ .start [oneRecord] rfl rfl⟩
  have hqueued := (hsampled.snoc ⟨rfl, .enqueue rfl (.enqueue rfl)⟩).snoc ⟨rfl, .checkRunning rfl⟩
  have hcopied := hqueued.snoc ⟨rfl, .snapshot rfl (.snapshot rfl)⟩
  exact ⟨_, (hcopied.snoc ⟨rfl, .connected rfl rfl⟩).snoc ⟨rfl, .serialized rfl rfl hser⟩, rfl⟩

/-- The first `send()` fails on an open connection. -/
theorem outlives_iff_example :
    ∃ (tr : List (AgentProcess × AgentAction)) (s : AgentProcess),
      OutlivesServer ⟨"n", 512⟩ oneRecordSerializer tr s ∧
        (oneRecordSending, .send (-1)) ∈ tr ∧ s.state.sender.queue = [(0, oneRecord)] := by
  obtain ⟨tr, hrun, hactions⟩ := run_oneRecordSending
  have hfails := hrun.snoc ⟨rfl, .sendFailed (n := -1) rfl (by decide) rfl ⟨rfl, rfl⟩ (by decide)
    (.failure rfl)⟩
  refine ⟨_, _, (outlives_iff hfails).mpr fun p hp _ n hsend sock hsock => ?_,
    List.mem_append_right _ (List.mem_singleton_self _), rfl⟩
  rcases List.mem_append.mp hp with hp | hp
  · have hp := List.mem_map_of_mem (f := Prod.snd) hp
    rw [hactions, hsend] at hp
    simp at hp
  · rw [List.mem_singleton] at hp
    rw [hp] at hsock
    injection hsock with hsock
    rw [← hsock]

/-- The server closes the connection.  The first `send()` is still accepted, and
answered by a reset; the second one kills the agent, with a record in the queue
and no shutdown requested. -/
theorem outlives_counterexample :
    ∃ (tr : List (AgentProcess × AgentAction)) (s : AgentProcess),
      Run (AgentStep ⟨"n", 512⟩ oneRecordSerializer) .start tr s ∧
        tr.map Prod.snd = [.sample [oneRecord], .enqueue oneRecord, .checkRunning, .snapshot,
          .connect true, .sendBatch, .peerClose, .send 200, .peerReset, .sent, .sleep,
          .sample [oneRecord], .enqueue oneRecord, .checkRunning, .snapshot, .sendBatch,
          .send (-1)] ∧
        s.status = .killed .sigpipe ∧ s.shutdownRequested = false ∧
        s.state.sender.queue = [(1, oneRecord)] ∧
        ¬ OutlivesServer ⟨"n", 512⟩ oneRecordSerializer tr s := by
  have hser : oneRecordSerializer (protoBatch ⟨"n", 512⟩ [oneRecord]) = some oneRecordPayload :=
    if_pos rfl
  obtain ⟨tr, hrun, hactions⟩ := run_oneRecordSending
  have hclosed := hrun.snoc ⟨rfl, .peerClose rfl⟩
  have hanswered := (hclosed.snoc ⟨rfl, .send (n := 200) rfl (by decide) rfl ⟨rfl, rfl⟩
    (by decide)⟩).snoc ⟨rfl, .peerReset rfl⟩
  have hsent := (hanswered.snoc ⟨rfl, .sent rfl (.success rfl)⟩).snoc ⟨rfl, .sleep rfl⟩
  -- the second record
  have hsampled := hsent.snoc ⟨rfl, @AgentMove.sample _ _ _ [oneRecord] rfl rfl⟩
  have hqueued := (hsampled.snoc ⟨rfl, .enqueue rfl (.enqueue rfl)⟩).snoc ⟨rfl, .checkRunning rfl⟩
  have hcopied := hqueued.snoc ⟨rfl, .snapshot rfl (.snapshot rfl)⟩
  have hkilled := (hcopied.snoc ⟨rfl, .serialized rfl rfl hser⟩).snoc
    ⟨rfl, .sendReset (n := -1) rfl (by decide) rfl rfl⟩
  refine ⟨_, _, hkilled, ?_, rfl, rfl, rfl, fun houtlives => ?_⟩
  · simp only [List.map_append, hactions]
    rfl
  · cases houtlives.alive (fun hc => (by cases hc))

end Agent
