/-
How the agent stops (`SampleSender::Stop` and the end of `main`).

`Stop` clears `running_` and joins the sender thread.  The thread looks at
`running_` only at the top of its loop, so that it may still be in a round: it
may still copy a batch, connect and send it.  The socket has no timeout, and a
`send()` to a peer that has stopped reading does not return.

* `Agrees` — the thread and the batch in flight agree, in every run;
* `workAhead` — how many steps the thread and `main` have left at most;
* `own_step_iff` — the process is only stuck in a `send()` that blocks;
* `blocked_of_run` — and there it stays, unless the peer does something;
* `stop_terminates` — otherwise it stops, and it sends one more batch at most:
  the rest of the queue is given up.
-/
import HpcTelemetry.AgentLifetime

namespace Agent

open Transitions

variable {config : AgentConfig} {serialize : Serializer}

/-! ### The thread and its batch -/

/-- The batch the thread is at. -/
def ThreadState.batch : ThreadState → Option (List (ℕ × SampleRecord))
  | .batched batch | .sending batch _ => some batch
  | .top | .waiting | .returned => none

/-- The batch in flight is the one the thread is at, it writes to an open socket,
and it only returns when it has been told to. -/
structure Agrees (s : AgentProcess) : Prop where
  batch : s.state.inFlight = s.thread.batch
  sock : ∀ batch rest, s.thread = .sending batch rest → s.sock ≠ none
  returned : s.thread = .returned → s.running = false
  stopping : s.main = .stopping → s.running = false
  short : ∀ batch, s.thread.batch = some batch → batch.length ≤ kMaxBatchSize

theorem agrees_start : Agrees .start where
  batch := rfl
  sock := fun _ _ hc => (by cases hc)
  returned := fun hc => (by cases hc)
  stopping := fun hc => (by cases hc)
  short := fun _ hc => (by cases hc)

theorem length_batch_le {ρ : Type*} (sender : SampleSender ρ) :
    sender.batch.length ≤ kMaxBatchSize := by
  rw [SampleSender.batch, List.length_take]
  omega

/-- Back at the top of its loop the thread has no batch. -/
theorem agrees_top {s : AgentProcess} (h : Agrees s) {state : SenderState SampleRecord}
    (hnone : state.inFlight = none) (sock : Option Socket) :
    Agrees { s with state := state, thread := .top, sock := sock } where
  batch := hnone
  sock := fun _ _ hc => (by cases hc)
  returned := fun hc => (by cases hc)
  stopping := h.stopping
  short := fun _ hc => (by cases hc)

/-- What the peer does to the connection leaves the thread alone. -/
theorem agrees_peer {s : AgentProcess} (h : Agrees s) (sock : Socket) :
    Agrees { s with sock := some sock } where
  batch := h.batch
  sock := fun _ _ _ => Option.some_ne_none _
  returned := h.returned
  stopping := h.stopping
  short := h.short

theorem agrees_step {s s' : AgentProcess} {a : AgentAction} (h : Agrees s)
    (hstep : AgentStep config serialize s a s') : Agrees s' := by
  obtain ⟨_, hmove⟩ := hstep
  cases hmove with
  | @signal sig hsig =>
    rcases hsig with rfl | rfl
    · exact ⟨h.batch, h.sock, h.returned, h.stopping, h.short⟩
    · exact ⟨h.batch, h.sock, h.returned, h.stopping, h.short⟩
  | peerClose _ => exact agrees_peer h _
  | peerReset _ => exact agrees_peer h _
  | peerStall _ => exact agrees_peer h _
  | peerResume _ => exact agrees_peer h _
  | sample _ _ => exact ⟨h.batch, h.sock, h.returned, fun hc => (by cases hc), h.short⟩
  | enqueue _ hqueue =>
    cases hqueue with
    | enqueue _ => exact ⟨h.batch, h.sock, h.returned, fun hc => (by cases hc), h.short⟩
  | sleep _ => exact ⟨h.batch, h.sock, h.returned, fun hc => (by cases hc), h.short⟩
  | stop _ _ => exact ⟨h.batch, h.sock, fun _ => rfl, fun _ => rfl, h.short⟩
  | exit hmain hthread =>
    exact ⟨h.batch, fun _ _ hc => (by simp [hthread] at hc), h.returned, h.stopping, h.short⟩
  | checkRunning hthread =>
    have hnone : s.state.inFlight = none := by rw [h.batch, hthread]; rfl
    by_cases hrunning : s.running = true
    · simp only [if_pos hrunning]
      exact ⟨hnone, fun _ _ hc => (by cases hc), fun hc => (by cases hc), h.stopping,
        fun _ hc => (by cases hc)⟩
    · simp only [if_neg hrunning]
      exact ⟨hnone, fun _ _ hc => (by cases hc), fun _ => Bool.eq_false_of_not_eq_true hrunning,
        h.stopping, fun _ hc => (by cases hc)⟩
  | snapshot hthread hqueue =>
    cases hqueue with
    | snapshot _ =>
      by_cases hnil : s.state.sender.batch = []
      · simp only [if_pos hnil]
        exact agrees_top h rfl s.sock
      · simp only [if_neg hnil]
        refine ⟨rfl, fun _ _ hc => (by cases hc), fun hc => (by cases hc), h.stopping,
          fun batch hc => ?_⟩
        obtain rfl := Option.some_inj.mp hc
        exact length_batch_le _
  | connected hthread _ =>
    exact ⟨h.batch, fun _ _ hc => Option.some_ne_none _, h.returned, h.stopping, h.short⟩
  | connectFailed _ _ hqueue =>
    cases hqueue with
    | failure _ =>
      exact agrees_top h rfl s.sock
  | @serialized batch sock payload hthread hsock _ =>
    have hbatch : s.thread.batch = some batch := by rw [hthread]; rfl
    refine ⟨h.batch.trans hbatch, fun _ _ _ => ?_, fun hc => (by cases hc), h.stopping,
      fun batch' hc => h.short batch' (hbatch.trans hc)⟩
    simp only [hsock]
    exact Option.some_ne_none _
  | serializeFailed _ _ _ hqueue =>
    cases hqueue with
    | failure _ =>
      exact agrees_top h rfl none
  | @send batch rest sock n hthread _ hsock _ _ =>
    have hbatch : s.thread.batch = some batch := by rw [hthread]; rfl
    refine ⟨h.batch.trans hbatch, fun _ _ _ => ?_, fun hc => (by cases hc), h.stopping,
      fun batch' hc => h.short batch' (hbatch.trans hc)⟩
    simp only [hsock]
    exact Option.some_ne_none _
  | sendFailed _ _ _ _ _ hqueue =>
    cases hqueue with
    | failure _ =>
      exact agrees_top h rfl none
  | sendReset _ _ _ _ => exact ⟨h.batch, h.sock, h.returned, h.stopping, h.short⟩
  | sent _ hqueue =>
    cases hqueue with
    | success _ =>
      exact agrees_top h rfl s.sock

theorem agrees_of_reachable {s : AgentProcess}
    (h : Reachable (AgentStep config serialize) .start s) : Agrees s :=
  h.invariant Agrees agrees_start fun _ _ _ => agrees_step

/-! ### How much is left to do -/

/-- What the process does, as opposed to what is done to it. -/
def AgentAction.own : AgentAction → Bool
  | .signal _ | .peerClose | .peerReset | .peerStall | .peerResume => false
  | _ => true

variable (config serialize) in
/-- The length of the frame of a batch. -/
def frameLength (batch : List (ℕ × SampleRecord)) : ℕ :=
  match serialize (protoBatch config (batch.map Prod.snd)) with
  | some payload => (encodeFrame .kSampleBatch payload).length
  | none => 0

variable (config serialize) in
/-- The steps of the thread and of `main` that are left at most, once `Stop` has
been called: every `send()` takes a byte or more. -/
def workAhead (s : AgentProcess) : ℕ :=
  if s.status = .running then
    match s.thread with
    | .returned => 1
    | .top => 2
    | .sending _ rest => 3 + rest.length
    | .batched batch => 4 + frameLength config serialize batch + if s.sock = none then 1 else 0
    | .waiting => 6 + frameLength config serialize s.state.sender.batch
  else 0

theorem workAhead_step {s s' : AgentProcess} {a : AgentAction} (h : Agrees s)
    (hmain : s.main = .stopping) (hstep : AgentStep config serialize s a s') :
    workAhead config serialize s' + (if a.own then 1 else 0) ≤ workAhead config serialize s := by
  obtain ⟨hstatus, hmove⟩ := hstep
  rw [workAhead, workAhead, if_pos hstatus]
  cases hmove with
  | @signal sig hsig =>
    rcases hsig with rfl | rfl
    · simp [deliver, disposition, hstatus, AgentAction.own]
    · simp [deliver, disposition, hstatus, AgentAction.own]
  | peerClose hsock => simp [hstatus, hsock, AgentAction.own]
  | peerReset hsock => simp [hstatus, hsock, AgentAction.own]
  | peerStall hsock => simp [hstatus, hsock, AgentAction.own]
  | peerResume hsock => simp [hstatus, hsock, AgentAction.own]
  | sample hmain' _ =>
    rw [hmain] at hmain'
    cases hmain'
  | enqueue hmain' _ =>
    rw [hmain] at hmain'
    cases hmain'
  | sleep hmain' =>
    rw [hmain] at hmain'
    cases hmain'
  | stop hmain' _ =>
    rw [hmain] at hmain'
    cases hmain'
  | exit _ hthread => simp [hthread, AgentAction.own]
  | checkRunning hthread =>
    simp [hthread, hstatus, h.stopping hmain, AgentAction.own]
  | snapshot hthread hqueue =>
    cases hqueue with
    | snapshot _ =>
      by_cases hnil : s.state.sender.batch = []
      · simp only [hthread, hstatus, if_pos hnil, AgentAction.own, if_true]
        omega
      · simp only [hthread, hstatus, if_neg hnil, AgentAction.own, if_true]
        split_ifs
        all_goals omega
  | connected hthread hsock => simp [hthread, hstatus, hsock, AgentAction.own]
  | connectFailed hthread hsock _ =>
    simp only [hthread, hstatus, hsock, AgentAction.own, if_true]
    omega
  | serialized hthread hsock hser =>
    simp only [hthread, hstatus, frameLength, hser, AgentAction.own, if_true]
    omega
  | serializeFailed hthread hsock _ _ =>
    simp only [hthread, hstatus, AgentAction.own, if_true]
    omega
  | @send batch rest sock n hthread hrest _ _ hpos =>
    have hlength : 0 < rest.length := List.length_pos_iff.mpr hrest
    simp only [hthread, hstatus, AgentAction.own, if_true, List.length_drop]
    omega
  | sendFailed hthread _ _ _ _ _ =>
    simp [hthread, hstatus, AgentAction.own]
  | @sendReset batch rest sock n hthread _ _ _ =>
    simp only [deliver, disposition, hthread, reduceCtorEq, AgentAction.own, if_true, if_false]
    omega
  | sent hthread _ => simp [hthread, hstatus, AgentAction.own]

/-- The thread is in a `send()` that does not return. -/
def Blocked (s : AgentProcess) : Prop :=
  ∃ batch rest sock, s.thread = .sending batch rest ∧ rest ≠ [] ∧ s.sock = some sock ∧
    sock.stalled = true ∧ sock.reset = false

/-- Whatever else happens, nothing but the peer ends a `send()` that blocks. -/
theorem blocked_step {s s' : AgentProcess} {a : AgentAction} (h : Blocked s)
    (hmain : s.main = .stopping) (hpeer : a ≠ .peerResume ∧ a ≠ .peerReset)
    (hstep : AgentStep config serialize s a s') :
    Blocked s' ∧ s'.status = .running ∧ a.own = false := by
  obtain ⟨hstatus, hmove⟩ := hstep
  obtain ⟨batch, rest, sock, hthread, hrest, hsock, hstalled, hreset⟩ := h
  have hnever : ∀ {sock' : Socket}, s.sock = some sock' → ¬ sock'.Open := by
    intro sock' hsock' hopen
    obtain rfl : sock = sock' := Option.some_inj.mp (hsock.symm.trans hsock')
    cases hstalled.symm.trans hopen.stalled
  cases hmove with
  | @signal sig hsig =>
    rcases hsig with rfl | rfl
    · exact ⟨⟨batch, rest, sock, hthread, hrest, hsock, hstalled, hreset⟩, hstatus, rfl⟩
    · exact ⟨⟨batch, rest, sock, hthread, hrest, hsock, hstalled, hreset⟩, hstatus, rfl⟩
  | @peerClose sock' hsock' =>
    obtain rfl : sock = sock' := Option.some_inj.mp (hsock.symm.trans hsock')
    exact ⟨⟨batch, rest, _, hthread, hrest, rfl, hstalled, hreset⟩, hstatus, rfl⟩
  | @peerStall sock' hsock' =>
    obtain rfl : sock = sock' := Option.some_inj.mp (hsock.symm.trans hsock')
    exact ⟨⟨batch, rest, _, hthread, hrest, rfl, rfl, hreset⟩, hstatus, rfl⟩
  | peerReset _ => exact absurd rfl hpeer.2
  | peerResume _ => exact absurd rfl hpeer.1
  | sample hmain' _ => cases hmain.symm.trans hmain'
  | enqueue hmain' _ => cases hmain.symm.trans hmain'
  | sleep hmain' => cases hmain.symm.trans hmain'
  | stop hmain' _ => cases hmain.symm.trans hmain'
  | exit _ hthread' => cases hthread.symm.trans hthread'
  | checkRunning hthread' => cases hthread.symm.trans hthread'
  | snapshot hthread' _ => cases hthread.symm.trans hthread'
  | connected hthread' _ => cases hthread.symm.trans hthread'
  | connectFailed hthread' _ _ => cases hthread.symm.trans hthread'
  | serialized hthread' _ _ => cases hthread.symm.trans hthread'
  | serializeFailed hthread' _ _ _ => cases hthread.symm.trans hthread'
  | send _ _ hsock' hopen _ => exact absurd hopen (hnever hsock')
  | sendFailed _ _ hsock' hopen _ _ => exact absurd hopen (hnever hsock')
  | @sendReset _ _ sock' _ _ _ hsock' hreset' =>
    obtain rfl : sock = sock' := Option.some_inj.mp (hsock.symm.trans hsock')
    cases hreset.symm.trans hreset'
  | sent hthread' _ =>
    injection hthread.symm.trans hthread' with _ hnil
    exact absurd hnil hrest

/-- There is a next step unless the thread is in a `send()` that blocks. -/
theorem exists_own_step {s : AgentProcess} (h : Agrees s) (hstatus : s.status = .running)
    (hmain : s.main = .stopping) (hblocked : ¬ Blocked s) :
    ∃ a s', a.own = true ∧ AgentStep config serialize s a s' := by
  have hbatch := h.batch
  cases hthread : s.thread with
  | top => exact ⟨.checkRunning, _, rfl, hstatus, .checkRunning hthread⟩
  | waiting =>
    rw [hthread] at hbatch
    exact ⟨.snapshot, _, rfl, hstatus, .snapshot hthread (.snapshot hbatch)⟩
  | batched batch =>
    rw [hthread] at hbatch
    cases hsock : s.sock with
    | none => exact ⟨.connect true, _, rfl, hstatus, .connected hthread hsock⟩
    | some sock =>
      cases hser : serialize (protoBatch config (batch.map Prod.snd)) with
      | some payload => exact ⟨.sendBatch, _, rfl, hstatus, .serialized hthread hsock hser⟩
      | none =>
        exact ⟨.sendBatch, _, rfl, hstatus, .serializeFailed hthread hsock hser (.failure hbatch)⟩
  | sending batch rest =>
    rw [hthread] at hbatch
    by_cases hrest : rest = []
    · subst hrest
      exact ⟨.sent, _, rfl, hstatus, .sent hthread (.success hbatch)⟩
    · obtain ⟨sock, hsock⟩ := Option.ne_none_iff_exists'.mp (h.sock batch rest hthread)
      by_cases hreset : sock.reset = true
      · exact ⟨.send 1, _, rfl, hstatus, .sendReset hthread hrest hsock hreset⟩
      · rw [Bool.not_eq_true] at hreset
        have hopen : sock.Open := by
          refine ⟨hreset, Bool.eq_false_of_not_eq_true fun hstalled => ?_⟩
          exact hblocked ⟨batch, rest, sock, hthread, hrest, hsock, hstalled, hreset⟩
        exact ⟨.send 1, _, rfl, hstatus, .send hthread hrest hsock hopen one_pos⟩
  | returned => exact ⟨.exit, _, rfl, hstatus, .exit hmain hthread⟩

/-- The process is only stuck in a `send()` that blocks. -/
theorem own_step_iff {s : AgentProcess} (h : Agrees s) (hstatus : s.status = .running)
    (hmain : s.main = .stopping) :
    (∃ a s', a.own = true ∧ AgentStep config serialize s a s') ↔ ¬ Blocked s := by
  constructor
  · rintro ⟨a, s', hown, hstep⟩ hblocked
    have hpeer : a ≠ .peerResume ∧ a ≠ .peerReset := by
      constructor
      · rintro rfl
        cases hown
      · rintro rfl
        cases hown
    cases hown.symm.trans (blocked_step hblocked hmain hpeer hstep).2.2
  · exact exists_own_step h hstatus hmain

/-! ### What is still sent -/

/-- The batches the thread may still send before it looks at `running_` again. -/
def ThreadState.mayStillSend : ThreadState → ℕ
  | .top | .returned => 0
  | .waiting | .batched _ | .sending _ _ => 1

/-- Since `s₀` the thread has sent no more batches than it might, and nothing
else has left the queue. -/
def GivesUp (s₀ s : AgentProcess) : Prop :=
  ∃ batches n, s.state.sent = s₀.state.sent ++ batches ∧
    batches.length + s.thread.mayStillSend ≤ s₀.thread.mayStillSend ∧
    s.state.sender.queue = s₀.state.sender.queue.drop n ∧ n ≤ kMaxBatchSize * batches.length

theorem givesUp_step {s₀ s s' : AgentProcess} {a : AgentAction} (h : Agrees s)
    (hmain : s.main = .stopping) (hgives : GivesUp s₀ s)
    (hstep : AgentStep config serialize s a s') : GivesUp s₀ s' := by
  obtain ⟨hstatus, hmove⟩ := hstep
  obtain ⟨batches, n, hsent, hmay, hqueue, hn⟩ := hgives
  cases hmove with
  | @signal sig hsig =>
    rcases hsig with rfl | rfl
    · exact ⟨batches, n, hsent, hmay, hqueue, hn⟩
    · exact ⟨batches, n, hsent, hmay, hqueue, hn⟩
  | peerClose _ => exact ⟨batches, n, hsent, hmay, hqueue, hn⟩
  | peerReset _ => exact ⟨batches, n, hsent, hmay, hqueue, hn⟩
  | peerStall _ => exact ⟨batches, n, hsent, hmay, hqueue, hn⟩
  | peerResume _ => exact ⟨batches, n, hsent, hmay, hqueue, hn⟩
  | sample hmain' _ =>
    rw [hmain] at hmain'
    cases hmain'
  | enqueue hmain' _ =>
    rw [hmain] at hmain'
    cases hmain'
  | sleep hmain' =>
    rw [hmain] at hmain'
    cases hmain'
  | stop hmain' _ =>
    rw [hmain] at hmain'
    cases hmain'
  | exit _ _ => exact ⟨batches, n, hsent, hmay, hqueue, hn⟩
  | checkRunning hthread =>
    simp only [h.stopping hmain]
    exact ⟨batches, n, hsent, by rw [hthread] at hmay; exact hmay, hqueue, hn⟩
  | snapshot hthread hstep =>
    cases hstep with
    | snapshot _ =>
      rw [hthread] at hmay
      refine ⟨batches, n, hsent, le_trans ?_ hmay, hqueue, hn⟩
      split
      · exact Nat.le_succ _
      · exact le_rfl
  | connected _ _ => exact ⟨batches, n, hsent, hmay, hqueue, hn⟩
  | connectFailed _ _ hstep =>
    cases hstep with
    | failure _ => exact ⟨batches, n, hsent, Nat.le_of_add_right_le hmay, hqueue, hn⟩
  | serialized hthread _ _ =>
    rw [hthread] at hmay
    exact ⟨batches, n, hsent, hmay, hqueue, hn⟩
  | serializeFailed _ _ _ hstep =>
    cases hstep with
    | failure _ => exact ⟨batches, n, hsent, Nat.le_of_add_right_le hmay, hqueue, hn⟩
  | send hthread _ _ _ _ =>
    rw [hthread] at hmay
    exact ⟨batches, n, hsent, hmay, hqueue, hn⟩
  | sendFailed _ _ _ _ _ hstep =>
    cases hstep with
    | failure _ => exact ⟨batches, n, hsent, Nat.le_of_add_right_le hmay, hqueue, hn⟩
  | sendReset _ _ _ _ => exact ⟨batches, n, hsent, hmay, hqueue, hn⟩
  | @sent batch _ hthread hstep =>
    cases hstep with
    | @success batch' hflight =>
      have hbatch : s.thread.batch = some batch' := h.batch.symm.trans hflight
      have hshort := h.short batch' hbatch
      rw [hthread] at hmay
      refine ⟨batches ++ [batch'], n + min batch'.length s.state.sender.queue.length, ?copied, ?may,
        ?rest, ?few⟩
      case copied =>
        show s.state.sent ++ [batch'] = _
        rw [hsent, List.append_assoc]
      case may =>
        rw [List.length_append]
        exact hmay
      case rest =>
        show s.state.sender.queue.drop _ = _
        rw [← List.drop_drop, ← hqueue]
      case few =>
        rw [List.length_append, List.length_singleton, Nat.mul_succ]
        omega

/-! ### The end -/

theorem stopping_step {s s' : AgentProcess} {a : AgentAction} (hmain : s.main = .stopping)
    (hstep : AgentStep config serialize s a s') : s'.main = .stopping := by
  obtain ⟨_, hmove⟩ := hstep
  cases hmove with
  | @signal sig hsig =>
    rcases hsig with rfl | rfl
    · exact hmain
    · exact hmain
  | sample hmain' _ =>
    rw [hmain] at hmain'
    cases hmain'
  | enqueue hmain' _ =>
    rw [hmain] at hmain'
    cases hmain'
  | sleep hmain' =>
    rw [hmain] at hmain'
    cases hmain'
  | stop _ _ => rfl
  | _ => exact hmain

/-- `main` is in `Stop`, and the thread is where it may be. -/
def Stopping (s : AgentProcess) : Prop := Agrees s ∧ s.main = .stopping

theorem stopping_invariant {s s' : AgentProcess} {a : AgentAction} (h : Stopping s)
    (hstep : AgentStep config serialize s a s') : Stopping s' :=
  ⟨agrees_step h.1 hstep, stopping_step h.2 hstep⟩

/-- Where a `send()` blocks, `Stop` does not return: this lasts until the peer
reads again or resets the connection. -/
theorem blocked_of_run {s s' : AgentProcess} {tr : List (AgentProcess × AgentAction)}
    (hstatus : s.status = .running) (hmain : s.main = .stopping) (hblocked : Blocked s)
    (hrun : Run (AgentStep config serialize) s tr s')
    (hpeer : ∀ q ∈ tr, q.2 ≠ .peerResume ∧ q.2 ≠ .peerReset) :
    Blocked s' ∧ s'.status = .running := by
  suffices hend : Blocked s' ∧ s'.status = .running ∧ s'.main = .stopping from ⟨hend.1, hend.2.1⟩
  induction hrun with
  | nil => exact ⟨hblocked, hstatus, hmain⟩
  | @snoc tr s₁ s₂ a hrun hstep ih =>
    obtain ⟨hblocked₁, _, hmain₁⟩ := ih fun q hq => hpeer q (List.mem_append_left _ hq)
    have hlast := hpeer (s₁, a) (List.mem_append_right _ (List.mem_singleton_self _))
    obtain ⟨hblocked₂, hstatus₂, _⟩ := blocked_step hblocked₁ hmain₁ hlast hstep
    exact ⟨hblocked₂, hstatus₂, stopping_step hmain₁ hstep⟩

variable (config serialize) in
/-- What is left of the agent after `Stop` has been called in `s`, when it has
come to `s'`. -/
structure Terminates (s : AgentProcess) (tr : List (AgentProcess × AgentAction))
    (s' : AgentProcess) : Prop where
  /-- It has taken so many steps at most. -/
  bounded : tr.countP (fun q => q.2.own) ≤ workAhead config serialize s
  /-- If it is not over it can take another, unless a `send()` blocks. -/
  progress : s'.status = .running →
    ((∃ a s'', a.own = true ∧ AgentStep config serialize s' a s'') ↔ ¬ Blocked s')
  /-- If one does, that is how it stays, until the peer does something. -/
  hangs : s'.status = .running → Blocked s' → ∀ tr' s'',
    Run (AgentStep config serialize) s' tr' s'' →
    (∀ q ∈ tr', q.2 ≠ .peerResume ∧ q.2 ≠ .peerReset) → Blocked s'' ∧ s''.status = .running
  /-- At most one more batch was sent, and what it did not erase is still queued. -/
  abandoned : ∃ batches n, s'.state.sent = s.state.sent ++ batches ∧ batches.length ≤ 1 ∧
    s'.state.sender.queue = s.state.sender.queue.drop n ∧ n ≤ kMaxBatchSize * batches.length

theorem mayStillSend_le_one (thread : ThreadState) : thread.mayStillSend ≤ 1 := by
  cases thread with
  | top => exact Nat.zero_le _
  | returned => exact Nat.zero_le _
  | _ => exact le_rfl

/-- `Stop` terminates unless a `send()` of the thread blocks, however its calls
end, and gives up all but one batch of the queue. -/
theorem stop_terminates {s s' : AgentProcess} {tr : List (AgentProcess × AgentAction)}
    (hreach : Reachable (AgentStep config serialize) .start s) (hstop : s.main = .stopping)
    (hrun : Run (AgentStep config serialize) s tr s') : Terminates config serialize s tr s' := by
  have hstart : Stopping s := ⟨agrees_of_reachable hreach, hstop⟩
  have hend : Stopping s' := hrun.invariant hstart fun _ _ _ => stopping_invariant
  refine ⟨?bounded, fun hstatus => own_step_iff hend.1 hstatus hend.2,
    fun hstatus hblocked _ _ hrest => blocked_of_run hstatus hend.2 hblocked hrest, ?abandoned⟩
  case bounded =>
    have hvariant := hrun.variant Stopping (workAhead config serialize) AgentAction.own hstart
      (fun _ _ _ => stopping_invariant) (fun _ _ _ h => workAhead_step h.1 h.2)
    omega
  case abandoned =>
    have hgives : GivesUp s s' := hrun.invariant_with Stopping (GivesUp s) hstart
      (fun _ _ _ => stopping_invariant)
      ⟨[], 0, (List.append_nil _).symm, by rw [List.length_nil, Nat.zero_add],
        List.drop_zero.symm, Nat.zero_le _⟩
      (fun _ _ _ h hgives => givesUp_step h.1 h.2 hgives)
    obtain ⟨batches, n, hsent, hmay, hqueue, hn⟩ := hgives
    have hone := mayStillSend_le_one s.thread
    exact ⟨batches, n, hsent, by omega, hqueue, hn⟩

/-- `oneRecordSending`, after a SIGTERM. -/
def oneRecordStopping : AgentProcess :=
  { oneRecordSending with main := .stopping, running := false, shutdownRequested := true }

/-- A SIGTERM arrives before the first `send()`, and the server stops reading:
`Stop` blocks.  The server reads again, and the record is still sent. -/
theorem stop_terminates_example :
    ∃ (tr tr' : List (AgentProcess × AgentAction)) (s s' : AgentProcess),
      Terminates ⟨"n", 512⟩ oneRecordSerializer oneRecordStopping tr s ∧ Blocked s ∧
        Terminates ⟨"n", 512⟩ oneRecordSerializer oneRecordStopping (tr ++ tr') s' ∧
        s'.status = .exited ∧ s'.state.sent = [[(0, oneRecord)]] := by
  obtain ⟨tr, hrun, _⟩ := run_oneRecordSending
  have hlooping := hrun.snoc ⟨rfl, .sleep rfl⟩
  have hsignalled := hlooping.snoc ⟨rfl, @AgentMove.signal _ _ _ .sigterm (.inr rfl)⟩
  have hstopped := hsignalled.snoc ⟨rfl, .stop rfl rfl⟩
  have hnil : Run (AgentStep ⟨"n", 512⟩ oneRecordSerializer) oneRecordStopping []
    oneRecordStopping := .nil
  have hstalled := hnil.snoc ⟨rfl, .peerStall rfl⟩
  have hsent := (hstalled.snoc ⟨rfl, .peerResume rfl⟩).snoc
    ⟨rfl, .send (n := 200) rfl (by decide) rfl ⟨rfl, rfl⟩ (by decide)⟩
  have hended := (hsent.snoc ⟨rfl, .sent rfl (.success rfl)⟩).snoc ⟨rfl, .checkRunning rfl⟩
  refine ⟨_, _, _, _, stop_terminates ⟨_, hstopped⟩ rfl hstalled, ?_,
    stop_terminates ⟨_, hstopped⟩ rfl (hended.snoc ⟨rfl, .exit rfl rfl⟩), rfl, rfl⟩
  exact ⟨_, _, _, rfl, by decide, rfl, rfl, rfl⟩

end Agent
