/-
Reports on the wire.

A report travels as one frame on a connection of its own, and the service reads
it in whatever chunks TCP makes of it, between reads of other connections, until
the connection is closed or reset.  Seen through what is still to be read, the
service takes a report whole and once, or not at all: the rack with streams
refines the rack with messages.

* `StreamRack`, `StreamStep` — the rack, with the connections of the service;
* `Carries`, `readStep_report` — a stream that has not been read to its end, and
  what a read of it does;
* `streams_step` — a step of the streams is a step of the messages, or none;
* `streams_refine` — the result, for runs.
-/
import HpcTelemetry.FrameCodecs
import HpcTelemetry.Rack
import HpcTelemetry.StreamDecoding

namespace Fleet

open Ingest Workload Transitions

/-! ### Connections -/

/-- A connection the service has accepted, and what its task gets from outside. -/
structure Served where
  env : Env
  connection : Connection

/-- The connection of a report: the bytes the runner has written to it that the
service has not read. -/
structure ReportStream where
  event : Wire.PhaseEvent
  served : Served
  unread : Bytes

structure StreamRack where
  job : JobRun
  requests : List DispatchRequest
  runners : String → Runner
  streams : List ReportStream
  /-- All other connections. -/
  others : List Served

/-- What a read of a connection can yield, and what is left to be read.  It is
closed or reset at any point, and then the rest is lost. -/
inductive Yields : Bytes → ReadResult → Bytes → Prop where
  | chunk {bs rest : Bytes} : bs ≠ [] → Yields (bs ++ rest) (.chunk bs) rest
  | eof {unread : Bytes} : Yields unread (.chunk []) []
  | reset {unread : Bytes} : Yields unread .reset []

inductive StreamAction where
  | orchestrate (a : JobAction)
  | arrive (request : DispatchRequest) (startTsNs startMonoNs : ℤ)
  | loseRequest (request : DispatchRequest)
  | run (host : String) (i : ℕ) (a : PhaseAction)
  /-- `report_phase_event`: the connection is opened and the frame written. -/
  | report (host : String) (i : ℕ) (event : Wire.PhaseEvent) (env : Env)
  | readReport (event : Wire.PhaseEvent) (read : ReadResult)
  | accept (env : Env)
  | readOther (served : Served) (read : ReadResult)
  | other (store : TSDBStore)

section Steps

variable (job : Job) (config : String → Config) (codec : Wire.Codec)
  (serialize : Wire.PhaseEvent → Bytes)

/-- One step of a party, or one read of a connection. -/
inductive StreamStep : StreamRack → StreamAction → StreamRack → Prop where
  | orchestrate {s : StreamRack} {a : JobAction} {job' : JobRun} : FromOrchestrator a →
      JobStep job s.job a job' →
      StreamStep s (.orchestrate a) { s with job := job', requests := s.requests ++ posted a }
  | arrive {s : StreamRack} {before after : List DispatchRequest} {request : DispatchRequest}
      {startTsNs startMonoNs : ℤ} : s.requests = before ++ request :: after →
      StreamStep s (.arrive request startTsNs startMonoNs) { s with
        requests := before ++ after
        runners := Function.update s.runners request.host
          ((s.runners request.host).accept (config request.host) (startPhaseRequest request)
            startTsNs startMonoNs) }
  | loseRequest {s : StreamRack} {before after : List DispatchRequest}
      {request : DispatchRequest} : s.requests = before ++ request :: after →
      StreamStep s (.loseRequest request) { s with requests := before ++ after }
  | run {s : StreamRack} {host : String} {i : ℕ} {p p' : PhaseRun} {a : PhaseAction} :
      (s.runners host).phases[i]? = some p → a ≠ .report → PhaseMove (config host) p a p' →
      StreamStep s (.run host i a) { s with
        runners := Function.update s.runners host
          ⟨(s.runners host).phases.set i p', workersAfter i a (s.runners host).workers⟩ }
  | report {s : StreamRack} {host : String} {i : ℕ} {p p' : PhaseRun} {event : Wire.PhaseEvent}
      {env : Env} {frame : Bytes} : (s.runners host).phases[i]? = some p →
      PhaseMove (config host) p .report p' → p.phaseEvent (config host) = some event →
      phaseEventFrame (serialize event) = some frame → env.codec = codec →
      StreamStep s (.report host i event env) { s with
        runners := Function.update s.runners host
          ⟨(s.runners host).phases.set i p', workersAfter i .report (s.runners host).workers⟩
        streams := s.streams ++ [⟨event, ⟨env, connected env.peer⟩, frame⟩] }
  | readReport {s : StreamRack} {before after : List ReportStream} {r : ReportStream}
      {read : ReadResult} {rest : Bytes} : s.streams = before ++ r :: after →
      Yields r.unread read rest →
      StreamStep s (.readReport r.event read) { s with
        job := { s.job with
          store := (readStep r.served.env (r.served.connection, s.job.store) read).2 }
        streams := before ++ ⟨r.event, ⟨r.served.env,
          (readStep r.served.env (r.served.connection, s.job.store) read).1⟩, rest⟩ :: after }
  | accept {s : StreamRack} {env : Env} : env.codec = codec →
      StreamStep s (.accept env) { s with others := s.others ++ [⟨env, connected env.peer⟩] }
  | readOther {s : StreamRack} {before after : List Served} {c : Served} {read : ReadResult} :
      s.others = before ++ c :: after →
      -- nobody else knows the id of the job
      (∀ f ∈ (readStep c.env (c.connection, s.job.store) read).1.task.handled,
        ∀ row ∈ phaseRows c.env.codec f, row.jobId ≠ job.jobId) →
      StreamStep s (.readOther c read) { s with
        job := { s.job with store := (readStep c.env (c.connection, s.job.store) read).2 }
        others := before ++
          ⟨c.env, (readStep c.env (c.connection, s.job.store) read).1⟩ :: after }
  | other {s : StreamRack} {store : TSDBStore} : SameForJob job s.job.store store →
      StreamStep s (.other store) { s with job := { s.job with store := store } }

/-- No connection is open. -/
def StreamRack.start (store : TSDBStore) : StreamRack :=
  ⟨executeJob job store, [], fun _ => .start, [], []⟩

end Steps

/-! ### A stream that has not been read to its end -/

/-- What has been read of the stream and what has not make up the frame of its
report. -/
structure Carries (codec : Wire.Codec) (serialize : Wire.PhaseEvent → Bytes) (r : ReportStream) :
    Prop where
  parsed : codec.parsePhaseEvent (serialize r.event) = some r.event
  parser : r.served.env.codec = codec
  reading : r.unread ≠ [] → r.served.connection.task.status = .reading
  framed : r.unread ≠ [] →
    phaseEventFrame (serialize r.event) = some (r.served.connection.buffer ++ r.unread)

variable {job : Job} {config : String → Config} {codec : Wire.Codec}
  {serialize : Wire.PhaseEvent → Bytes}

/-- The frame of a report is complete or it is not, and it is never refused. -/
theorem verdict_report {payload buffer rest : Bytes}
    (h : phaseEventFrame payload = some (buffer ++ rest)) :
    verdict buffer = if rest = [] then .item ⟨Wire.frameTagPhaseEvent, payload⟩ buffer.length
      else .incomplete := by
  have hsized : Agent.Frame.Sized ⟨.kPhaseEvent, payload⟩ := by
    rw [phaseEventFrame, Option.ite_none_right_eq_some] at h
    exact h.1
  have hencode : Agent.Frame.encode ⟨.kPhaseEvent, payload⟩ = buffer ++ rest := by
    rw [phaseEventFrame_eq hsized] at h
    exact Option.some_inj.mp h
  split_ifs with hrest
  · have hitem := frameDecoder_encodes _ hsized []
    rw [hencode, hrest, List.append_nil, List.append_nil] at hitem
    exact hitem
  · exact frameDecoder_encodes.decode_strict_prefix hsized hencode hrest

/-- The handler stores the report. -/
theorem handleFrame_report {env : Env} {payload : Bytes} {event : Wire.PhaseEvent}
    (hparsed : env.codec.parsePhaseEvent payload = some event) (task : Task) (store : TSDBStore) :
    ∃ task', handleFrame env ⟨Wire.frameTagPhaseEvent, payload⟩ (task, store)
        = (task', store.insertPhaseEvent (phaseEventRow event)) ∧ task'.status = task.status := by
  have htag : Wire.frameTagPhaseEvent ≠ Wire.frameTagSampleBatch := by decide
  have hcall : handleFrame env ⟨Wire.frameTagPhaseEvent, payload⟩ (task, store)
      = endCall env.peer
          { task with events := task.events ++ [.handle ⟨Wire.frameTagPhaseEvent, payload⟩] } store
          (.ok (store.insertPhaseEvent (phaseEventRow event),
            [{ level := .info, message := "phase_event_ingested", nodeId := some event.nodeId,
               jobId := some event.jobId }])) := by
    rw [handleFrame]
    simp only [if_neg htag, if_true, handlePhaseEvent, hparsed]
  exact ⟨_, hcall, rfl⟩

/-- What a chunk does: it completes the report, or it is kept. -/
theorem readStep_report {r : ReportStream} {bs rest : Bytes} (h : Carries codec serialize r)
    (hbs : bs ≠ []) (hunread : r.unread = bs ++ rest) (store : TSDBStore) :
    ∃ connection, readStep r.served.env (r.served.connection, store) (.chunk bs)
        = (connection, if rest = [] then store.insertPhaseEvent (phaseEventRow r.event)
          else store) ∧
      Carries codec serialize ⟨r.event, ⟨r.served.env, connection⟩, rest⟩ := by
  have hne : r.unread ≠ [] := by
    rw [hunread]
    exact List.append_ne_nil_of_left_ne_nil hbs _
  have hreading := h.reading hne
  have hframed := h.framed hne
  rw [hunread, ← List.append_assoc] at hframed
  rw [readStep_chunk hreading hbs, drainFrames_eq, verdict_report hframed]
  by_cases hrest : rest = []
  · subst hrest
    obtain ⟨task', hhandle, hstatus⟩ := handleFrame_report (h.parser ▸ h.parsed)
      r.served.connection.task store
    simp only [if_true, hhandle, hstatus, hreading, List.drop_length]
    rw [drainFrames_eq]
    exact ⟨_, rfl, h.parsed, h.parser, fun hc => absurd rfl hc, fun hc => absurd rfl hc⟩
  · simp only [if_neg hrest]
    exact ⟨_, rfl, h.parsed, h.parser, fun _ => hreading, fun _ => hframed⟩

/-- The end of a stream is none of the store's business. -/
theorem readStep_eof (env : Env) (s : Connection × TSDBStore) :
    (readStep env s (.chunk [])).2 = s.2 := by
  by_cases hreading : s.1.task.status = .reading
  · rw [readStep, if_pos hreading]
    rfl
  · rw [readStep_of_ended hreading]

theorem readStep_reset (env : Env) (s : Connection × TSDBStore) :
    (readStep env s .reset).2 = s.2 := by
  rw [readStep]
  split_ifs <;> rfl

/-- A stream that has ended carries no more. -/
theorem Carries.ended {r : ReportStream} (h : Carries codec serialize r) (connection : Connection) :
    Carries codec serialize ⟨r.event, ⟨r.served.env, connection⟩, []⟩ :=
  ⟨h.parsed, h.parser, fun hc => absurd rfl hc, fun hc => absurd rfl hc⟩

/-! ### The refinement -/

/-- The reports that may still arrive. -/
def underway (streams : List ReportStream) : List Wire.PhaseEvent :=
  streams.filterMap fun r => if r.unread = [] then none else some r.event

/-- The rack, with messages for its streams. -/
def StreamRack.messages (s : StreamRack) : Rack :=
  ⟨s.job, s.requests, s.runners, underway s.streams⟩

theorem underway_append (before after : List ReportStream) :
    underway (before ++ after) = underway before ++ underway after := List.filterMap_append

theorem underway_cons (r : ReportStream) (streams : List ReportStream) :
    underway (r :: streams)
      = (if r.unread = [] then [] else [r.event]) ++ underway streams := by
  rw [underway, List.filterMap_cons]
  by_cases h : r.unread = []
  · rw [if_pos h, if_pos h]
    rfl
  · rw [if_neg h, if_neg h]
    rfl

/-- The bytes of a report that is written are read back as that report. -/
def Serialized (codec : Wire.Codec) (serialize : Wire.PhaseEvent → Bytes) : StreamAction → Prop
  | .report _ _ event _ => codec.parsePhaseEvent (serialize event) = some event
  | _ => True

/-- The connections of the service: those of reports carry them, and all use the
same parser. -/
structure Streaming (codec : Wire.Codec) (serialize : Wire.PhaseEvent → Bytes) (s : StreamRack) :
    Prop where
  streams : ∀ r ∈ s.streams, Carries codec serialize r
  others : ∀ c ∈ s.others, c.env.codec = codec

theorem streaming_start (store : TSDBStore) :
    Streaming codec serialize (StreamRack.start job store) where
  streams := fun _ hr => absurd hr List.not_mem_nil
  others := fun _ hc => absurd hc List.not_mem_nil

/-- A connection that carries nothing of the job leaves the job alone. -/
theorem sameForJob_readStep {env : Env} {c : Connection} {store : TSDBStore} {read : ReadResult}
    (h : ∀ f ∈ (readStep env (c, store) read).1.task.handled, ∀ row ∈ phaseRows env.codec f,
      row.jobId ≠ job.jobId) : SameForJob job store (readStep env (c, store) read).2 := by
  obtain ⟨c', srows, new, heffect, hhandled, _⟩ := readStep_effect env c read
  rw [heffect store] at h ⊢
  simp only [hhandled, List.mem_append] at h
  let ofJob : PhaseKey → Bool := fun k => k.1 = job.jobId
  have hhidden : ∀ row ∈ new.flatMap (phaseRows env.codec), ofJob row.key = false := by
    intro row hrow
    obtain ⟨f, hf, hrow⟩ := List.mem_flatMap.mp hrow
    exact decide_eq_false (h f (.inr hf) row hrow)
  refine ⟨?rows, rfl⟩
  case rows =>
    exact KeyedTable.restrict_insertAll_of_not (t := store.phaseEvents) (p := ofJob) hhidden

/-- A stream that ends before its report has been read loses it. -/
theorem messages_ended {s : StreamRack} {before after : List ReportStream} {r : ReportStream}
    (hr : s.streams = before ++ r :: after) (served : Served) :
    let s' : StreamRack := { s with streams := before ++ ⟨r.event, served, []⟩ :: after }
    s'.messages = s.messages ∨ ∃ b, RackStep job config s.messages b s'.messages := by
  intro s'
  have hs' : s'.messages = { s.messages with reports := underway before ++ underway after } := by
    simp only [s', StreamRack.messages, underway_append, underway_cons, if_true, List.nil_append]
  by_cases hunread : r.unread = []
  · refine .inl ?_
    rw [hs', StreamRack.messages, hr, underway_append, underway_cons, if_pos hunread,
      List.nil_append]
  · refine .inr ⟨.loseReport r.event, ?_⟩
    rw [hs']
    refine .loseReport ?_
    rw [StreamRack.messages, hr, underway_append, underway_cons, if_neg hunread]
    rfl

/-- A step of the streams is a step of the messages, or none. -/
theorem streams_step {s s' : StreamRack} {a : StreamAction} (h : Streaming codec serialize s)
    (hserialized : Serialized codec serialize a)
    (hstep : StreamStep job config codec serialize s a s') :
    Streaming codec serialize s' ∧
      (s'.messages = s.messages ∨ ∃ b, RackStep job config s.messages b s'.messages) := by
  cases hstep with
  | orchestrate hfrom hstep =>
    exact ⟨⟨h.streams, h.others⟩, .inr ⟨_, .orchestrate hfrom hstep⟩⟩
  | arrive hr => exact ⟨⟨h.streams, h.others⟩, .inr ⟨_, .arrive hr⟩⟩
  | loseRequest hr => exact ⟨⟨h.streams, h.others⟩, .inr ⟨_, .loseRequest hr⟩⟩
  | @run host i p p' a hp ha hmove =>
    refine ⟨⟨h.streams, h.others⟩, .inr ⟨.run host i a, ?_⟩⟩
    have hsent : sent (config host) p a = [] := by
      cases a with
      | report => exact absurd rfl ha
      | _ => rfl
    have hrun := @RackStep.run job config s.messages host i p p' a hp hmove
    rw [hsent, List.append_nil] at hrun
    exact hrun
  | @report host i p p' event env frame hp hmove hevent hframe hparser =>
    have hne : frame ≠ [] := by
      rw [phaseEventFrame, Option.ite_none_right_eq_some, Option.some_inj] at hframe
      rw [← hframe.2]
      exact List.cons_ne_nil _ _
    refine ⟨⟨fun r hr => ?_, h.others⟩, .inr ⟨.run host i .report, ?_⟩⟩
    · rcases List.mem_append.mp hr with hr | hr
      · exact h.streams r hr
      · rw [List.mem_singleton.mp hr]
        exact ⟨hserialized, hparser, fun _ => rfl, fun _ => hframe⟩
    · have hrun := @RackStep.run job config s.messages host i p p' .report hp hmove
      simp only [sent, hevent, Option.toList_some] at hrun
      simp only [StreamRack.messages, underway_append, underway_cons, if_neg hne]
      exact hrun
  | @readReport before after r read rest hr hyields =>
    have hcarries := h.streams r (hr ▸ List.mem_append_right _ List.mem_cons_self)
    have hstreams : ∀ r', Carries codec serialize r' → ∀ x ∈ before ++ r' :: after,
        Carries codec serialize x := by
      intro r' hr' x hx
      rcases List.mem_append.mp hx with hx | hx
      · exact h.streams x (hr ▸ List.mem_append_left _ hx)
      · rcases List.mem_cons.mp hx with rfl | hx
        · exact hr'
        · exact h.streams x (hr ▸ List.mem_append_right _ (List.mem_cons_of_mem _ hx))
    generalize hunread : r.unread = unread at hyields
    cases hyields with
    | @chunk bs rest hbs =>
      obtain ⟨connection, hread, hcarries'⟩ := readStep_report hcarries hbs hunread s.job.store
      have hne : r.unread ≠ [] := by
        rw [hunread]
        exact List.append_ne_nil_of_left_ne_nil hbs _
      have hreports : s.messages.reports = underway before ++ r.event :: underway after := by
        rw [StreamRack.messages, hr, underway_append, underway_cons, if_neg hne]
        rfl
      rw [hread]
      refine ⟨⟨hstreams _ hcarries', h.others⟩, ?_⟩
      by_cases hrest : rest = []
      · -- the report is complete
        refine .inr ⟨.ingest r.event, ?_⟩
        have hingest := @RackStep.ingest job config _ _ _ _ hreports
        simp only [StreamRack.messages, underway_append, underway_cons, hrest, if_true,
          List.nil_append]
        exact hingest
      · refine .inl ?_
        simp only [StreamRack.messages, underway_append, underway_cons, if_neg hrest, hr,
          if_neg hne]
    | eof =>
      rw [readStep_eof]
      exact ⟨⟨hstreams _ (hcarries.ended _), h.others⟩, messages_ended hr _⟩
    | reset =>
      rw [readStep_reset]
      exact ⟨⟨hstreams _ (hcarries.ended _), h.others⟩, messages_ended hr _⟩
  | @accept env hparser =>
    refine ⟨⟨h.streams, fun c hc => ?_⟩, .inl rfl⟩
    rcases List.mem_append.mp hc with hc | hc
    · exact h.others c hc
    · rw [List.mem_singleton.mp hc]
      exact hparser
  | @readOther before after c read hc hhidden =>
    refine ⟨⟨h.streams, fun x hx => ?_⟩, .inr ⟨_, .other (sameForJob_readStep hhidden)⟩⟩
    have hsame : ∀ y ∈ before ++ c :: after, y.env.codec = codec := hc ▸ h.others
    rcases List.mem_append.mp hx with hx | hx
    · exact hsame x (List.mem_append_left _ hx)
    · rcases List.mem_cons.mp hx with rfl | hx
      · exact hsame c (List.mem_append_right _ List.mem_cons_self)
      · exact hsame x (List.mem_append_right _ (List.mem_cons_of_mem _ hx))
  | other hsame => exact ⟨⟨h.streams, h.others⟩, .inr ⟨_, .other hsame⟩⟩

/-- The rack with streams refines the rack with messages: whatever the chunks,
the order of the reads and the ends of the connections, a report is stored once
its last byte has been read, and otherwise it is lost. -/
theorem streams_refine {store : TSDBStore} {tr : List (StreamRack × StreamAction)}
    {s : StreamRack}
    (hrun : Run (StreamStep job config codec serialize) (StreamRack.start job store) tr s)
    (hserialized : ∀ q ∈ tr, Serialized codec serialize q.2) :
    Reachable (RackStep job config) (Rack.start job store) s.messages :=
  (Run.simulates (f := StreamRack.messages) (streaming_start store)
    (fun _ _ _ h hs hstep => streams_step h hs hstep) hrun hserialized).2

/-! ### A report in two chunks -/

def twoPhases : Job := { jobId := "j", workloadHosts := ["h"], phaseCount := 2 }

def twoPhasesStore : TSDBStore :=
  { TSDBStore.empty with
    jobs := TSDBStore.empty.jobs.insertIgnore ⟨"j", 2, ["h"], none, .running, 0⟩ }

/-- The post of the first phase, and its report. -/
def phasePost : DispatchRequest := ⟨"h", "j", 0, none, none⟩

def phaseReport : Wire.PhaseEvent := ⟨"j", "node-unknown", 0, 10, 1, 20, 2, "ok"⟩

/-- The report, as protobuf writes it. -/
def reportBytes : Bytes :=
  [0x0a, 1, 0x6a, 0x12, 12, 0x6e, 0x6f, 0x64, 0x65, 0x2d, 0x75, 0x6e, 0x6b, 0x6e, 0x6f, 0x77, 0x6e,
    0x20, 10, 0x28, 1, 0x30, 20, 0x38, 2, 0x42, 2, 0x6f, 0x6b]

def reportCodec : Wire.Codec where
  parseSampleBatch := fun _ => none
  parsePhaseEvent := fun bs => if bs = reportBytes then some phaseReport else none

def reportEnv : Env := ⟨reportCodec, fun _ => ⟨0, 0⟩, "h"⟩

theorem streams_refine_example : ∃ s : StreamRack, s.streams.map ReportStream.unread = [[]] ∧
    Reachable (RackStep twoPhases fun _ => {}) (Rack.start twoPhases twoPhasesStore)
      s.messages := by
  have hstart : Run (StreamStep twoPhases (fun _ => {}) reportCodec fun _ => reportBytes)
    (StreamRack.start twoPhases twoPhasesStore) [] _ := .nil
  have harrived := (hstart.snoc
    (@StreamStep.orchestrate _ _ _ _ _ (.dispatch phasePost) _ trivial
      (@JobStep.dispatch _ _ [] [] phasePost rfl))).snoc
    (@StreamStep.arrive _ _ _ _ _ [] [] phasePost 10 1 rfl)
  have hworked := (((harrived.snoc
    (@StreamStep.run _ _ _ _ _ "h" 0 _ _ .yields rfl (fun hc => (by cases hc))
      (.yields rfl rfl))).snoc
    (@StreamStep.run _ _ _ _ _ "h" 0 _ _ (.worked false) rfl (fun hc => (by cases hc))
      (@PhaseMove.worked _ _ false rfl))).snoc
    (@StreamStep.run _ _ _ _ _ "h" 0 _ _ .stop rfl (fun hc => (by cases hc))
      (@PhaseMove.stop _ _ false rfl))).snoc
    (@StreamStep.run _ _ _ _ _ "h" 0 _ _ (.clock 20 2) rfl (fun hc => (by cases hc))
      (@PhaseMove.clock _ _ .ok 20 2 rfl))
  have hreported := hworked.snoc
    (@StreamStep.report _ _ _ _ _ "h" 0 _ _ phaseReport reportEnv
      ([2, 0, 0] ++ ([0, 29] ++ reportBytes)) rfl (@PhaseMove.report _ _ .ok 20 2 rfl rfl) rfl
      (by decide) rfl)
  have hread := (hreported.snoc
    (@StreamStep.readReport _ _ _ _ _ [] [] _ _ _ rfl
      (@Yields.chunk [2, 0, 0] ([0, 29] ++ reportBytes) (by decide)))).snoc
    (@StreamStep.readReport _ _ _ _ _ [] [] _ _ _ rfl
      (@Yields.chunk ([0, 29] ++ reportBytes) [] (by decide)))
  exact ⟨_, rfl, streams_refine hread (by simp [Serialized, reportCodec])⟩

end Fleet
