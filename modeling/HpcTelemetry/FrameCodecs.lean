/-
The codecs of the wire format (`agent/src/framing.cpp`, `hpctel/framing.py`,
`workloadrunner/reporter.py`).

The agent and the ingestion service each have a decoder, the agent and the
workload runner each have an encoder, and none of the four knows of the
others.

* `Agent.decodeFrame`, `Workload.phaseEventFrame` — the other decoder and the
  other encoder;
* `Agent.decodeFrame_eq_some` — the two decoders find the same frames;
* `Agent.encode_of_decodeFrame` — a frame that was found is written back as the
  bytes it was found in;
* `Agent.codecs_agree` — all four speak one format.
-/
import HpcTelemetry.Framing

open BigEndian

namespace Agent

/-! ### The agent's decoder -/

/-- `kHeaderLength`. -/
def kHeaderLength : ℕ := 5

/-- `static_cast<FrameTag>(raw_tag)`, if `raw_tag` is one of the enumerators. -/
def FrameTag.ofByte (rawTag : UInt8) : Option FrameTag :=
  if rawTag = FrameTag.kSampleBatch.toByte then some .kSampleBatch
  else if rawTag = FrameTag.kPhaseEvent.toByte then some .kPhaseEvent
  else none

/-- `buffer.substr(pos, count)`. -/
def substr (buffer : Bytes) (pos count : ℕ) : Bytes := (buffer.drop pos).take count

/-- `DecodeFrame`, with `*consumed` as second component; its `DecodedFrame` has
the fields of a `Frame`.  `memcpy` and `ntohl` together read a big-endian
number on every host; the sum is one of 64-bit `size_t`s. -/
def decodeFrame (buffer : Bytes) : Option Frame × ℕ :=
  if buffer.length < kHeaderLength then (none, 0)
  else
    match FrameTag.ofByte (buffer.headD 0) with
    | none => (none, 0)
    | some tag =>
      let length := fromBytesBig (substr buffer 1 4)
      if buffer.length < (kHeaderLength + length) % 2 ^ 64 then (none, 0)
      else (some ⟨tag, substr buffer kHeaderLength length⟩, (kHeaderLength + length) % 2 ^ 64)

theorem FrameTag.ofByte_eq_some {rawTag : UInt8} {tag : FrameTag} :
    FrameTag.ofByte rawTag = some tag ↔ tag.toByte = rawTag := by
  rw [ofByte]
  constructor
  · intro h
    split_ifs at h with h₁ h₂
    · rw [← Option.some.inj h, h₁]
    · rw [← Option.some.inj h, h₂]
  · rintro rfl
    cases tag
    · rfl
    · rfl

theorem FrameTag.ofByte_eq_none {rawTag : UInt8} :
    FrameTag.ofByte rawTag = none ↔ rawTag ∉ Ingest.knownTags := by
  rw [Option.eq_none_iff_forall_not_mem]
  constructor
  · intro h hmem
    rcases List.mem_cons.mp hmem with rfl | hmem
    · exact h .kSampleBatch rfl
    · rw [List.mem_singleton] at hmem
      exact h .kPhaseEvent (hmem ▸ rfl)
  · intro h tag htag
    exact h (FrameTag.ofByte_eq_some.mp htag ▸ Ingest.toByte_mem_knownTags tag)

/-- Everything `DecodeFrame` can answer, by the bytes it looked at. -/
theorem decodeFrame_cons (rawTag : UInt8) (bs : Bytes) :
    decodeFrame (rawTag :: bs) =
      if bs.length < 4 then (none, 0)
      else
        match FrameTag.ofByte rawTag with
        | none => (none, 0)
        | some tag =>
          if bs.length < 4 + fromBytesBig (bs.take 4) then (none, 0)
          else (some ⟨tag, (bs.drop 4).take (fromBytesBig (bs.take 4))⟩,
            5 + fromBytesBig (bs.take 4)) := by
  have hfield : substr (rawTag :: bs) 1 4 = bs.take 4 := rfl
  have hbody : ∀ n, substr (rawTag :: bs) kHeaderLength n = (bs.drop 4).take n := fun n => rfl
  -- a 32-bit length cannot make the sum wrap around
  have hwrap : (kHeaderLength + fromBytesBig (bs.take 4)) % 2 ^ 64
      = 5 + fromBytesBig (bs.take 4) := by
    have hlt := fromBytesBig_lt (bs.take 4)
    have hpow : 256 ^ (bs.take 4).length ≤ 256 ^ 4 :=
      Nat.pow_le_pow_right (by omega) (List.length_take_le 4 bs)
    rw [kHeaderLength]
    omega
  rw [decodeFrame, hfield, List.headD_cons, List.length_cons]
  simp only [hwrap, hbody]
  by_cases h4 : bs.length < 4
  · have h5 : bs.length + 1 < kHeaderLength := by
      rw [kHeaderLength]
      omega
    rw [if_pos h4, if_pos h5]
  · have h5 : ¬ bs.length + 1 < kHeaderLength := by
      rw [kHeaderLength]
      omega
    rw [if_neg h4, if_neg h5]
    cases FrameTag.ofByte rawTag with
    | none => rfl
    | some tag =>
      simp only
      by_cases hn : bs.length < 4 + fromBytesBig (bs.take 4)
      · rw [if_pos hn, if_pos (by omega)]
      · rw [if_neg hn, if_neg (by omega)]

/-- `DecodeFrame` finds the frames that `decode_frame` finds. -/
theorem decodeFrame_eq_some {buffer : Bytes} {frame : Frame} {n : ℕ} :
    decodeFrame buffer = (some frame, n)
      ↔ Ingest.verdict buffer = .item (Ingest.received frame) n := by
  cases buffer with
  | nil =>
    constructor
    · intro h
      cases h
    · intro h
      cases h
  | cons rawTag bs =>
    rw [decodeFrame_cons, Ingest.verdict_cons]
    by_cases h4 : bs.length < 4
    · rw [if_pos h4, if_pos h4]
      split_ifs <;> simp
    rw [if_neg h4, if_neg h4]
    cases htag : FrameTag.ofByte rawTag with
    | none =>
      rw [if_pos (FrameTag.ofByte_eq_none.mp htag)]
      simp
    | some tag =>
      have hbyte := FrameTag.ofByte_eq_some.mp htag
      rw [if_neg (not_not.mpr (hbyte ▸ Ingest.toByte_mem_knownTags tag))]
      simp only
      split_ifs with hn
      · simp
      · have htags : tag = frame.tag ↔ rawTag = frame.tag.toByte := by
          constructor
          · rintro rfl
            exact hbyte.symm
          · intro h
            have hof := FrameTag.ofByte_eq_some.mpr h.symm
            rw [htag] at hof
            exact Option.some.inj hof
        rw [Prod.mk.injEq, Option.some_inj, Verdict.item.injEq, Ingest.received,
          Ingest.DecodedFrame.mk.injEq, ← htags]
        refine and_congr ?_ Iff.rfl
        cases frame
        rw [Frame.mk.injEq]

/-- Without a frame nothing is consumed. -/
theorem decodeFrame_eq_none {buffer : Bytes} (h : (decodeFrame buffer).1 = none) :
    decodeFrame buffer = (none, 0) := by
  rw [decodeFrame] at h ⊢
  split_ifs at h ⊢ with h5
  · rfl
  · cases htag : FrameTag.ofByte (buffer.headD 0) with
    | none => rfl
    | some tag =>
      rw [htag] at h
      simp only at h ⊢
      split_ifs at h ⊢
      rfl

end Agent

/-! ### The service's decoder -/

namespace Ingest

theorem decodeFrame_eq_some {buffer : Bytes} {f : DecodedFrame} {n : ℕ} :
    decodeFrame buffer = .ok (some f, n) ↔ verdict buffer = .item f n := by
  rw [verdict]
  rcases decodeFrame buffer with e | ⟨_ | g, m⟩
  · simp
  · simp
  · simp

theorem decodeFrame_of_incomplete {buffer : Bytes} (h : verdict buffer = .incomplete) :
    decodeFrame buffer = .ok (none, 0) := by
  cases buffer with
  | nil => rfl
  | cons tag bs =>
    rw [verdict, decodeFrame] at h
    rw [decodeFrame]
    split_ifs at h ⊢ with htag h5
    · rfl
    · simp only at h ⊢
      split_ifs at h ⊢
      rfl

/-- A frame that `decode_frame` finds is one the agent can write, and it is
found in the bytes the agent would write. -/
theorem encode_of_verdict {buffer : Bytes} {f : DecodedFrame} {n : ℕ}
    (h : verdict buffer = .item f n) :
    ∃ frame, received frame = f ∧ frame.encode = buffer.take n ∧ n ≤ buffer.length := by
  have hle := frameDecoder.item_le h
  cases buffer with
  | nil => cases h
  | cons rawTag bs =>
    rw [verdict_cons] at h
    split_ifs at h with htag h4 hn
    injection h with hf hlen
    obtain ⟨tag, hof⟩ := Option.ne_none_iff_exists'.mp fun hnone =>
      Agent.FrameTag.ofByte_eq_none.mp hnone htag
    have hbyte := Agent.FrameTag.ofByte_eq_some.mp hof
    have hfield : (bs.take 4).length = 4 := List.length_take_of_le (by omega)
    have hpayload : ((bs.drop 4).take (fromBytesBig (bs.take 4))).length
        = fromBytesBig (bs.take 4) := by
      rw [List.length_take_of_le]
      rw [List.length_drop]
      omega
    -- the length field is the one that is written for the payload found
    have hwritten : toBytesBig 4 (fromBytesBig (bs.take 4) % 2 ^ 32) = bs.take 4 := by
      have hlt := fromBytesBig_lt (bs.take 4)
      rw [hfield] at hlt
      have hback := toBytesBig_fromBytesBig (bs.take 4)
      rw [hfield] at hback
      rw [Nat.mod_eq_of_lt (by omega), hback]
    refine ⟨⟨tag, (bs.drop 4).take (fromBytesBig (bs.take 4))⟩, ?_, ?_, hle⟩
    · rw [received, hbyte]
      exact hf
    · rw [Agent.Frame.encode, Agent.encodeFrame, hpayload, hwritten, hbyte, ← hlen,
        show 5 + fromBytesBig (bs.take 4) = (4 + fromBytesBig (bs.take 4)) + 1 by omega,
        List.take_succ_cons, List.take_add]

end Ingest

/-! ### The runner's encoder -/

namespace Workload

/-- `_FRAME_TAG_PHASE_EVENT`. -/
def frameTagPhaseEvent : UInt8 := 0x02

/-- The `frame` of `report_phase_event`; `none` is the `OverflowError` of
`to_bytes`. -/
def phaseEventFrame (payload : Bytes) : Option Bytes :=
  if payload.length < 2 ^ 32 then
    some ([frameTagPhaseEvent] ++ toBytesBig 4 payload.length ++ payload)
  else none

/-- It is the frame the agent would write. -/
theorem phaseEventFrame_eq {payload : Bytes} (h : payload.length < 2 ^ 32) :
    phaseEventFrame payload = some (Agent.encodeFrame .kPhaseEvent payload) := by
  rw [phaseEventFrame, if_pos h, Agent.encodeFrame, Nat.mod_eq_of_lt h]
  rfl

end Workload

/-! ### One format -/

namespace Agent

/-- The two decoders and the two encoders speak the same format. -/
structure OneFormat : Prop where
  /-- The decoders find the same frames. -/
  found : ∀ buffer f n, Ingest.decodeFrame buffer = .ok (some f, n)
    ↔ ∃ frame, decodeFrame buffer = (some frame, n) ∧ Ingest.received frame = f
  /-- Where the service finds none, or refuses, the agent finds none. -/
  notFound : ∀ buffer, Ingest.decodeFrame buffer = .error .mk ∨
    Ingest.decodeFrame buffer = .ok (none, 0) → decodeFrame buffer = (none, 0)
  /-- Both read back what the agent writes, whatever follows. -/
  readBack : ∀ frame rest, Frame.Sized frame →
    decodeFrame (frame.encode ++ rest) = (some frame, 5 + frame.payload.length) ∧
    Ingest.decodeFrame (frame.encode ++ rest)
      = .ok (some (Ingest.received frame), 5 + frame.payload.length)
  /-- The runner writes what the agent would. -/
  reported : ∀ payload : Bytes, payload.length < 2 ^ 32 →
    Workload.phaseEventFrame payload = some (Frame.encode ⟨.kPhaseEvent, payload⟩)
  /-- A part of a frame is an incomplete frame to both, and never refused. -/
  part : ∀ frame p q, Frame.Sized frame → frame.encode = p ++ q → q ≠ [] →
    decodeFrame p = (none, 0) ∧ Ingest.decodeFrame p = .ok (none, 0)
  /-- A frame the agent finds is written back as it came. -/
  writeBack : ∀ buffer frame n, decodeFrame buffer = (some frame, n) →
    n ≤ buffer.length ∧ frame.encode = buffer.take n
  /-- So is a frame the service finds. -/
  writeBackReceived : ∀ buffer f n, Ingest.decodeFrame buffer = .ok (some f, n) →
    n ≤ buffer.length ∧ ∃ tag, FrameTag.toByte tag = f.tag ∧
      encodeFrame tag f.payload = buffer.take n

theorem found_iff (buffer : Bytes) (f : Ingest.DecodedFrame) (n : ℕ) :
    Ingest.decodeFrame buffer = .ok (some f, n)
      ↔ ∃ frame, decodeFrame buffer = (some frame, n) ∧ Ingest.received frame = f := by
  rw [Ingest.decodeFrame_eq_some]
  constructor
  · intro h
    obtain ⟨frame, rfl, _⟩ := Ingest.encode_of_verdict h
    exact ⟨frame, decodeFrame_eq_some.mpr h, rfl⟩
  · rintro ⟨frame, h, rfl⟩
    exact decodeFrame_eq_some.mp h

/-- Where the service finds no frame, the agent finds none. -/
theorem not_found {buffer : Bytes} (h : ∀ f n, Ingest.decodeFrame buffer ≠ .ok (some f, n)) :
    decodeFrame buffer = (none, 0) := by
  refine decodeFrame_eq_none ?_
  cases hd : (decodeFrame buffer).1 with
  | none => rfl
  | some frame => exact absurd ((found_iff buffer _ _).mpr ⟨frame, Prod.ext hd rfl, rfl⟩) (h _ _)

theorem received_injective {frame frame' : Frame}
    (h : Ingest.received frame = Ingest.received frame') : frame = frame' := by
  cases frame with
  | mk tag payload =>
    cases frame' with
    | mk tag' payload' =>
      injection h with htag hpayload
      have hof : FrameTag.ofByte tag'.toByte = some tag := FrameTag.ofByte_eq_some.mpr htag
      rw [FrameTag.ofByte_eq_some.mpr rfl] at hof
      rw [Frame.mk.injEq]
      exact ⟨(Option.some.inj hof).symm, hpayload⟩

theorem verdict_encode {frame : Frame} (h : frame.Sized) (rest : Bytes) :
    Ingest.verdict (frame.encode ++ rest)
      = .item (Ingest.received frame) (5 + frame.payload.length) := by
  have hitem := Ingest.frameDecoder_encodes frame h rest
  rw [Ingest.frameDecoder_decode] at hitem
  rw [hitem, Frame.encode, encodeFrame, List.length_cons, List.length_append, length_toBytesBig]
  congr 1
  omega

/-- The agent, the service and the runner agree on the format: what one writes
the others read, and what is read is what was written. -/
theorem codecs_agree : OneFormat where
  found := found_iff
  notFound := by
    intro buffer h
    refine not_found fun f n hfound => ?_
    rcases h with h | h
    · rw [h] at hfound
      cases hfound
    · rw [h] at hfound
      cases hfound
  readBack := by
    intro frame rest h
    have hitem := verdict_encode h rest
    exact ⟨decodeFrame_eq_some.mpr hitem, Ingest.decodeFrame_eq_some.mpr hitem⟩
  reported := fun payload h => Workload.phaseEventFrame_eq h
  part := by
    intro frame p q h hpq hq
    have hinc : Ingest.verdict p = .incomplete :=
      Ingest.frameDecoder_encodes.decode_strict_prefix h hpq hq
    have hnone := Ingest.decodeFrame_of_incomplete hinc
    refine ⟨not_found fun f n hfound => ?_, hnone⟩
    rw [hnone] at hfound
    cases hfound
  writeBack := by
    intro buffer frame n h
    obtain ⟨frame', hf, hencode, hle⟩ := Ingest.encode_of_verdict (decodeFrame_eq_some.mp h)
    rw [← received_injective hf]
    exact ⟨hle, hencode⟩
  writeBackReceived := by
    intro buffer f n h
    obtain ⟨frame, rfl, hencode, hle⟩ :=
      Ingest.encode_of_verdict (Ingest.decodeFrame_eq_some.mp h)
    exact ⟨hle, frame.tag, rfl, hencode⟩

end Agent
