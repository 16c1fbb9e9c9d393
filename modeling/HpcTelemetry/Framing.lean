/-
Wire framing (`agent/src/framing.cpp`, `hpctel/framing.py`).

A frame is a one-byte tag, a four-byte big-endian payload length and the
payload.  The agent writes frames with `EncodeFrame`; the ingestion service
reads them with `decode_frame`, which is asked again as its buffer grows.

* `Ingest.frameDecoder` — `decode_frame` is a stream decoder: its verdict on a
  buffer is final, whatever bytes follow;
* `Ingest.frameDecoder_encodes` — it inverts the agent's encoder on every
  payload the length field can describe;
* `Ingest.verdict_cons_invalid_iff` — it refuses exactly the buffers that begin
  with a byte that is no tag.
-/
import HpcTelemetry.BigEndian
import HpcTelemetry.StreamDecoder
import HpcTelemetry.Wire

open BigEndian

namespace Agent

/-- `enum class FrameTag`. -/
inductive FrameTag where
  | kSampleBatch
  | kPhaseEvent
  deriving DecidableEq

/-- `static_cast<uint8_t>(tag)`. -/
def FrameTag.toByte : FrameTag → UInt8
  | .kSampleBatch => 0x01
  | .kPhaseEvent => 0x02

/-- A frame to be sent: a tag and a serialised message. -/
structure Frame where
  tag : FrameTag
  payload : Bytes
  deriving DecidableEq

/-- `EncodeFrame`.  The length is cast to `uint32_t` before it is written. -/
def encodeFrame (tag : FrameTag) (payload : Bytes) : Bytes :=
  tag.toByte :: (toBytesBig 4 (payload.length % 2 ^ 32) ++ payload)

/-- The bytes of one frame. -/
def Frame.encode (f : Frame) : Bytes := encodeFrame f.tag f.payload

/-- The payloads the length field can describe. -/
def Frame.Sized (f : Frame) : Prop := f.payload.length < 2 ^ 32

instance (f : Frame) : Decidable f.Sized := inferInstanceAs (Decidable (_ < _))

theorem Frame.encode_ne_nil (f : Frame) : f.encode ≠ [] := List.cons_ne_nil _ _

end Agent

namespace Ingest

open Wire

/-- `FRAME_HEADER_LENGTH`. -/
def frameHeaderLength : ℕ := 5

/-- `_KNOWN_TAGS`. -/
def knownTags : List UInt8 := [frameTagSampleBatch, frameTagPhaseEvent]

/-- `DecodedFrame`. -/
structure DecodedFrame where
  tag : UInt8
  payload : Bytes
  deriving DecidableEq

/-- `UnknownFrameTagError`. -/
inductive UnknownFrameTagError where
  | mk
  deriving DecidableEq

/-- The Python slice `buffer[i:j]`. -/
def slice (buffer : Bytes) (i j : ℕ) : Bytes := (buffer.take j).drop i

/-- `decode_frame`. -/
def decodeFrame (buffer : Bytes) : Except UnknownFrameTagError (Option DecodedFrame × ℕ) :=
  match buffer with
  | [] => .ok (none, 0)
  | tag :: _ =>
    if tag ∉ knownTags then .error .mk
    else if buffer.length < frameHeaderLength then .ok (none, 0)
    else
      let length := fromBytesBig (slice buffer 1 frameHeaderLength)
      let total := frameHeaderLength + length
      if buffer.length < total then .ok (none, 0)
      else .ok (some ⟨tag, slice buffer frameHeaderLength total⟩, total)

/-- The outcome of `decode_frame` as a verdict on the buffer. -/
def verdict (buffer : Bytes) : Verdict DecodedFrame :=
  match decodeFrame buffer with
  | .error _ => .invalid
  | .ok (none, _) => .incomplete
  | .ok (some frame, consumed) => .item frame consumed

/-- The frame the receiver hands on for a frame that was sent. -/
def received (f : Agent.Frame) : DecodedFrame := ⟨f.tag.toByte, f.payload⟩

theorem toByte_mem_knownTags (tag : Agent.FrameTag) : tag.toByte ∈ knownTags := by
  cases tag <;> decide

/-! ### `decode_frame` as a stream decoder -/

/-- Everything `decode_frame` can answer, by the bytes it looked at. -/
theorem verdict_cons (tag : UInt8) (bs : Bytes) :
    verdict (tag :: bs) =
      if tag ∉ knownTags then .invalid
      else if bs.length < 4 then .incomplete
      else if bs.length < 4 + fromBytesBig (bs.take 4) then .incomplete
      else .item ⟨tag, (bs.drop 4).take (fromBytesBig (bs.take 4))⟩
        (5 + fromBytesBig (bs.take 4)) := by
  have hhead : slice (tag :: bs) 1 frameHeaderLength = bs.take 4 := rfl
  have hbody : ∀ n, slice (tag :: bs) frameHeaderLength (frameHeaderLength + n)
      = (bs.drop 4).take n := by
    intro n
    rw [slice, frameHeaderLength, show 5 + n = (4 + n) + 1 by omega, List.take_succ_cons,
      List.drop_succ_cons, List.take_drop]
  rw [verdict, decodeFrame, hhead]
  by_cases htag : tag ∉ knownTags
  · simp [htag]
  · by_cases h4 : bs.length < 4
    · have h5 : (tag :: bs).length < frameHeaderLength := by
        rw [List.length_cons, frameHeaderLength]
        omega
      simp only [if_neg htag, if_pos h4, if_pos h5]
    · have h5 : ¬ (tag :: bs).length < frameHeaderLength := by
        rw [List.length_cons, frameHeaderLength]
        omega
      by_cases hn : bs.length < 4 + fromBytesBig (bs.take 4)
      · have hn' : (tag :: bs).length < frameHeaderLength + fromBytesBig (bs.take 4) := by
          rw [List.length_cons, frameHeaderLength]
          omega
        simp only [if_neg htag, if_neg h4, if_neg h5, if_pos hn, if_pos hn']
      · have hn' : ¬ (tag :: bs).length < frameHeaderLength + fromBytesBig (bs.take 4) := by
          rw [List.length_cons, frameHeaderLength]
          omega
        simp only [if_neg htag, if_neg h4, if_neg h5, if_neg hn, if_neg hn', hbody]
        rfl

/-- `decode_frame` raises exactly when the first byte is no tag. -/
theorem verdict_cons_invalid_iff (tag : UInt8) (bs : Bytes) :
    verdict (tag :: bs) = .invalid ↔ tag ∉ knownTags := by
  rw [verdict_cons]
  split_ifs with htag <;> simp [htag]

/-- `decode_frame` as a stream decoder. -/
def frameDecoder : StreamDecoder UInt8 DecodedFrame where
  decode := verdict
  decode_nil := rfl
  item_pos := by
    intro bs x n h
    rcases bs with _ | ⟨tag, bs⟩
    · cases h
    · rw [verdict_cons] at h
      split_ifs at h
      injection h with _ hn
      omega
  item_le := by
    intro bs x n h
    rcases bs with _ | ⟨tag, bs⟩
    · cases h
    · rw [verdict_cons] at h
      split_ifs at h with _ _ hlen
      injection h with _ hn
      rw [List.length_cons]
      omega
  item_append := by
    intro bs x n h cs
    rcases bs with _ | ⟨tag, bs⟩
    · cases h
    · rw [List.cons_append, verdict_cons]
      rw [verdict_cons] at h
      split_ifs at h with htag h4 hlen
      -- the length field and the payload lie in the part already seen
      have htake : (bs ++ cs).take 4 = bs.take 4 :=
        List.take_append_of_le_length (by omega)
      have hdrop : ((bs ++ cs).drop 4).take (fromBytesBig (bs.take 4))
          = (bs.drop 4).take (fromBytesBig (bs.take 4)) := by
        rw [List.drop_append_of_le_length (by omega),
          List.take_append_of_le_length (by rw [List.length_drop]; omega)]
      have hlen' : (bs ++ cs).length = bs.length + cs.length := List.length_append
      rw [if_neg (not_not.mpr htag), if_neg (by omega), htake, if_neg (by omega), hdrop]
      exact h
  invalid_append := by
    intro bs h cs
    rcases bs with _ | ⟨tag, bs⟩
    · cases h
    · exact (verdict_cons_invalid_iff _ _).mpr ((verdict_cons_invalid_iff _ _).mp h)

@[simp] theorem frameDecoder_decode (bs : Bytes) : frameDecoder.decode bs = verdict bs := rfl

/-- `decode_frame` inverts the agent's encoder on every payload the length
field can describe, whatever bytes follow. -/
theorem frameDecoder_encodes :
    frameDecoder.Encodes Agent.Frame.Sized Agent.Frame.encode received := by
  intro f h cs
  have hlen : f.payload.length % 2 ^ 32 = f.payload.length := Nat.mod_eq_of_lt h
  rw [frameDecoder_decode, Agent.Frame.encode, Agent.encodeFrame, hlen, List.cons_append,
    List.append_assoc, verdict_cons, if_neg (not_not.mpr (toByte_mem_knownTags f.tag))]
  set field : Bytes := toBytesBig 4 f.payload.length with hfield
  have h4 : field.length = 4 := length_toBytesBig 4 _
  have htake : (field ++ (f.payload ++ cs)).take 4 = field := by
    rw [List.take_append_of_le_length (by omega), List.take_of_length_le (by omega)]
  have hdrop : (field ++ (f.payload ++ cs)).drop 4 = f.payload ++ cs := by
    rw [← h4, List.drop_left]
  have hval : fromBytesBig field = f.payload.length :=
    fromBytesBig_toBytesBig_of_lt (by simpa [Agent.Frame.Sized] using h)
  have hall : (field ++ (f.payload ++ cs)).length = 4 + f.payload.length + cs.length := by
    rw [List.length_append, List.length_append, h4]
    omega
  rw [htake, hdrop, hval, if_neg (by omega), if_neg (by omega), List.take_left, received]
  congr 1
  rw [List.length_cons, List.length_append, h4]
  omega

end Ingest
