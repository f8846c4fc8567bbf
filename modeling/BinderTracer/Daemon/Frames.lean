import BinderTracer.Daemon.Commands
import BinderTracer.Lib.ByteStream

/-!
# Frames on the daemon's side

`WriteFrame` and `ReadFrame` of `protocol.go`. On the wire a frame is a magic byte, its type, the
length of its payload in four bytes and the payload.
-/

namespace BinderTracer.Daemon

open BinderTracer.Lib

/-- `FrameMagic`. -/
abbrev frameMagic : UInt8 := 0xBD

/-- `FrameHeaderLen`. -/
abbrev frameHeaderLen : Nat := 6

/-- `MaxPayloadLen`. -/
abbrev maxPayloadLen : Nat := 1048576

/-- The errors of `WriteFrame` and `ReadFrame`. -/
inductive FrameError where
  /-- `ErrInvalidMagic`. -/
  | invalidMagic
  /-- `ErrPayloadTooLong`. -/
  | payloadTooLong
  /-- `write header: …`. -/
  | writeHeader
  /-- `write payload: …`. -/
  | writePayload
  /-- `io.EOF`. -/
  | eof
  /-- `io.ErrUnexpectedEOF`. -/
  | unexpectedEOF
deriving DecidableEq, Repr

/-- The error of `io.ReadFull` at the end of the stream. -/
def readError (part : List UInt8) : FrameError := if part = [] then .eof else .unexpectedEOF

/-- The frame header. -/
def frameHeader (msgType : UInt8) (payloadLen : Nat) : Bytes := frameMagic :: msgType :: beBytes 4 payloadLen

/-- `WriteFrame`. -/
def writeFrame (msgType : UInt8) (payload : Bytes) : EStateM FrameError Output Unit :=
  if payload.length > maxPayloadLen then throw .payloadTooLong
  else do
    writeAll .writeHeader (frameHeader msgType payload.length)
    if payload.length > 0 then writeAll .writePayload payload else pure ()

/-- The payload of a frame: a buffer is made for it, and filled if it is not empty. -/
def readPayload (payloadLen : Nat) : EStateM FrameError Input Bytes := do
  makeBuffer payloadLen
  if payloadLen > 0 then readFull readError payloadLen else pure []

/-- `ReadFrame`. -/
def readFrame : EStateM FrameError Input Frame := do
  let header ← readFull readError frameHeaderLen
  if byteAt header 0 ≠ frameMagic then throw .invalidMagic
  else if (beUInt32 header 2).toNat > maxPayloadLen then throw .payloadTooLong
  else do
    let payload ← readPayload (beUInt32 header 2).toNat
    return { type := byteAt header 1, payload }

/-- A frame as it travels. -/
def Frame.wire (frame : Frame) : Bytes := frameHeader frame.type frame.payload.length ++ frame.payload

/-! ### Writing -/

theorem writeFrame_tooLong {msgType : UInt8} {payload : Bytes} (h : maxPayloadLen < payload.length)
    (s : Output) : writeFrame msgType payload s = .error .payloadTooLong s := by
  rw [writeFrame, if_pos h]
  rfl

/-- What a call that returns has written. -/
theorem writeFrame_ok {frame : Frame} {u : Unit} {s s' : Output}
    (h : writeFrame frame.type frame.payload s = .ok u s') : s'.written = s.written ++ frame.wire := by
  unfold writeFrame at h
  split at h
  · cases h
  · obtain ⟨_, s₁, hheader, hpayload⟩ := EStateM.bind_eq_ok h
    have hwritten := writeAll_ok hheader
    split at hpayload
    · rw [writeAll_ok hpayload, hwritten, Frame.wire, List.append_assoc]
    · next hempty =>
      cases hpayload
      have hnil : frame.payload = [] := List.eq_nil_of_length_eq_zero (by omega)
      rw [hwritten, Frame.wire, hnil, List.append_nil]

theorem writeFrame_healthy {frame : Frame} {s : Output} (hsize : frame.payload.length ≤ maxPayloadLen)
    (h : s.room = none) :
    writeFrame frame.type frame.payload s = .ok () { s with written := s.written ++ frame.wire } := by
  have hheader := writeAll_healthy FrameError.writeHeader (frameHeader frame.type frame.payload.length) h
  rw [writeFrame, if_neg (by omega), EStateM.bind_ok hheader]
  split
  · rw [Frame.wire, ← List.append_assoc]
    exact writeAll_healthy FrameError.writePayload frame.payload h
  · next hempty =>
    have hnil : frame.payload = [] := List.eq_nil_of_length_eq_zero (by omega)
    rw [Frame.wire, hnil, List.append_nil]
    rfl

/-- What a call of `WriteFrame` comes to: the frame was written, or nothing of it, or a part of it on a connection
that takes nothing any more. -/
inductive FrameWritten (frame : Frame) (s : Output) : EStateM.Result FrameError Output Unit → Prop where
  | whole {s' : Output} (size : frame.payload.length ≤ maxPayloadLen) (room : s.room ≠ some 0)
      (written : s'.written = s.written ++ frame.wire) : FrameWritten frame s (.ok () s')
  | refused (e : FrameError) : FrameWritten frame s (.error e s)
  | cut {part : Bytes} (e : FrameError) (size : frame.payload.length ≤ maxPayloadLen)
      (proper : part <+: frame.wire ∧ part ≠ frame.wire) (nothing : s.room = some 0 → part = []) :
      FrameWritten frame s (.error e { written := s.written ++ part, room := some 0 })

theorem frameWritten_writeFrame (frame : Frame) (s : Output) :
    FrameWritten frame s (writeFrame frame.type frame.payload s) := by
  unfold writeFrame
  split
  · exact .refused .payloadTooLong
  next hsize =>
  have hsize := Nat.not_lt.1 hsize
  have hheaderLen : (frameHeader frame.type frame.payload.length) ≠ [] := List.cons_ne_nil _ _
  rcases writeAll_cases FrameError.writeHeader (frameHeader frame.type frame.payload.length) s with
    ⟨mid, hheader, hmid, hroom⟩ | ⟨part, hheader, hpart, hne, hnothing⟩
  · have hopen : s.room ≠ some 0 := fun h => hheaderLen (hroom h)
    rw [EStateM.bind_ok hheader]
    split
    · rcases writeAll_cases FrameError.writePayload frame.payload mid with
        ⟨s', hpayload, hs', -⟩ | ⟨part, hpayload, hpart, hne, -⟩
      · rw [hpayload]
        exact .whole hsize hopen (by rw [hs', hmid, List.append_assoc, Frame.wire])
      · rw [hpayload, hmid, List.append_assoc]
        refine .cut .writePayload hsize ⟨?_, ?_⟩ fun h => absurd h hopen
        · exact (List.prefix_append_right_inj _).2 hpart
        · exact fun heq => hne (List.append_cancel_left heq)
    · next hempty =>
      have hnil : frame.payload = [] := List.eq_nil_of_length_eq_zero (by omega)
      refine .whole hsize hopen ?_
      rw [hmid, Frame.wire, hnil, List.append_nil]
  · rw [EStateM.bind_error hheader]
    refine .cut .writeHeader hsize ⟨hpart.trans (List.prefix_append _ _), ?_⟩ hnothing
    rintro rfl
    have hle := hpart.length_le
    rw [Frame.wire, List.length_append] at hle
    refine hne (hpart.eq_of_length ?_)
    rw [Frame.wire, List.length_append]
    omega

/-! ### Streams that are cut -/

/-- A part of a frame, possibly nothing of it. -/
def Fragment (part : Bytes) : Prop :=
  ∃ frame : Frame, frame.payload.length ≤ maxPayloadLen ∧ part <+: frame.wire ∧ part ≠ frame.wire

theorem fragment_nil : Fragment [] :=
  ⟨⟨0, []⟩, Nat.zero_le _, List.nil_prefix, (List.cons_ne_nil _ _).symm⟩

theorem Fragment.of_prefix {part bytes : Bytes} (h : Fragment part) (hbytes : bytes <+: part) : Fragment bytes := by
  obtain ⟨frame, hsize, hpart, hne⟩ := h
  refine ⟨frame, hsize, hbytes.trans hpart, ?_⟩
  rintro rfl
  exact hne (hpart.eq_of_length (Nat.le_antisymm hpart.length_le hbytes.length_le))

/-- Wherever a stream of frames is cut, there are whole frames and then a part of one. -/
theorem frames_of_prefix {frames : List Frame} (hsize : ∀ frame ∈ frames, frame.payload.length ≤ maxPayloadLen)
    {part bytes : Bytes} (hpart : Fragment part) (h : bytes <+: frames.flatMap Frame.wire ++ part) :
    ∃ k part', bytes = (frames.take k).flatMap Frame.wire ++ part' ∧ Fragment part' := by
  induction frames generalizing bytes with
  | nil => exact ⟨0, bytes, rfl, hpart.of_prefix h⟩
  | cons frame frames ih =>
    rw [List.flatMap_cons, List.append_assoc] at h
    by_cases hlen : frame.wire.length ≤ bytes.length
    · obtain ⟨rest, rfl⟩ := List.prefix_of_prefix_length_le (List.prefix_append _ _) h hlen
      obtain ⟨k, part', hrest, hpart'⟩ :=
        ih (fun f hf => hsize f (List.mem_cons_of_mem frame hf)) ((List.prefix_append_right_inj _).1 h)
      exact ⟨k + 1, part', by rw [hrest, List.take_succ_cons, List.flatMap_cons, List.append_assoc], hpart'⟩
    · have hshort : bytes <+: frame.wire :=
        List.prefix_of_prefix_length_le h (List.prefix_append _ _) (by omega)
      refine ⟨0, bytes, rfl, frame, hsize frame List.mem_cons_self, hshort, ?_⟩
      rintro rfl
      exact hlen (Nat.le_refl _)

/-! ### Reading -/

@[simp] theorem length_frameHeader (msgType : UInt8) (n : Nat) :
    (frameHeader msgType n).length = frameHeaderLen := by
  simp [frameHeader]

theorem beUInt32_frameHeader (msgType : UInt8) {n : Nat} (h : n ≤ maxPayloadLen) :
    (beUInt32 (frameHeader msgType n) 2).toNat = n := by
  have hslice : slice (frameHeader msgType n) 2 4 = beBytes 4 n := by
    show (beBytes 4 n).take 4 = _
    exact List.take_of_length_le (by simp)
  have hlt : n < 2 ^ 32 := Nat.lt_of_le_of_lt h (by decide)
  rw [beUInt32, hslice, beNat_beBytes, UInt32.toNat_ofNat', Nat.mod_eq_of_lt (show n < 256 ^ 4 from hlt),
    Nat.mod_eq_of_lt hlt]

theorem readPayload_eq (n : Nat) : readPayload n = makeBuffer n >>= fun _ => readFull readError n := by
  cases n with
  | zero => rw [readFull_zero]; rfl
  | succ n => rw [readPayload, if_pos (Nat.succ_pos n)]

/-- **A frame at the front of the stream is read back**, whatever follows it. -/
theorem readFrame_wire {s : Input} {frame : Frame} {rest : Bytes}
    (hsize : frame.payload.length ≤ maxPayloadLen) (h : s.bytes = frame.wire ++ rest) :
    ∃ s', readFrame s = .ok frame s' ∧ s'.bytes = rest := by
  rw [Frame.wire, List.append_assoc] at h
  obtain ⟨s₁, hheader, hs₁⟩ := readFull_field readError h
  rw [length_frameHeader] at hheader
  have hlen := beUInt32_frameHeader frame.type hsize
  -- the buffer is made, and then filled
  let s₂ : Input := { s₁ with buffers := s₁.buffers ++ [frame.payload.length] }
  obtain ⟨s₃, hpayload, hs₃⟩ := readFull_field readError (show s₂.bytes = _ from hs₁)
  have hread : readPayload frame.payload.length s₁ = .ok frame.payload s₃ := by
    rw [readPayload_eq]
    exact hpayload
  refine ⟨s₃, ?_, hs₃⟩
  rw [readFrame, EStateM.bind_ok hheader, if_neg (by simp [frameHeader, byteAt]), hlen, if_neg (by omega),
    EStateM.bind_ok hread]
  rfl

/-- At the end of the stream `ReadFrame` reports it. -/
theorem readFrame_end {s : Input} (h : s.bytes = []) : readFrame s = .error .eof { s with pieces := [] } := by
  have hshort : s.bytes.length < frameHeaderLen := by
    rw [h]
    decide
  have hend := readFull_end readError hshort
  rw [h] at hend
  exact EStateM.bind_error hend

/-- **No payload buffer exceeds the limit**, on any stream. -/
theorem keeps_readFrame : Keeps (Input.Within maxPayloadLen) readFrame := by
  refine Keeps.bind (Keeps.readFull _ readError frameHeaderLen) fun header => ?_
  split
  · exact Keeps.throw _
  split
  · exact Keeps.throw _
  next hsize =>
  rw [readPayload_eq]
  refine Keeps.bind (Keeps.bind (Keeps.makeBuffer (by omega)) fun _ => ?_) fun _ => Keeps.pure _
  exact Keeps.readFull _ readError _

end BinderTracer.Daemon
