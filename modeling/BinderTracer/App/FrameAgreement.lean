import BinderTracer.App.SocketServer
import BinderTracer.Daemon.Frames
import BinderTracer.Lib.SignedWords

/-!
# Frames on the app's side, and between the two sides

`writeFrame` and `readFrame` of `SocketClient.kt`. The app writes a frame field by field and reads it
the same way, with a signed length; the daemon writes and reads the header as a whole, with an unsigned
one. Both produce the same bytes, and both read them back from a stream of frames.
-/

namespace BinderTracer.App

open BinderTracer.Lib

namespace SocketClient

/-- `FRAME_MAGIC`. -/
abbrev frameMagic : UInt8 := 0xBD

/-- `MAX_PAYLOAD_LEN`. -/
abbrev maxPayloadLen : Int32 := 1048576

/-- What may be thrown while a frame is written or read. -/
inductive IOException where
  | endOfFile
  | invalidMagic
  | invalidFrameLength
  | notWritten
deriving DecidableEq, Repr

/-- The fields of a frame, one after another. -/
def writeFields (type : UInt8) (payload : List UInt8) : EStateM IOException Output Unit := do
  writeAll .notWritten [frameMagic]
  writeAll .notWritten [type]
  writeAll .notWritten (beBytes 4 payload.length)
  writeAll .notWritten payload

/-- `writeFrame`: whether the frame was written. -/
def writeFrame (output : Option Output) (type : UInt8) (payload : List UInt8) : Bool × Option Output :=
  match output with
  | none => (false, none)
  | some outputStream =>
    match writeFields type payload outputStream with
    | .ok _ outputStream => (true, some outputStream)
    | .error _ outputStream => (false, some outputStream)

/-- `DataInputStream.readFully`. -/
def readFully (n : Nat) : EStateM IOException Input (List UInt8) := readFull (fun _ => .endOfFile) n

/-- `DataInputStream.readByte`. -/
def readByte : EStateM IOException Input UInt8 := do return byteAt (← readFully 1) 0

/-- `DataInputStream.readInt`. -/
def readInt : EStateM IOException Input Int32 := do return (beUInt32 (← readFully 4) 0).toInt32

/-- The body of `readFrame` after the magic byte. -/
def readRest : EStateM IOException Input Frame := do
  let type ← readByte
  let length ← readInt
  if length < 0 ∨ length > maxPayloadLen then throw .invalidFrameLength
  else do
    makeBuffer length.toInt.toNat
    let payload ← readFully length.toInt.toNat
    return { type, payload }

/-- The body of `readFrame`. -/
def readFields : EStateM IOException Input Frame := do
  let magic ← readByte
  if magic ≠ frameMagic then throw .invalidMagic else readRest

/-- `readFrame`: nothing without a connection, and nothing after an exception. -/
def readFrame (input : Option Input) : Option Frame × Option Input :=
  match input with
  | none => (none, none)
  | some input =>
    match readFields input with
    | .ok frame input => (some frame, some input)
    | .error _ input => (none, some input)

/-- The frame that the daemon knows as `frame`. -/
def Frame.ofDaemon (frame : Daemon.Frame) : Frame := ⟨frame.type, frame.payload⟩

/-! ### Writing -/

theorem writeFields_ok {frame : Daemon.Frame} {u : Unit} {s s' : Output}
    (h : writeFields frame.type frame.payload s = .ok u s') : s'.written = s.written ++ frame.wire := by
  unfold writeFields at h
  obtain ⟨_, s₁, h₁, h⟩ := EStateM.bind_eq_ok h
  obtain ⟨_, s₂, h₂, h⟩ := EStateM.bind_eq_ok h
  obtain ⟨_, s₃, h₃, h⟩ := EStateM.bind_eq_ok h
  rw [writeAll_ok h, writeAll_ok h₃, writeAll_ok h₂, writeAll_ok h₁]
  simp [Daemon.Frame.wire, Daemon.frameHeader]

theorem writeFields_healthy {frame : Daemon.Frame} {s : Output} (h : s.room = none) :
    writeFields frame.type frame.payload s = .ok () { s with written := s.written ++ frame.wire } := by
  simp [writeFields, writeAll, h, bind, EStateM.bind, Daemon.Frame.wire, Daemon.frameHeader]

/-! ### Reading -/

theorem readByte_ok {s : Input} {b : UInt8} {rest : List UInt8} (h : s.bytes = b :: rest) :
    ∃ s', readByte s = .ok b s' ∧ s'.bytes = rest := by
  obtain ⟨s', hread, hs'⟩ := readFull_field (fun _ => IOException.endOfFile) (show s.bytes = [b] ++ rest from h)
  refine ⟨s', ?_, hs'⟩
  rw [readByte, EStateM.bind_ok (show readFully 1 s = _ from hread)]
  rfl

/-- A length within the limit is the same number in the signed reading. -/
theorem readInt_length {s : Input} {n : Nat} {rest : List UInt8} (hn : n ≤ Daemon.maxPayloadLen)
    (h : s.bytes = beBytes 4 n ++ rest) :
    ∃ length s', readInt s = .ok length s' ∧ s'.bytes = rest ∧ length.toInt = n := by
  obtain ⟨s', hread, hs'⟩ := readFull_field (fun _ => IOException.endOfFile) h
  rw [length_beBytes] at hread
  have hlt : n < 2 ^ 31 := Nat.lt_of_le_of_lt hn (by decide)
  have hslice : slice (beBytes 4 n) 0 4 = beBytes 4 n := List.take_of_length_le (by simp)
  have hword : (beUInt32 (beBytes 4 n) 0).toNat = n := by
    rw [beUInt32, hslice, beNat_beBytes, UInt32.toNat_ofNat']
    omega
  refine ⟨(beUInt32 (beBytes 4 n) 0).toInt32, s', ?_, hs', ?_⟩
  · rw [readInt, EStateM.bind_ok (show readFully 4 s = _ from hread)]
    rfl
  · rw [toInt_toInt32, hword, if_pos hlt]

/-- **A frame at the front of the stream is read back**, whatever follows it. -/
theorem readFields_wire {s : Input} {frame : Daemon.Frame} {rest : List UInt8}
    (hsize : frame.payload.length ≤ Daemon.maxPayloadLen) (h : s.bytes = frame.wire ++ rest) :
    ∃ s', readFields s = .ok (Frame.ofDaemon frame) s' ∧ s'.bytes = rest := by
  rw [Daemon.Frame.wire, Daemon.frameHeader, List.append_assoc, List.cons_append, List.cons_append] at h
  obtain ⟨s₁, hmagic, hs₁⟩ := readByte_ok h
  obtain ⟨s₂, htype, hs₂⟩ := readByte_ok hs₁
  obtain ⟨length, s₃, hlength, hs₃, hvalue⟩ := readInt_length hsize hs₂
  have hnat : length.toInt.toNat = frame.payload.length := by omega
  let s₄ : Input := { s₃ with buffers := s₃.buffers ++ [frame.payload.length] }
  obtain ⟨s₅, hpayload, hs₅⟩ :=
    readFull_field (fun _ => IOException.endOfFile) (show s₄.bytes = frame.payload ++ rest from hs₃)
  have hlegal : ¬ (length < 0 ∨ length > maxPayloadLen) := by
    rw [Int32.lt_iff_toInt_lt, gt_iff_lt, Int32.lt_iff_toInt_lt, hvalue]
    have hbound : frame.payload.length ≤ 1048576 := hsize
    show ¬ ((frame.payload.length : Int) < 0 ∨ (1048576 : Int) < frame.payload.length)
    omega
  refine ⟨s₅, ?_, hs₅⟩
  rw [readFields, EStateM.bind_ok hmagic, if_neg (by simp), readRest, EStateM.bind_ok htype,
    EStateM.bind_ok hlength, if_neg hlegal, hnat]
  rw [EStateM.bind_ok (show makeBuffer frame.payload.length s₃ = .ok () s₄ from rfl),
    EStateM.bind_ok (show readFully _ s₄ = _ from hpayload)]
  rfl

theorem readFields_end {s : Input} (h : s.bytes = []) : ∃ e s', readFields s = .error e s' := by
  have hend := readFull_end (fun _ => IOException.endOfFile) (show s.bytes.length < 1 by rw [h]; decide)
  exact ⟨_, _, EStateM.bind_error (EStateM.bind_error hend)⟩

/-- **No payload buffer exceeds the limit**, on any stream. -/
theorem keeps_readFields : Keeps (Input.Within Daemon.maxPayloadLen) readFields := by
  have hfully : ∀ n, Keeps (Input.Within Daemon.maxPayloadLen) (readFully n) := Keeps.readFull _ _
  have hbyte : Keeps (Input.Within Daemon.maxPayloadLen) readByte :=
    Keeps.bind (hfully 1) fun _ => Keeps.pure _
  have hint : Keeps (Input.Within Daemon.maxPayloadLen) readInt :=
    Keeps.bind (hfully 4) fun _ => Keeps.pure _
  refine Keeps.bind hbyte fun magic => ?_
  split
  · exact Keeps.throw _
  refine Keeps.bind hbyte fun type => Keeps.bind hint fun length => ?_
  split
  · exact Keeps.throw _
  next hlegal =>
  refine Keeps.bind (Keeps.makeBuffer ?_) fun _ => Keeps.bind (hfully _) fun _ => Keeps.pure _
  rw [Int32.lt_iff_toInt_lt, gt_iff_lt, Int32.lt_iff_toInt_lt] at hlegal
  have hmax : maxPayloadLen.toInt = 1048576 := rfl
  have hzero : (0 : Int32).toInt = 0 := rfl
  show length.toInt.toNat ≤ 1048576
  omega

end SocketClient

/-! ### Between the two sides -/

/-- The two ends of the connection. -/
inductive Peer where
  | daemon
  | app
deriving DecidableEq, Repr

namespace Peer

/-- The peer's call that writes `frame` succeeds. -/
def Writes : Peer → Daemon.Frame → Output → Output → Prop
  | .daemon, frame, s, s' => Daemon.writeFrame frame.type frame.payload s = .ok () s'
  | .app, frame, s, s' => SocketClient.writeFrame (some s) frame.type frame.payload = (true, some s')

/-- The peer's next call that reads returns `frame`. -/
def Reads : Peer → Daemon.Frame → Input → Input → Prop
  | .daemon, frame, s, s' => Daemon.readFrame s = .ok frame s'
  | .app, frame, s, s' =>
    SocketClient.readFrame (some s) = (some (SocketClient.Frame.ofDaemon frame), some s')

/-- The peer's next call that reads finds no frame any more. -/
def FindsEnd : Peer → Input → Prop
  | .daemon, s => ∃ s', Daemon.readFrame s = .error .eof s'
  | .app, s => (SocketClient.readFrame (some s)).1 = none

/-- The connection after the peer's next call that reads, whatever it returns. -/
def afterRead : Peer → Input → Input
  | .daemon, s => endState (Daemon.readFrame s)
  | .app, s => (SocketClient.readFrame (some s)).2.getD s

/-- One frame after another is written. -/
def WritesAll (p : Peer) : List Daemon.Frame → Output → Output → Prop
  | [], s, s' => s' = s
  | frame :: frames, s, s' => ∃ mid, p.Writes frame s mid ∧ p.WritesAll frames mid s'

/-- One frame after another is read. -/
def ReadsAll (p : Peer) : List Daemon.Frame → Input → Input → Prop
  | [], s, s' => s' = s
  | frame :: frames, s, s' => ∃ mid, p.Reads frame s mid ∧ p.ReadsAll frames mid s'

theorem Writes.written {p : Peer} {frame : Daemon.Frame} {s s' : Output} (h : p.Writes frame s s') :
    s'.written = s.written ++ frame.wire := by
  cases p with
  | daemon => exact Daemon.writeFrame_ok h
  | app =>
    simp only [Writes, SocketClient.writeFrame] at h
    split at h
    · next u s₁ hfields =>
      cases h
      exact SocketClient.writeFields_ok hfields
    · cases h

/-- A connection that does not fail takes every frame within the limit. -/
theorem writes_healthy (p : Peer) {frame : Daemon.Frame} (hsize : frame.payload.length ≤ Daemon.maxPayloadLen)
    {s : Output} (h : s.room = none) : ∃ s', p.Writes frame s s' ∧ s'.room = none := by
  cases p with
  | daemon => exact ⟨_, Daemon.writeFrame_healthy hsize h, h⟩
  | app =>
    refine ⟨{ s with written := s.written ++ frame.wire }, ?_, h⟩
    simp only [Writes, SocketClient.writeFrame, SocketClient.writeFields_healthy h]

theorem reads_wire (p : Peer) {frame : Daemon.Frame} {s : Input} {rest : List UInt8}
    (hsize : frame.payload.length ≤ Daemon.maxPayloadLen) (h : s.bytes = frame.wire ++ rest) :
    ∃ s', p.Reads frame s s' ∧ s'.bytes = rest := by
  cases p with
  | daemon => exact Daemon.readFrame_wire hsize h
  | app =>
    obtain ⟨s', hread, hs'⟩ := SocketClient.readFields_wire hsize h
    exact ⟨s', by simp only [Reads, SocketClient.readFrame, hread], hs'⟩

theorem findsEnd (p : Peer) {s : Input} (h : s.bytes = []) : p.FindsEnd s := by
  cases p with
  | daemon => exact ⟨_, Daemon.readFrame_end h⟩
  | app =>
    obtain ⟨e, s', hread⟩ := SocketClient.readFields_end h
    simp only [FindsEnd, SocketClient.readFrame, hread]

theorem afterRead_within (p : Peer) {s : Input} (h : s.Within Daemon.maxPayloadLen) :
    (p.afterRead s).Within Daemon.maxPayloadLen := by
  cases p with
  | daemon => exact Daemon.keeps_readFrame s h
  | app =>
    have hkept := SocketClient.keeps_readFields s h
    simp only [afterRead, SocketClient.readFrame]
    cases hread : SocketClient.readFields s with
    | ok frame s' => rw [hread] at hkept; exact hkept
    | error e s' => rw [hread] at hkept; exact hkept

/-! ### Streams of frames -/

theorem WritesAll.written {p : Peer} {frames : List Daemon.Frame} {s s' : Output}
    (h : p.WritesAll frames s s') : s'.written = s.written ++ frames.flatMap Daemon.Frame.wire := by
  induction frames generalizing s with
  | nil =>
    cases h
    simp
  | cons frame frames ih =>
    obtain ⟨mid, hfirst, hrest⟩ := h
    rw [ih hrest, hfirst.written, List.flatMap_cons, List.append_assoc]

theorem writesAll_healthy (p : Peer) {frames : List Daemon.Frame}
    (hsize : ∀ frame ∈ frames, frame.payload.length ≤ Daemon.maxPayloadLen) {s : Output} (h : s.room = none) :
    ∃ s', p.WritesAll frames s s' := by
  induction frames generalizing s with
  | nil => exact ⟨s, rfl⟩
  | cons frame frames ih =>
    obtain ⟨mid, hfirst, hmid⟩ := p.writes_healthy (hsize frame List.mem_cons_self) h
    obtain ⟨s', hrest⟩ := ih (fun f hf => hsize f (List.mem_cons_of_mem frame hf)) hmid
    exact ⟨s', mid, hfirst, hrest⟩

/-- The wire forms of frames are read back one after another, and nothing after them is touched. -/
theorem readsAll_wire (p : Peer) {frames : List Daemon.Frame}
    (hsize : ∀ frame ∈ frames, frame.payload.length ≤ Daemon.maxPayloadLen) {s : Input} {rest : List UInt8}
    (h : s.bytes = frames.flatMap Daemon.Frame.wire ++ rest) :
    ∃ s', p.ReadsAll frames s s' ∧ s'.bytes = rest := by
  induction frames generalizing s with
  | nil => exact ⟨s, rfl, h⟩
  | cons frame frames ih =>
    rw [List.flatMap_cons, List.append_assoc] at h
    obtain ⟨mid, hfirst, hmid⟩ := p.reads_wire (hsize frame List.mem_cons_self) h
    obtain ⟨s', hrest, hs'⟩ := ih (fun f hf => hsize f (List.mem_cons_of_mem frame hf)) hmid
    exact ⟨s', ⟨mid, hfirst, hrest⟩, hs'⟩

theorem iterate_afterRead_within (p : Peer) (k : Nat) {s : Input} (h : s.Within Daemon.maxPayloadLen) :
    (p.afterRead^[k] s).Within Daemon.maxPayloadLen := by
  induction k generalizing s with
  | zero => exact h
  | succ k ih => exact ih (p.afterRead_within h)

end Peer

/-- **Streams of frames are read back exactly**, between any two ends and however the bytes are cut into
pieces; a payload above the limit is refused before anything is written; and on no stream is a payload
buffer larger than the limit made. -/
theorem frame_streams_agree :
    (∀ (writer reader : Peer) (frames : List Daemon.Frame),
      (∀ frame ∈ frames, frame.payload.length ≤ Daemon.maxPayloadLen) →
      (∀ out : Output, out.room = none → ∃ out', writer.WritesAll frames out out') ∧
      ∀ out out' : Output, writer.WritesAll frames out out' →
        ∃ bytes, out'.written = out.written ++ bytes ∧
          ∀ (input : Input) (rest : List UInt8), input.bytes = bytes ++ rest →
            ∃ input', reader.ReadsAll frames input input' ∧ input'.bytes = rest ∧
              (rest = [] → reader.FindsEnd input')) ∧
    (∀ (msgType : UInt8) (payload : List UInt8) (out : Output), Daemon.maxPayloadLen < payload.length →
      Daemon.writeFrame msgType payload out = .error .payloadTooLong out) ∧
    ∀ (reader : Peer) (pieces : List (List UInt8)) (reads : Nat),
      ∀ n ∈ (reader.afterRead^[reads] { pieces }).buffers, n ≤ Daemon.maxPayloadLen := by
  refine ⟨?_, fun msgType payload out h => Daemon.writeFrame_tooLong h out, ?_⟩
  · intro writer reader frames hsize
    refine ⟨fun out hout => writer.writesAll_healthy hsize hout, ?_⟩
    intro out out' hwrites
    refine ⟨_, hwrites.written, ?_⟩
    intro input rest hinput
    obtain ⟨input', hreads, hrest⟩ := reader.readsAll_wire hsize hinput
    refine ⟨input', hreads, hrest, ?_⟩
    rintro rfl
    exact reader.findsEnd hrest
  · intro reader pieces reads
    apply reader.iterate_afterRead_within reads
    intro n hn
    cases hn

/-- A ping and a target uid, sent by the app and received by the daemon one byte at a time. -/
theorem frame_streams_agree_commands :
    ∃ out, Peer.app.WritesAll [⟨0x05, []⟩, ⟨0x01, [0, 0, 39, 16]⟩] {} out ∧
      ∃ input, Peer.daemon.ReadsAll [⟨0x05, []⟩, ⟨0x01, [0, 0, 39, 16]⟩]
          { pieces := out.written.map fun b => [b] } input ∧ Peer.daemon.FindsEnd input := by
  obtain ⟨hwrites, hreads⟩ := frame_streams_agree.1 .app .daemon [⟨0x05, []⟩, ⟨0x01, [0, 0, 39, 16]⟩]
    (by decide)
  obtain ⟨out, hout⟩ := hwrites {} rfl
  obtain ⟨bytes, hbytes, hback⟩ := hreads {} out hout
  have hpieces : ({ pieces := out.written.map fun b => [b] } : Input).bytes = bytes ++ [] := by
    rw [hbytes, List.append_nil]
    exact (List.flatMap_def ..).symm.trans (List.flatMap_singleton' bytes)
  obtain ⟨input, hinput, -, hend⟩ := hback _ [] hpieces
  exact ⟨out, hout, input, hinput, hend rfl⟩

end BinderTracer.App
