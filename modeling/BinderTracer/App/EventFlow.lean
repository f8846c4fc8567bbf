import BinderTracer.App.CodecAgreement
import BinderTracer.App.FrameAgreement
import BinderTracer.Daemon.EventEncoding
import BinderTracer.Daemon.PayloadSize

/-!
# From a connection to the events

`eventFlow` reads frames from a connection until there is none, and the collector of the flow decodes those that
carry events. A connection that fails leaves a stream cut anywhere: the frames before the cut are read and the part
after them is dropped. Every event that the daemon encodes and can send is decoded to an event with the same fields.
-/

namespace BinderTracer.App

open BinderTracer.Lib
open BinderTracer.Daemon (Bytes BinderEventPayload Fragment)

namespace SocketClient

/-- The loop of `eventFlow` on one connection: the frames that it emits until `readFrame` returns nothing. -/
def readFrames : Nat → Input → List Frame
  | 0, _ => []
  | rounds + 1, input =>
    match readFrame (some input) with
    | (some frame, some rest) => frame :: readFrames rounds rest
    | _ => []

/-- The frames that `eventFlow` emits. Every frame has a byte at least, so these are all of them. -/
def eventFlow (input : Input) : List Frame := readFrames (input.bytes.length + 1) input

/-! ### Reading a stream that is cut -/

theorem readByte_end {s : Input} (h : s.bytes = []) : ∃ e s', readByte s = .error e s' := by
  have hend := readFull_end (fun _ => IOException.endOfFile) (show s.bytes.length < 1 by rw [h]; decide)
  exact ⟨_, _, EStateM.bind_error hend⟩

/-- A part of a frame is not taken for one. -/
theorem readFields_fragment {s : Input} (h : Fragment s.bytes) : ∃ e s', readFields s = .error e s' := by
  obtain ⟨frame, hsize, ⟨missing, hwire⟩, hne⟩ := h
  have hmissing : missing ≠ [] := by
    rintro rfl
    exact hne (by rw [← hwire, List.append_nil])
  -- the fields are there one after another, up to the one that the part ends in
  cases hbytes : s.bytes with
  | nil => exact readFields_end hbytes
  | cons magic rest =>
    rw [hbytes, Daemon.Frame.wire, Daemon.frameHeader] at hwire
    simp only [List.cons_append] at hwire
    obtain ⟨hmagic, hwire⟩ := List.cons_eq_cons.1 hwire
    obtain ⟨s₁, hread₁, hs₁⟩ := readByte_ok hbytes
    rw [readFields, EStateM.bind_ok hread₁, hmagic, if_neg (by simp), readRest]
    cases rest with
    | nil =>
      obtain ⟨e, s', herr⟩ := readByte_end hs₁
      exact ⟨e, s', EStateM.bind_error herr⟩
    | cons type rest =>
      obtain ⟨s₂, hread₂, hs₂⟩ := readByte_ok hs₁
      rw [EStateM.bind_ok hread₂]
      rw [List.cons_append] at hwire
      have hwire := (List.cons_eq_cons.1 hwire).2
      have hlength : 0 < missing.length := List.length_pos_iff.2 hmissing
      by_cases hshort : rest.length < 4
      · have hend := readFull_end (fun _ => IOException.endOfFile) (show s₂.bytes.length < 4 by rw [hs₂]; exact hshort)
        exact ⟨_, _, EStateM.bind_error (EStateM.bind_error hend)⟩
      · obtain ⟨payload, hpayload⟩ : beBytes 4 frame.payload.length <+: rest :=
          List.prefix_of_prefix_length_le (List.prefix_append _ _) (hwire ▸ List.prefix_append _ _)
            (by rw [length_beBytes]; omega)
        rw [← hpayload, List.append_assoc, List.append_cancel_left_eq] at hwire
        obtain ⟨length, s₃, hread₃, hs₃, hvalue⟩ := readInt_length hsize (hs₂.trans hpayload.symm)
        have hpart : payload.length < frame.payload.length := by
          rw [← hwire, List.length_append]
          omega
        rw [EStateM.bind_ok hread₃]
        split
        · exact ⟨_, _, rfl⟩
        · let s₄ : Input := { s₃ with buffers := s₃.buffers ++ [length.toInt.toNat] }
          have hend := readFull_end (s := s₄) (fun _ => IOException.endOfFile)
            (show s₃.bytes.length < length.toInt.toNat by rw [hs₃]; omega)
          rw [EStateM.bind_ok (show makeBuffer length.toInt.toNat s₃ = .ok () s₄ from rfl)]
          exact ⟨_, _, EStateM.bind_error hend⟩

theorem readFrames_cut {frames : List Daemon.Frame}
    (hsize : ∀ frame ∈ frames, frame.payload.length ≤ Daemon.maxPayloadLen) {part : Bytes} (hpart : Fragment part)
    {rounds : Nat} (hrounds : frames.length < rounds) {input : Input}
    (h : input.bytes = frames.flatMap Daemon.Frame.wire ++ part) :
    readFrames rounds input = frames.map Frame.ofDaemon := by
  induction frames generalizing rounds input with
  | nil =>
    obtain ⟨rounds, rfl⟩ := Nat.exists_eq_add_one.2 hrounds
    obtain ⟨e, rest, hend⟩ := readFields_fragment (show Fragment input.bytes by rw [h]; exact hpart)
    rw [readFrames, readFrame, hend]
    rfl
  | cons frame frames ih =>
    obtain ⟨rounds, rfl⟩ := Nat.exists_eq_add_one.2 (Nat.zero_lt_of_lt hrounds)
    rw [List.flatMap_cons, List.append_assoc] at h
    obtain ⟨rest, hread, hrest⟩ := readFields_wire (hsize frame List.mem_cons_self) h
    rw [readFrames, readFrame, hread]
    exact congrArg _ (ih (fun f hf => hsize f (List.mem_cons_of_mem frame hf)) (Nat.lt_of_succ_lt_succ hrounds) hrest)

/-- **Wherever the stream is cut**, the frames that are whole are read, and nothing else. -/
theorem eventFlow_cut {frames : List Daemon.Frame}
    (hsize : ∀ frame ∈ frames, frame.payload.length ≤ Daemon.maxPayloadLen) {part : Bytes} (hpart : Fragment part)
    {input : Input} (h : input.bytes = frames.flatMap Daemon.Frame.wire ++ part) :
    eventFlow input = frames.map Frame.ofDaemon := by
  refine readFrames_cut hsize hpart (Nat.lt_succ_of_le ?_) h
  have hwire : ∀ frames : List Daemon.Frame, frames.length ≤ (frames.flatMap Daemon.Frame.wire).length := by
    intro frames
    induction frames with
    | nil => exact Nat.le_refl 0
    | cons frame frames ih =>
      rw [List.flatMap_cons, List.length_append, List.length_cons, Daemon.Frame.wire, List.length_append,
        Daemon.length_frameHeader]
      change _ + 1 ≤ 6 + _ + _
      omega
  rw [h, List.length_append]
  exact Nat.le_trans (hwire frames) (Nat.le_add_right _ _)

end SocketClient

/-! ### Decoding what the daemon encodes -/

section
variable (decodeUtf8 : List UInt8 → String)

/-- The app's view of an event that the daemon sends. -/
def BinderEvent.ofPayload (id : Int64) (e : BinderEventPayload) : BinderEvent where
  id
  timestamp := e.timestamp
  pid := e.pid.toInt32
  uid := e.uid.toInt32
  code := e.code.toInt32
  flags := e.flags.toInt32
  rawParcel := e.parcelData
  isReply := e.isReply = 1
  binderDev := BinderDev.fromByte e.binderDev
  targetKind := TargetKind.fromByte e.targetKind
  toPid := e.toPid.toInt32
  toUid := e.toUid.toInt32
  targetRef := e.targetRef.toInt64
  pairId := e.pairId.toInt64
  stackTrace := e.stackTrace.map (StackTrace.ofWire decodeUtf8)

/-- The event shows what the daemon sent: all its fields, and the stack trace if its strings and counts fit in
their length fields. -/
structure BinderEvent.Shows (k : BinderEvent) (e : BinderEventPayload) : Prop where
  fields : k = { BinderEvent.ofPayload decodeUtf8 k.id e with stackTrace := k.stackTrace }
  stackTrace : (∀ st, e.stackTrace = some st → st.Encodable) →
    k.stackTrace = e.stackTrace.map (StackTrace.ofWire decodeUtf8)

/-- What the app reads from a base header is its view of what the daemon reads from it. -/
theorem BinderEvent.ofHeader_eq (id : Int64) (payload : Bytes) (stackTrace : Option StackTrace) :
    BinderEvent.ofHeader id payload (slice payload 60 (beUInt32 payload 28).toNat) stackTrace =
      { BinderEvent.ofPayload decodeUtf8 id (Daemon.headerEvent payload) with stackTrace } := rfl

/-- The guards of the daemon's decoder let its own stack trace through. -/
theorem decodeStackTrace_encoded (e : BinderEventPayload) :
    ∃ guard st, Daemon.decodeStackTrace e.encode (60 + e.parcelData.length)
        (if e.stackTrace.isSome then Daemon.extFlagHasStackTLV else 0) = .ok (guard, st) ∧
      ((∀ st', e.stackTrace = some st' → st'.Encodable) → st = e.stackTrace) := by
  cases hst : e.stackTrace with
  | none => exact ⟨none, none, rfl, fun _ => rfl⟩
  | some st =>
    rw [Option.isSome_some, if_pos rfl, e.decodeStackTrace_encode hst]
    obtain ⟨decoded, hdecoded⟩ := Daemon.decodeStackTraceTLV_total
      ((Daemon.encodeStackTraceTLV st).take (UInt32.ofNat (Daemon.encodeStackTraceTLV st).length).toNat)
    refine ⟨none, decoded, by rw [hdecoded]; rfl, fun hencodable => ?_⟩
    have hst' := hencodable st rfl
    have hfull : (UInt32.ofNat (Daemon.encodeStackTraceTLV st).length).toNat = (Daemon.encodeStackTraceTLV st).length := by
      rw [UInt32.toNat_ofNat']
      exact Nat.mod_eq_of_lt hst'.size
    rw [hfull, List.take_length, Daemon.decode_encodeStackTraceTLV hst'] at hdecoded
    exact (Except.ok.inj hdecoded).symm

/-- **An event that fits in a frame is decoded**, to an event that shows it. -/
theorem fromPayload_encode (id : Int64) (e : BinderEventPayload) (hsize : e.encode.length ≤ Daemon.maxPayloadLen) :
    ∃ guard k, fromPayload decodeUtf8 id e.encode = .ok (guard, some k) ∧ k.id = id ∧ k.Shows decodeUtf8 e := by
  have hbound : e.encode.length ≤ 1048576 := hsize
  have hlength : e.encode.length = 60 + (e.parcelData.length + e.encodeStack.length) := by
    rw [BinderEventPayload.encode, List.length_append, List.length_append, BinderEventPayload.length_encodeHeader]
  have hevent := e.headerEvent_encode (by omega)
  have hdata : (beUInt32 e.encode 28).toNat = e.parcelData.length := by
    change (Daemon.headerEvent e.encode).dataSize.toNat = _
    rw [hevent, UInt32.toNat_ofNat']
    exact Nat.mod_eq_of_lt (by omega)
  have hflags : FieldAt e.encode 0 ([Daemon.binderEventVersionV2,
      if e.stackTrace.isSome then Daemon.extFlagHasStackTLV else 0, 0, 0] ++ _) :=
    (FieldAt.self e.encode).append.1
  have hversion : byteAt e.encode 0 = 2 := hflags.append.1.byteAt
  have hext : byteAt e.encode 1 = if e.stackTrace.isSome then Daemon.extFlagHasStackTLV else 0 :=
    hflags.append.1.tail.byteAt
  have hds := toInt_toInt32_of_lt (show (beUInt32 e.encode 28).toNat < 2 ^ 31 by omega)
  have hend := toInt_add_of_lt (a := 60) (m := 60) rfl hds (by omega)
  have hsmall : e.encode.length < 2 ^ 31 := by omega
  have hg2 := mt (secondGuard_iff hsmall (by omega)).1 (by omega)
  obtain ⟨guard, st, hdecode, hparse⟩ := parseStackTraceTLV_agree decodeUtf8 hsmall
    hend (by omega) (byteAt e.encode 1) (.inr (by omega))
  obtain ⟨guard', st', hdecode', hencodable⟩ := decodeStackTrace_encoded e
  rw [hdata, hext, hdecode'] at hdecode
  cases hdecode
  have hkt := fromPayload_header decodeUtf8 id hsmall (by omega) hversion
  dsimp only at hkt
  rw [if_neg hg2, hds, Int.toNat_natCast, ByteBuffer.getBytes_ok (by omega), hparse] at hkt
  refine ⟨guard, _, hkt, rfl, ?_, fun h => ?_⟩
  · -- the fields are those of the base event
    rw [BinderEvent.ofHeader_eq decodeUtf8, hevent]
    rfl
  · rw [← hencodable h]
    rfl

/-! ### Collecting the events -/

/-- What the collector of `startEventLoop` has done: the value of `idCounter`, the events added to the repository and
the messages passed to `onError`. -/
structure Collected where
  idCounter : Int64
  events : List BinderEvent := []
  errors : List String := []
deriving DecidableEq, Repr

/-- The body of `collect` in `startEventLoop`, for one frame. -/
def collectFrame (s : Collected) (frame : SocketClient.Frame) : Except Throwable Collected := do
  if frame.type = SocketClient.msgBinderEvent then
    match ← fromPayload decodeUtf8 s.idCounter frame.payload with
    | (_, some event) => return { s with idCounter := s.idCounter + 1, events := s.events ++ [event] }
    | (_, none) => return s
  else if frame.type = SocketClient.msgError then
    let errorCode := if 4 ≤ frame.payload.length then (beUInt32 frame.payload 0).toInt32 else 0
    return { s with errors := s.errors ++ ["btrace 错误: " ++ toString errorCode.toInt] }
  else return s

/-- A frame that carries no event leaves the events as they are. -/
theorem collectFrame_other {frame : SocketClient.Frame} (h : frame.type ≠ SocketClient.msgBinderEvent) (s : Collected) :
    ∃ errors, collectFrame decodeUtf8 s frame = .ok { s with errors } := by
  rw [collectFrame, if_neg h]
  split
  · exact ⟨_, rfl⟩
  · exact ⟨s.errors, rfl⟩

theorem collectFrame_event {e : BinderEventPayload} (hsize : e.encode.length ≤ Daemon.maxPayloadLen) (s : Collected) :
    ∃ k, collectFrame decodeUtf8 s ⟨SocketClient.msgBinderEvent, e.encode⟩ =
        .ok { s with idCounter := s.idCounter + 1, events := s.events ++ [k] } ∧
      k.id = s.idCounter ∧ k.Shows decodeUtf8 e := by
  obtain ⟨guard, k, hdecode, hid, hshows⟩ := fromPayload_encode decodeUtf8 s.idCounter e hsize
  refine ⟨k, ?_, hid, hshows⟩
  rw [collectFrame, if_pos rfl, hdecode]
  rfl

/-- **The events on a stream of frames are collected one by one**, with consecutive ids, whatever frames lie between
them. -/
theorem run_collectFrame {frames : List Daemon.Frame} {es : List BinderEventPayload}
    (hes : frames.filter (fun frame => frame.type == Daemon.msgTypeBinderEvent) =
      es.map fun e => ⟨Daemon.msgTypeBinderEvent, e.encode⟩)
    (hsize : ∀ e ∈ es, e.encode.length ≤ Daemon.maxPayloadLen) (s : Collected) :
    ∃ ks errors, run (collectFrame decodeUtf8) s (frames.map SocketClient.Frame.ofDaemon) =
        .ok { idCounter := s.idCounter + Int64.ofNat es.length, events := s.events ++ ks, errors } ∧
      List.Forall₂ (BinderEvent.Shows decodeUtf8) ks es ∧
      ks.map BinderEvent.id = (List.range es.length).map fun i => s.idCounter + Int64.ofNat i := by
  induction frames generalizing es s with
  | nil =>
    obtain rfl : es = [] := List.map_eq_nil_iff.1 hes.symm
    exact ⟨[], s.errors, by simp, .nil, rfl⟩
  | cons frame frames ih =>
    rw [List.map_cons, run_cons]
    by_cases htype : frame.type = Daemon.msgTypeBinderEvent
    · rw [List.filter_cons_of_pos (by simpa using htype)] at hes
      obtain ⟨e, es, rfl, rfl, hrest⟩ := List.map_eq_cons_iff.1 hes.symm
      obtain ⟨k, hcollect, hid, hshows⟩ := collectFrame_event decodeUtf8 (hsize e List.mem_cons_self) s
      obtain ⟨ks, errors, hrun, hall, hids⟩ := ih hrest.symm (fun e' he' => hsize e' (List.mem_cons_of_mem e he'))
        { s with idCounter := s.idCounter + 1, events := s.events ++ [k] }
      have hcount : ∀ n, s.idCounter + 1 + Int64.ofNat n = s.idCounter + Int64.ofNat (n + 1) := by
        intro n
        rw [Int64.ofNat_add]
        grind
      refine ⟨k :: ks, errors, ?_, .cons hshows hall, ?_⟩
      · rw [show collectFrame decodeUtf8 s (SocketClient.Frame.ofDaemon ⟨_, e.encode⟩) = _ from hcollect]
        refine hrun.trans ?_
        rw [List.length_cons, hcount, List.append_assoc]
        rfl
      · simp [List.range_succ_eq_map, hid, hids, hcount]
    · rw [List.filter_cons_of_neg (by simpa using htype)] at hes
      obtain ⟨errors, hcollect⟩ :=
        collectFrame_other decodeUtf8 (show (SocketClient.Frame.ofDaemon frame).type ≠ _ from htype) s
      obtain ⟨ks, errors', hrun, hrest⟩ := ih hes hsize { s with errors }
      exact ⟨ks, errors', by rw [hcollect]; exact hrun, hrest⟩

end

end BinderTracer.App
