import BinderTracer.App.BinderEvent
import BinderTracer.Lib.SignedWords

/-!
# The two decoders

The daemon's `DecodeBinderEvent` and the app's `fromPayload` are meant to accept the same payloads, to
read the same events from them and to count the same guards. They do, except where a 32-bit offset of
the app's decoder overflows (`Overflows`); there the app throws.
-/

namespace BinderTracer.App

open BinderTracer.Lib
open BinderTracer.Daemon (Bytes Guard GoPanic DecodeError BinderEventPayload decodeBinderEvent)

section
variable (decodeUtf8 : List UInt8 → String)

/-! ### Stack traces -/

/-- The app's view of a frame. -/
def StackFrame.ofWire (f : Daemon.StackFrame) : StackFrame :=
  { pc := f.pc.toInt64, module := decodeUtf8 f.module, symbol := decodeUtf8 f.symbol,
    offset := f.offset.toInt64 }

/-- The app's view of a stack trace. -/
def StackTrace.ofWire (st : Daemon.StackTrace) : StackTrace :=
  { quality := StackQuality.fromRaw st.quality, truncated := st.truncated.toUInt32.toInt32
    kFrames := st.kFrames.map (StackFrame.ofWire decodeUtf8)
    uFrames := st.uFrames.map (StackFrame.ofWire decodeUtf8)
    failureReason := if st.failureReason = [] then "" else decodeUtf8 st.failureReason }

/-- The two loops over frames have come to the same result: both gave up, or both read the same frames
and stand at the same offset. -/
inductive FramesAgree (data : Bytes) : Except GoPanic (Option (List Daemon.StackFrame × Nat)) →
    Except Throwable (Option (List StackFrame) × ByteBuffer) → Prop where
  | none (b : ByteBuffer) : FramesAgree data (.ok none) (.ok (none, b))
  | some (frames : List Daemon.StackFrame) (off : Nat) (h : off ≤ data.length) :
      FramesAgree data (.ok (some (frames, off)))
        (.ok (some (frames.map (StackFrame.ofWire decodeUtf8)), { array := data, position := off }))

/-- A frame at `off` that has its fixed part, on the app's side. -/
theorem parseFrames_succ {data : Bytes} {off : Nat} (count : Nat) (h : off + 20 ≤ data.length) :
    let mLen := (beUInt16 data (off + 8)).toNat
    let sLen := (beUInt16 data (off + 10)).toNat
    StackTraceCodec.parseFrames decodeUtf8 (count + 1) { array := data, position := off } =
      if data.length < off + 20 + mLen + sLen then .ok (none, { array := data, position := off + 20 })
      else (StackTraceCodec.parseFrames decodeUtf8 count
          { array := data, position := off + 20 + mLen + sLen }).map fun (rest, b) =>
        (rest.map fun frames =>
          { pc := (beUInt64 data off).toInt64, module := decodeUtf8 (slice data (off + 20) mLen),
            symbol := decodeUtf8 (slice data (off + 20 + mLen) sLen),
            offset := (beUInt64 data (off + 12)).toInt64 } :: frames, b) := by
  intro mLen sLen
  rw [StackTraceCodec.parseFrames, ByteBuffer.bind_ok ByteBuffer.remaining_ok, if_neg (by omega),
    ByteBuffer.bind_ok (ByteBuffer.getLong_ok (by omega)),
    ByteBuffer.bind_ok (ByteBuffer.getShort_ok (by omega)),
    ByteBuffer.bind_ok (ByteBuffer.getShort_ok (by omega)),
    ByteBuffer.bind_ok (ByteBuffer.getLong_ok (by omega)),
    ByteBuffer.bind_ok ByteBuffer.remaining_ok]
  have hs : beUInt16 data (off + 8 + 2) = beUInt16 data (off + 10) := rfl
  have ho : beUInt64 data (off + 8 + 2 + 2) = beUInt64 data (off + 12) := rfl
  have hp : off + 8 + 2 + 2 + 8 = off + 20 := rfl
  rw [hs, ho, hp]
  by_cases hfits : data.length < off + 20 + mLen + sLen
  · rw [if_pos hfits, if_pos (by omega)]
    rfl
  · rw [if_neg hfits, if_neg (by omega), ByteBuffer.bind_ok (ByteBuffer.getBytes_ok (by omega)),
      ByteBuffer.bind_ok (ByteBuffer.getBytes_ok (by omega))]
    simp only [bind, StateT.bind]
    cases StackTraceCodec.parseFrames decodeUtf8 count
      { array := data, position := off + 20 + mLen + sLen } <;> rfl

/-- **The loops over frames agree.** -/
theorem parseFrames_agree (data : Bytes) (count off : Nat) (hoff : off ≤ data.length) :
    FramesAgree decodeUtf8 data (Daemon.parseFrames data count off)
      (StackTraceCodec.parseFrames decodeUtf8 count { array := data, position := off }) := by
  induction count generalizing off with
  | zero => exact .some [] off hoff
  | succ count ih =>
    by_cases h20 : off + 20 ≤ data.length
    · rw [Daemon.parseFrames_succ count h20, parseFrames_succ decodeUtf8 count h20]
      split
      · exact .none _
      · next hfits =>
        have hrest := ih (off + 20 + (beUInt16 data (off + 8)).toNat + (beUInt16 data (off + 10)).toNat)
          (by omega)
        generalize Daemon.parseFrames data count _ = go at hrest
        generalize StackTraceCodec.parseFrames decodeUtf8 count _ = kt at hrest
        cases hrest with
        | none b => exact .none b
        | some frames off' hoff' => exact .some (_ :: frames) off' hoff'
    · have hgo : Daemon.parseFrames data (count + 1) off = .ok none := by
        rw [Daemon.parseFrames, if_pos (by omega)]
        rfl
      have hkt : StackTraceCodec.parseFrames decodeUtf8 (count + 1) { array := data, position := off } =
          .ok (none, { array := data, position := off }) := by
        rw [StackTraceCodec.parseFrames, ByteBuffer.bind_ok ByteBuffer.remaining_ok, if_pos (by omega)]
        rfl
      rw [hgo, hkt]
      exact .none _

/-- The failure reasons agree. -/
theorem parseFailureReason_agree {data : Bytes} {off : Nat} (hoff : off ≤ data.length) :
    ∃ reason b, Daemon.parseFailureReason data off = .ok reason ∧
      StackTraceCodec.parseFailureReason decodeUtf8 { array := data, position := off } =
        .ok (if reason = [] then "" else decodeUtf8 reason, b) := by
  rw [Daemon.parseFailureReason, StackTraceCodec.parseFailureReason,
    ByteBuffer.bind_ok ByteBuffer.remaining_ok]
  by_cases h2 : off + 2 ≤ data.length
  · rw [if_neg (by omega), if_neg (by omega), Daemon.uint16_ok h2,
      ByteBuffer.bind_ok (ByteBuffer.getShort_ok h2), ByteBuffer.bind_ok ByteBuffer.remaining_ok]
    simp only [bind, Except.bind]
    generalize (beUInt16 data off).toNat = rl
    by_cases hrl : 0 < rl ∧ off + 2 + rl ≤ data.length
    · have hne : slice data (off + 2) rl ≠ [] := by
        intro hnil
        have := length_slice hrl.2
        rw [hnil, List.length_nil] at this
        omega
      rw [if_pos hrl, if_pos (by omega)]
      refine ⟨_, { array := data, position := off + 2 + rl }, Daemon.subslice_ok hrl.2, ?_⟩
      rw [if_neg hne]
      exact ByteBuffer.bind_ok (ByteBuffer.getBytes_ok hrl.2)
    · rw [if_neg hrl, if_neg (by omega)]
      exact ⟨[], _, rfl, rfl⟩
  · rw [if_pos (by omega), if_pos (by omega)]
    exact ⟨[], _, rfl, rfl⟩

/-- **The stack traces agree.** -/
theorem decodeSlice_agree (data : Bytes) :
    ∃ st, Daemon.decodeStackTraceTLV data = .ok st ∧
      (StackTraceCodec.decodeSlice decodeUtf8).run' { array := data } =
        .ok (st.map (StackTrace.ofWire decodeUtf8)) := by
  by_cases h8 : 8 ≤ data.length
  · rw [Daemon.decodeStackTraceTLV, if_neg (by omega), StateT.run', StackTraceCodec.decodeSlice,
      ByteBuffer.bind_ok ByteBuffer.remaining_ok, if_neg (by omega),
      ByteBuffer.bind_ok (ByteBuffer.get_ok (by omega)), ByteBuffer.bind_ok (ByteBuffer.get_ok (by omega)),
      ByteBuffer.bind_ok (ByteBuffer.getShort_ok (by omega)),
      ByteBuffer.bind_ok (ByteBuffer.getShort_ok (by omega)),
      ByteBuffer.bind_ok (ByteBuffer.getShort_ok (by omega))]
    simp (disch := omega) only [Daemon.index_ok, Daemon.uint16_ok, bind, Except.bind, StateT.bind]
    have hk : FramesAgree decodeUtf8 data (Daemon.parseFrames data (beUInt16 data 4).toNat 8)
        (StackTraceCodec.parseFrames decodeUtf8 (beUInt16 data (0 + 1 + 1 + 2)).toNat
          { array := data, position := 0 + 1 + 1 + 2 + 2 + 2 }) := parseFrames_agree decodeUtf8 data _ 8 h8
    generalize Daemon.parseFrames data (beUInt16 data 4).toNat 8 = go at hk
    generalize StackTraceCodec.parseFrames decodeUtf8 (beUInt16 data (0 + 1 + 1 + 2)).toNat _ = kt at hk
    cases hk with
    | none b => exact ⟨none, rfl, rfl⟩
    | some kFrames off hoff =>
      have hu : FramesAgree decodeUtf8 data (Daemon.parseFrames data (beUInt16 data 6).toNat off)
          (StackTraceCodec.parseFrames decodeUtf8 (beUInt16 data (0 + 1 + 1 + 2 + 2)).toNat
            { array := data, position := off }) := parseFrames_agree decodeUtf8 data _ off hoff
      simp only
      generalize Daemon.parseFrames data (beUInt16 data 6).toNat off = go at hu
      generalize hkt : StackTraceCodec.parseFrames decodeUtf8 (beUInt16 data (0 + 1 + 1 + 2 + 2)).toNat _ =
        kt at hu
      simp only [StateT.bind, hkt]
      cases hu with
      | none b => exact ⟨none, rfl, rfl⟩
      | some uFrames off' hoff' =>
        obtain ⟨reason, b, hgo, hreason⟩ := parseFailureReason_agree decodeUtf8 hoff'
        simp only [hgo, StateT.bind, bind, Except.bind, hreason]
        exact ⟨_, rfl, rfl⟩
  · refine ⟨none, ?_, ?_⟩
    · rw [Daemon.decodeStackTraceTLV, if_pos (by omega)]
      rfl
    · rw [StateT.run', StackTraceCodec.decodeSlice, ByteBuffer.bind_ok ByteBuffer.remaining_ok,
        if_pos (by omega)]
      rfl

theorem index_ok {payload : Bytes} {i : Int32} {n : Nat} (hi : i.toInt = n) (h : n < payload.length) :
    index payload i = .ok (byteAt payload n) := by
  rw [index, hi, if_pos (by omega)]
  rfl

section
variable {payload : Bytes}

/-- The length in a header of the stack trace. -/
theorem getInt_header {off : Nat} (h : off + 4 ≤ payload.length) :
    ByteBuffer.getInt.run' { array := slice payload off 4 } = .ok (beUInt32 payload off).toInt32 := by
  rw [StateT.run', ByteBuffer.getInt_ok (Nat.le_of_eq (length_slice h).symm)]
  simp only [Functor.map, Except.map, beUInt32, slice_slice payload (show 0 + 4 ≤ 4 by omega), Nat.add_zero]

variable (hsize : payload.length < 2 ^ 31)
include hsize

theorem toInt_size : (Int32.ofNat payload.length).toInt = payload.length :=
  Int32.toInt_ofNat_of_lt hsize

/-- `decode` on a range that lies in the payload. -/
theorem decode_agree {start length : Int32} {off n : Nat} (hstart : start.toInt = off)
    (hlength : length.toInt = n) (hfits : off + n ≤ payload.length) :
    ∃ st, Daemon.decodeStackTraceTLV (slice payload off n) = .ok st ∧
      StackTraceCodec.decode decodeUtf8 payload start length =
        .ok (st.map (StackTrace.ofWire decodeUtf8)) := by
  have hslice := length_slice hfits
  have hshort : length < 8 ↔ n < 8 := lt_iff_of_toInt hlength rfl
  rw [StackTraceCodec.decode]
  by_cases h8 : n < 8
  · refine ⟨none, ?_, ?_⟩
    · rw [Daemon.decodeStackTraceTLV, hslice, if_pos h8]
      rfl
    · rw [if_pos (hshort.2 h8)]
      rfl
  · have hsum := toInt_add_of_lt hstart hlength (by omega)
    have hin : ¬(start < 0 ∨ start + length > Int32.ofNat payload.length) := by
      rw [gt_iff_lt, lt_iff_of_toInt hstart (n := 0) rfl, lt_iff_of_toInt (toInt_size hsize) hsum]
      omega
    rw [if_neg (mt hshort.1 h8), if_neg hin, ByteBuffer.wrapSlice_ok hstart hlength hfits]
    exact decodeSlice_agree decodeUtf8 (slice payload off n)

variable {baseEnd : Int32} {n : Nat} (hbase : baseEnd.toInt = n) (hin : n ≤ payload.length)
include hbase hin

/-- **The guards of the stack trace agree** where its header does not pass `2 ^ 31`. -/
theorem parseStackTraceTLV_agree (extFlags : UInt8) (h : extFlags &&& 0x01 = 0 ∨ n + 5 < 2 ^ 31) :
    ∃ guard st, Daemon.decodeStackTrace payload n extFlags = .ok (guard, st) ∧
      parseStackTraceTLV decodeUtf8 payload baseEnd extFlags =
        .ok (guard, st.map (StackTrace.ofWire decodeUtf8)) := by
  rw [Daemon.decodeStackTrace, parseStackTraceTLV]
  by_cases hflag : extFlags &&& 0x01 = 0
  · rw [if_pos hflag, if_pos hflag]
    exact ⟨none, none, rfl, rfl⟩
  have hn : n + 5 < 2 ^ 31 := h.resolve_left hflag
  have h5 : (baseEnd + 5).toInt = (n + 5 : Nat) := toInt_add_of_lt hbase rfl hn
  have h1 : (baseEnd + 1).toInt = (n + 1 : Nat) := toInt_add_of_lt hbase rfl (by omega)
  have hshort : Int32.ofNat payload.length < baseEnd + 5 ↔ payload.length < n + 5 :=
    lt_iff_of_toInt (toInt_size hsize) h5
  rw [if_neg hflag, if_neg hflag]
  by_cases hg4 : payload.length < n + 5
  · rw [if_pos (hshort.2 hg4), if_pos hg4]
    exact ⟨some .g4, none, rfl, rfl⟩
  rw [if_neg (mt hshort.1 hg4), if_neg hg4, Daemon.index_ok (by omega), Daemon.uint32_ok (by omega),
    index_ok hbase (by omega), ByteBuffer.wrapSlice_ok h1 (n := 4) rfl (by omega)]
  simp only [bind, Except.bind, getInt_header (show n + 1 + 4 ≤ payload.length by omega)]
  by_cases htype : byteAt payload n = 0x01
  · have hmax : (Int32.ofNat payload.length - baseEnd - 5).toInt64.toInt = (payload.length - n - 5 : Nat) := by
      rw [Int32.toInt_toInt64]
      exact toInt_sub_of_le (toInt_sub_of_le (toInt_size hsize) hbase hin) rfl (by omega)
    have hfits : (beUInt32 payload (n + 1)).toInt32.toInt64 &&& 0xFFFFFFFF >
          (Int32.ofNat payload.length - baseEnd - 5).toInt64 ↔
        payload.length - n - 5 < (beUInt32 payload (n + 1)).toNat := by
      rw [gt_iff_lt, Int64.lt_iff_toInt_lt, hmax, toInt_mask_toInt64, Int.ofNat_lt]
    rw [if_neg (not_not_intro htype), if_neg (not_not_intro htype)]
    by_cases hg5 : payload.length - n - 5 < (beUInt32 payload (n + 1)).toNat
    · rw [if_pos (hfits.2 hg5), if_pos hg5]
      exact ⟨some .g5, none, rfl, rfl⟩
    · have hlength : ((beUInt32 payload (n + 1)).toInt32.toInt64 &&& 0xFFFFFFFF).toInt32.toInt =
          (beUInt32 payload (n + 1)).toNat := by
        rw [Int64.toInt_toInt32, toInt_mask_toInt64]
        apply Int.bmod_eq_of_le <;> omega
      obtain ⟨st, hgo, hkt⟩ := decode_agree decodeUtf8 hsize h5 hlength (by omega)
      rw [if_neg (mt hfits.1 hg5), if_neg hg5, Daemon.subslice_ok (show n + 5 + _ ≤ _ by omega)]
      simp only [hgo, hkt]
      exact ⟨none, st, rfl, rfl⟩
  · rw [if_pos htype, if_pos htype]
    exact ⟨none, none, rfl, rfl⟩

/-- Past `2 ^ 31` the fourth guard compares with a negative number, and what follows it reads outside the
payload. -/
theorem parseStackTraceTLV_throws {extFlags : UInt8} (hflag : extFlags &&& 0x01 ≠ 0) (hn : 2 ^ 31 ≤ n + 5) :
    ∃ e, parseStackTraceTLV decodeUtf8 payload baseEnd extFlags = .error e := by
  have h5 : (baseEnd + 5).toInt = (n + 5 : Nat) - 2 ^ 32 := toInt_add_of_overflow hbase rfl hn
  have hg4 : ¬Int32.ofNat payload.length < baseEnd + 5 := by
    rw [Int32.lt_iff_toInt_lt, toInt_size hsize, h5]
    omega
  have hheader : ∃ e, ByteBuffer.wrapSlice payload (baseEnd + 1) 4 = .error e := by
    have h4 : Int32.toInt 4 = 4 := rfl
    refine ⟨.indexOutOfBounds, ?_⟩
    rw [ByteBuffer.wrapSlice, h4, if_neg]
    by_cases h1 : n + 1 < 2 ^ 31
    · rw [toInt_add_of_lt hbase (n := 1) rfl h1]
      omega
    · rw [toInt_add_of_overflow hbase (n := 1) rfl (by omega)]
      omega
  obtain ⟨e, he⟩ := hheader
  rw [parseStackTraceTLV, if_neg hflag, if_neg hg4, he]
  cases index payload baseEnd with
  | error e' => exact ⟨e', rfl⟩
  | ok b => exact ⟨e, rfl⟩

end

/-! ### Events -/

/-- The event that the app makes of the base header of `payload`. -/
def BinderEvent.ofHeader (id : Int64) (payload rawParcel : List UInt8) (stackTrace : Option StackTrace) :
    BinderEvent where
  id
  timestamp := (beUInt64 payload 4).toInt64
  pid := (beUInt32 payload 12).toInt32
  uid := (beUInt32 payload 16).toInt32
  code := (beUInt32 payload 20).toInt32
  flags := (beUInt32 payload 24).toInt32
  rawParcel
  isReply := byteAt payload 32 = 1
  binderDev := BinderDev.fromByte (byteAt payload 33)
  targetKind := TargetKind.fromByte (byteAt payload 34)
  toPid := (beUInt32 payload 36).toInt32
  toUid := (beUInt32 payload 40).toInt32
  targetRef := (beUInt64 payload 44).toInt64
  pairId := (beUInt64 payload 52).toInt64
  stackTrace

/-- The app's decoder on a payload of the supported version that has its base header. -/
theorem fromPayload_header (id : Int64) {payload : Bytes} (hsize : payload.length < 2 ^ 31)
    (hlen : 60 ≤ payload.length) (hversion : byteAt payload 0 = 2) :
    let dataSize := (beUInt32 payload 28).toInt32
    fromPayload decodeUtf8 id payload =
      if dataSize < 0 ∨ 60 + dataSize > Int32.ofNat payload.length then .ok (some .g2, none)
      else do
        let (rawParcel, _) ← ByteBuffer.getBytes dataSize.toInt.toNat { array := payload, position := 60 }
        let (guard, stackTrace) ← parseStackTraceTLV decodeUtf8 payload (60 + dataSize) (byteAt payload 1)
        return (guard, some (BinderEvent.ofHeader id payload rawParcel stackTrace)) := by
  intro dataSize
  have hg1 : ¬Int32.ofNat payload.length < 60 := by
    rw [lt_iff_of_toInt (toInt_size hsize) (n := 60) rfl]
    omega
  rw [fromPayload, if_neg hg1, StateT.run', ByteBuffer.bind_ok (ByteBuffer.get_ok (by omega)),
    if_neg (not_not_intro hversion), readEvent]
  iterate 16
    first
    | rw [ByteBuffer.bind_ok (ByteBuffer.get_ok (by omega))]
    | rw [ByteBuffer.bind_ok (ByteBuffer.getShort_ok (by omega))]
    | rw [ByteBuffer.bind_ok (ByteBuffer.getInt_ok (by omega))]
    | rw [ByteBuffer.bind_ok (ByteBuffer.getLong_ok (by omega))]
  by_cases hg2 : dataSize < 0 ∨ 60 + dataSize > Int32.ofNat payload.length
  · rw [if_pos hg2, if_pos hg2]
    rfl
  · rw [if_neg hg2, if_neg hg2]
    have hposition : 0 + 1 + 1 + 2 + 8 + 4 + 4 + 4 + 4 + 4 + 1 + 1 + 1 + 1 + 4 + 4 + 8 + 8 = 60 := rfl
    rw [hposition]
    simp only [bind, StateT.bind, Except.bind]
    cases ByteBuffer.getBytes dataSize.toInt.toNat { array := payload, position := 60 } with
    | error e => rfl
    | ok r =>
      simp only [Functor.map]
      cases parseStackTraceTLV decodeUtf8 payload (60 + dataSize) (byteAt payload 1) <;> rfl

/-- The app's event `k` is the daemon's event `g`: the integers have the same bits. -/
structure SameEvent (g : BinderEventPayload) (k : BinderEvent) : Prop where
  timestamp : k.timestamp = g.timestamp
  pid : k.pid = g.pid.toInt32
  uid : k.uid = g.uid.toInt32
  code : k.code = g.code.toInt32
  flags : k.flags = g.flags.toInt32
  toPid : k.toPid = g.toPid.toInt32
  toUid : k.toUid = g.toUid.toInt32
  targetRef : k.targetRef = g.targetRef.toInt64
  pairId : k.pairId = g.pairId.toInt64
  parcel : k.rawParcel = g.parcelData
  stackTrace : k.stackTrace = g.stackTrace.map (StackTrace.ofWire decodeUtf8)

/-- Both decoders return, they count the same guard, and they reject `data` or read the same event from
it. -/
inductive DecodersAgree (id : Int64) (data : Bytes) : Prop where
  | rejected (guard : Option Guard) (e : DecodeError) (hgo : decodeBinderEvent data = .ok (guard, .error e))
      (hkt : fromPayload decodeUtf8 id data = .ok (guard, none))
  | accepted (guard : Option Guard) (g : BinderEventPayload) (k : BinderEvent)
      (hgo : decodeBinderEvent data = .ok (guard, .ok g))
      (hkt : fromPayload decodeUtf8 id data = .ok (guard, some k)) (same : SameEvent decodeUtf8 g k)

/-- An offset that the app computes from the size of the parcel passes `2 ^ 31`: the end of the parcel, or
the end of the header of a stack trace that follows a parcel which is there. -/
def Overflows (data : Bytes) : Prop :=
  let baseEnd := 60 + (beUInt32 data 28).toNat
  60 ≤ data.length ∧ byteAt data 0 = 2 ∧
    ((beUInt32 data 28).toNat < 2 ^ 31 ∧ 2 ^ 31 ≤ baseEnd ∨
      byteAt data 1 &&& 0x01 ≠ 0 ∧ baseEnd ≤ data.length ∧ 2 ^ 31 ≤ baseEnd + 5)

instance (data : Bytes) : Decidable (Overflows data) := by
  unfold Overflows
  infer_instance

/-- The second guards agree where the end of the parcel does not pass `2 ^ 31`. -/
theorem secondGuard_iff {data : Bytes} (hsize : data.length < 2 ^ 31)
    (h : (beUInt32 data 28).toNat < 2 ^ 31 → 60 + (beUInt32 data 28).toNat < 2 ^ 31) :
    (beUInt32 data 28).toInt32 < 0 ∨ 60 + (beUInt32 data 28).toInt32 > Int32.ofNat data.length ↔
      data.length < 60 + (beUInt32 data 28).toNat := by
  by_cases hn : (beUInt32 data 28).toNat < 2 ^ 31
  · have hend := toInt_add_of_lt (a := 60) (m := 60) rfl (toInt_toInt32_of_lt hn) (h hn)
    rw [gt_iff_lt, lt_iff_of_toInt (toInt_size hsize) hend,
      lt_iff_of_toInt (toInt_toInt32_of_lt hn) (n := 0) rfl]
    omega
  · have hneg : (beUInt32 data 28).toInt32 < 0 := by
      have := (beUInt32 data 28).toNat_lt
      rw [Int32.lt_iff_toInt_lt, toInt_toInt32, if_neg hn, Int32.toInt_zero]
      omega
    exact iff_of_true (.inl hneg) (by omega)

/-- The app throws where an offset overflows. -/
theorem fromPayload_throws (id : Int64) {data : Bytes} (hsize : data.length < 2 ^ 31)
    (h : Overflows data) : ∃ e, fromPayload decodeUtf8 id data = .error e := by
  obtain ⟨hlen, hversion, h⟩ := h
  have hn : (beUInt32 data 28).toNat < 2 ^ 31 := by omega
  have hds := toInt_toInt32_of_lt hn
  rw [fromPayload_header decodeUtf8 id hsize hlen hversion]
  rcases h with ⟨-, hbase⟩ | ⟨hflag, hfits, hheader⟩
  · -- The second guard compares with a negative number, and the parcel is read past the end.
    have hg2 : ¬((beUInt32 data 28).toInt32 < 0 ∨
        60 + (beUInt32 data 28).toInt32 > Int32.ofNat data.length) := by
      rw [gt_iff_lt, lt_iff_of_toInt hds (n := 0) rfl, Int32.lt_iff_toInt_lt, toInt_size hsize,
        toInt_add_of_overflow (m := 60) rfl hds hbase]
      omega
    rw [if_neg hg2, hds, Int.toNat_natCast, ByteBuffer.getBytes_underflow (by omega)]
    exact ⟨_, rfl⟩
  · have hend := toInt_add_of_lt (a := 60) (m := 60) rfl hds (by omega)
    have hg2 := mt (secondGuard_iff hsize (by omega)).1 (by omega)
    obtain ⟨e, he⟩ := parseStackTraceTLV_throws decodeUtf8 hsize hend hfits hflag hheader
    rw [if_neg hg2, hds, Int.toNat_natCast, ByteBuffer.getBytes_ok hfits, he]
    exact ⟨e, rfl⟩

/-- Where no offset overflows, the decoders agree on a payload that has its base header. -/
theorem decodersAgree_header (id : Int64) {data : Bytes} (hsize : data.length < 2 ^ 31)
    (hlen : 60 ≤ data.length) (hversion : byteAt data 0 = 2) (h : ¬Overflows data) :
    DecodersAgree decodeUtf8 id data := by
  have hgo := Daemon.decodeBinderEvent_header hlen hversion
  have hkt := fromPayload_header decodeUtf8 id hsize hlen hversion
  have hg2 := secondGuard_iff hsize fun hn =>
    Nat.lt_of_not_le fun hno => h ⟨hlen, hversion, .inl ⟨hn, hno⟩⟩
  dsimp only at hgo hkt
  by_cases hfits : data.length < 60 + (beUInt32 data 28).toNat
  · rw [if_pos hfits] at hgo
    rw [if_pos (hg2.2 hfits)] at hkt
    exact .rejected (some .g2) .tlvGuardFailOpen hgo hkt
  · have hin := Nat.not_lt.1 hfits
    have hsmall : (beUInt32 data 28).toNat < 2 ^ 31 := by omega
    have hds := toInt_toInt32_of_lt hsmall
    have hend := toInt_add_of_lt (a := 60) (m := 60) rfl hds (by omega)
    have hheader : byteAt data 1 &&& 0x01 = 0 ∨ 60 + (beUInt32 data 28).toNat + 5 < 2 ^ 31 := by
      by_contra hno
      obtain ⟨hflag, hno⟩ := not_or.1 hno
      exact h ⟨hlen, hversion, .inr ⟨hflag, hin, by omega⟩⟩
    obtain ⟨guard, st, hst, hst'⟩ := parseStackTraceTLV_agree decodeUtf8 hsize hend hin _ hheader
    rw [if_neg hfits, hst] at hgo
    rw [if_neg (mt hg2.1 hfits), hds, Int.toNat_natCast, ByteBuffer.getBytes_ok hin, hst'] at hkt
    exact .accepted guard _ _ hgo hkt ⟨rfl, rfl, rfl, rfl, rfl, rfl, rfl, rfl, rfl, rfl, rfl⟩

/-- The decoders agree on a payload that is too short or has another version. -/
theorem decodersAgree_noHeader (id : Int64) {data : Bytes} (hsize : data.length < 2 ^ 31)
    (h : data.length < 60 ∨ byteAt data 0 ≠ 2) : DecodersAgree decodeUtf8 id data := by
  have hg1 : Int32.ofNat data.length < 60 ↔ data.length < 60 := lt_iff_of_toInt (toInt_size hsize) rfl
  by_cases hlen : data.length < 60
  · refine .rejected (some .g1) .tlvGuardFailOpen ?_ ?_
    · rw [decodeBinderEvent, if_pos hlen]
      rfl
    · rw [fromPayload, if_pos (hg1.2 hlen)]
  · have hversion := h.resolve_left hlen
    refine .rejected none .unsupportedEventVersion ?_ ?_
    · rw [decodeBinderEvent, if_neg hlen, Daemon.index_ok (by omega)]
      simp only [bind, Except.bind]
      rw [if_pos hversion]
      rfl
    · rw [fromPayload, if_neg (mt hg1.1 hlen), StateT.run', ByteBuffer.bind_ok (ByteBuffer.get_ok (by omega)),
        if_pos hversion]
      rfl

/-- **The two decoders agree on a payload exactly when no 32-bit offset overflows.** -/
theorem decoders_agree_iff (id : Int64) (data : Bytes) (hsize : data.length < 2 ^ 31) :
    DecodersAgree decodeUtf8 id data ↔ ¬Overflows data := by
  constructor
  · intro hagree hover
    obtain ⟨e, he⟩ := fromPayload_throws decodeUtf8 id hsize hover
    rcases hagree with ⟨_, _, _, hkt⟩ | ⟨_, _, _, _, hkt, _⟩
    all_goals
      rw [he] at hkt
      exact nomatch hkt
  · intro h
    by_cases hheader : data.length < 60 ∨ byteAt data 0 ≠ 2
    · exact decodersAgree_noHeader decodeUtf8 id hsize hheader
    · rw [not_or, not_not, Nat.not_lt] at hheader
      exact decodersAgree_header decodeUtf8 id hsize hheader.1 hheader.2 h

end

/-- A payload with the given flags and size of the parcel, and with `rest` after a header of zeros. -/
def samplePayload (extFlags : UInt8) (dataSize rest : Bytes) : Bytes :=
  [2, extFlags] ++ List.replicate 26 0 ++ dataSize ++ List.replicate 28 0 ++ rest

/-- A parcel of two bytes and a stack trace with one frame. -/
theorem decoders_agree_traced :
    let data := samplePayload 1 [0, 0, 0, 2]
      ([7, 7, 1, 0, 0, 0, 30, 0, 0, 0, 0, 0, 1, 0, 0] ++ List.replicate 8 5 ++ [0, 1, 0, 1] ++
        List.replicate 8 9 ++ [0x6d, 0x73])
    ¬Overflows data ∧ DecodersAgree decodeAscii 0 data := by
  intro data
  have hsafe : ¬Overflows data := by decide
  exact ⟨hsafe, (decoders_agree_iff decodeAscii 0 data (by decide)).2 hsafe⟩

/-- A header that announces a parcel of `2 ^ 31 - 1` bytes: the daemon counts its second guard, the app
throws. -/
theorem huge_parcel_throws :
    let data := samplePayload 0 [0x7f, 0xff, 0xff, 0xff] []
    decodeBinderEvent data = .ok (some .g2, .error .tlvGuardFailOpen) ∧
      fromPayload decodeAscii 0 data = .error .bufferUnderflow ∧ ¬DecodersAgree decodeAscii 0 data := by
  intro data
  have hkt : fromPayload decodeAscii 0 data = .error .bufferUnderflow := by decide +kernel
  refine ⟨by decide +kernel, hkt, ?_⟩
  rintro (⟨_, _, _, h⟩ | ⟨_, _, _, _, h, _⟩)
  all_goals
    rw [hkt] at h
    exact nomatch h

end BinderTracer.App
