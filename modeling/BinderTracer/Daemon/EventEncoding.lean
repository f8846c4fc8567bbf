import BinderTracer.Daemon.Protocol

/-!
# Encoding an event

`BinderEventPayload.Encode` and `EncodeStackTraceTLV` of `protocol.go`, and the round trip through the
decoders of the same file. Lengths and counts are cut to the width of their field, so a stack trace with a
string of 65536 bytes does not come back; it never damages the base event, which is read from its own bytes.
-/

namespace BinderTracer.Daemon

open BinderTracer.Lib

/-- `binary.BigEndian.PutUint16` and its relatives. -/
def putUint16 (x : UInt16) : Bytes := beBytes 2 x.toNat

def putUint32 (x : UInt32) : Bytes := beBytes 4 x.toNat

def putUint64 (x : UInt64) : Bytes := beBytes 8 x.toNat

/-- `encodeFrame`. -/
def encodeFrame (fr : StackFrame) : Bytes :=
  putUint64 fr.pc ++ (putUint16 (UInt16.ofNat fr.module.length) ++
    (putUint16 (UInt16.ofNat fr.symbol.length) ++ (putUint64 fr.offset ++ (fr.module ++ fr.symbol))))

/-- `EncodeStackTraceTLV`. -/
def encodeStackTraceTLV (st : StackTrace) : Bytes :=
  [st.quality, st.truncated, 0, 0] ++ (putUint16 (UInt16.ofNat st.kFrames.length) ++
    (putUint16 (UInt16.ofNat st.uFrames.length) ++ (st.kFrames.flatMap encodeFrame ++
      (st.uFrames.flatMap encodeFrame ++
        (putUint16 (UInt16.ofNat st.failureReason.length) ++ st.failureReason)))))

/-- The base header. -/
def BinderEventPayload.encodeHeader (e : BinderEventPayload) : Bytes :=
  let extFlags : UInt8 := if e.stackTrace.isSome then extFlagHasStackTLV else 0
  [binderEventVersionV2, extFlags, 0, 0] ++ (putUint64 e.timestamp.toUInt64 ++ (putUint32 e.pid ++
    (putUint32 e.uid ++ (putUint32 e.code ++ (putUint32 e.flags ++
    (putUint32 (UInt32.ofNat e.parcelData.length) ++ ([e.isReply, e.binderDev, e.targetKind, 0] ++
    (putUint32 e.toPid ++ (putUint32 e.toUid ++ (putUint64 e.targetRef ++ putUint64 e.pairId))))))))))

/-- The stack trace with its TLV header, if there is one. -/
def BinderEventPayload.encodeStack (e : BinderEventPayload) : Bytes :=
  let stackTLV := e.stackTrace.elim [] encodeStackTraceTLV
  if 0 < stackTLV.length then
    tlvTypeStackTrace :: (putUint32 (UInt32.ofNat stackTLV.length) ++ stackTLV)
  else []

/-- `Encode`. -/
def BinderEventPayload.encode (e : BinderEventPayload) : Bytes :=
  e.encodeHeader ++ (e.parcelData ++ e.encodeStack)

/-! ### Decoding never fails on a stack trace -/

theorem parseFrames_total (data : Bytes) (count off : Nat) : ∃ r, parseFrames data count off = .ok r := by
  induction count generalizing off with
  | zero => exact ⟨_, rfl⟩
  | succ count ih =>
    by_cases h : off + 20 ≤ data.length
    · rw [parseFrames_succ count h]
      split
      · exact ⟨_, rfl⟩
      · obtain ⟨r, hr⟩ := ih (off + 20 + (beUInt16 data (off + 8)).toNat + (beUInt16 data (off + 10)).toNat)
        rw [hr]
        exact ⟨_, rfl⟩
    · rw [parseFrames, if_pos (by omega)]
      exact ⟨_, rfl⟩

theorem parseFailureReason_eq {data : Bytes} {off : Nat} (h : off + 2 ≤ data.length) :
    parseFailureReason data off = .ok
      (if 0 < (beUInt16 data off).toNat ∧ off + 2 + (beUInt16 data off).toNat ≤ data.length then
        slice data (off + 2) (beUInt16 data off).toNat else []) := by
  rw [parseFailureReason, if_neg (by omega)]
  simp only [uint16_ok h, bind, Except.bind]
  split
  · next hfits => rw [subslice_ok hfits.2]
  · rfl

theorem parseFailureReason_total (data : Bytes) (off : Nat) : ∃ r, parseFailureReason data off = .ok r := by
  by_cases h : off + 2 ≤ data.length
  · exact ⟨_, parseFailureReason_eq h⟩
  · rw [parseFailureReason, if_pos (by omega)]
    exact ⟨_, rfl⟩

theorem decodeStackTraceTLV_total (data : Bytes) : ∃ st, decodeStackTraceTLV data = .ok st := by
  rw [decodeStackTraceTLV]
  by_cases h : 8 ≤ data.length
  · rw [if_neg (by omega)]
    simp (disch := omega) only [index_ok, uint16_ok, bind, Except.bind]
    obtain ⟨k, hk⟩ := parseFrames_total data (beUInt16 data 4).toNat 8
    rw [hk]
    cases k with
    | none => exact ⟨_, rfl⟩
    | some k =>
      obtain ⟨u, hu⟩ := parseFrames_total data (beUInt16 data 6).toNat k.2
      dsimp only
      rw [hu]
      cases u with
      | none => exact ⟨_, rfl⟩
      | some u =>
        obtain ⟨reason, hreason⟩ := parseFailureReason_total data u.2
        dsimp only
        rw [hreason]
        exact ⟨_, rfl⟩
  · rw [if_pos (by omega)]
    exact ⟨_, rfl⟩

/-! ### The round trip of a stack trace -/

/-- The strings of a frame fit in their length fields. -/
def StackFrame.Short (fr : StackFrame) : Prop := fr.module.length < 65536 ∧ fr.symbol.length < 65536

/-- Everything in the stack trace fits in its length field. -/
structure StackTrace.Encodable (st : StackTrace) : Prop where
  kFrames : st.kFrames.length < 65536
  uFrames : st.uFrames.length < 65536
  kShort : ∀ fr ∈ st.kFrames, fr.Short
  uShort : ∀ fr ∈ st.uFrames, fr.Short
  failureReason : st.failureReason.length < 65536
  size : (encodeStackTraceTLV st).length < 2 ^ 32

theorem toNat_ofNat_uint16 {n : Nat} (h : n < 65536) : (UInt16.ofNat n).toNat = n := by
  rw [UInt16.toNat_ofNat']
  exact Nat.mod_eq_of_lt h

@[simp] theorem length_encodeFrame (fr : StackFrame) :
    (encodeFrame fr).length = 20 + fr.module.length + fr.symbol.length := by
  simp only [encodeFrame, putUint64, putUint16, List.length_append, length_beBytes]
  omega

/-- The frame that stands at `off` is the first one parsed. -/
theorem parseFrames_cons {data : Bytes} {fr : StackFrame} {off : Nat} (count : Nat)
    (hfield : FieldAt data off (encodeFrame fr)) (hshort : fr.Short)
    (hfits : off + (encodeFrame fr).length ≤ data.length) :
    parseFrames data (count + 1) off =
      (parseFrames data count (off + (encodeFrame fr).length)).map fun rest =>
        rest.map fun (frames, off') => (fr :: frames, off') := by
  obtain ⟨hpc, hfield⟩ := hfield.append
  obtain ⟨hmLen, hfield⟩ := hfield.append
  obtain ⟨hsLen, hfield⟩ := hfield.append
  obtain ⟨hoffset, hfield⟩ := hfield.append
  obtain ⟨hmodule, hsymbol⟩ := hfield.append
  simp only [putUint64, putUint16, length_beBytes, Nat.add_assoc, Nat.reduceAdd] at *
  rw [length_encodeFrame] at hfits ⊢
  have hm : (beUInt16 data (off + 8)).toNat = fr.module.length := by
    rw [hmLen.beUInt16, toNat_ofNat_uint16 hshort.1]
  have hs : (beUInt16 data (off + 10)).toNat = fr.symbol.length := by
    rw [hsLen.beUInt16, toNat_ofNat_uint16 hshort.2]
  rw [parseFrames_succ count (by omega), hm, hs, if_neg (by omega), hpc.beUInt64, hoffset.beUInt64]
  have hmod : slice data (off + 20) fr.module.length = fr.module := hmodule
  have hsym : slice data (off + 20 + fr.module.length) fr.symbol.length = fr.symbol := by
    rw [Nat.add_assoc]
    exact hsymbol
  rw [hmod, hsym, Nat.add_assoc off, Nat.add_assoc off]

theorem parseFrames_encoded {data : Bytes} {frames : List StackFrame} {off : Nat}
    (hfield : FieldAt data off (frames.flatMap encodeFrame)) (hshort : ∀ fr ∈ frames, fr.Short)
    (hfits : off + (frames.flatMap encodeFrame).length ≤ data.length) :
    parseFrames data frames.length off =
      .ok (some (frames, off + (frames.flatMap encodeFrame).length)) := by
  induction frames generalizing off with
  | nil => rfl
  | cons fr frames ih =>
    rw [List.flatMap_cons] at hfield hfits ⊢
    rw [List.length_append, ← Nat.add_assoc] at hfits ⊢
    obtain ⟨hfirst, hrest⟩ := hfield.append
    rw [List.length_cons, parseFrames_cons _ hfirst (hshort fr List.mem_cons_self) (by omega),
      ih hrest (fun fr' hfr' => hshort fr' (List.mem_cons_of_mem fr hfr')) hfits]
    rfl

/-- **The stack trace comes back**, if everything in it fits in its length field. -/
theorem decode_encodeStackTraceTLV {st : StackTrace} (h : st.Encodable) :
    decodeStackTraceTLV (encodeStackTraceTLV st) = .ok (some st) := by
  generalize hdata : encodeStackTraceTLV st = data
  have hlength : data.length = 8 + (st.kFrames.flatMap encodeFrame).length +
      (st.uFrames.flatMap encodeFrame).length + 2 + st.failureReason.length := by
    rw [← hdata]
    simp only [encodeStackTraceTLV, putUint16, List.length_append, length_beBytes, List.length_cons,
      List.length_nil]
    omega
  have hfield := FieldAt.self data
  nth_rewrite 2 [← hdata] at hfield
  obtain ⟨hflags, hfield⟩ := hfield.append
  obtain ⟨hkCount, hfield⟩ := hfield.append
  obtain ⟨huCount, hfield⟩ := hfield.append
  obtain ⟨hk, hfield⟩ := hfield.append
  obtain ⟨hu, hfield⟩ := hfield.append
  obtain ⟨hrl, hreason⟩ := hfield.append
  simp only [putUint16, length_beBytes, List.length_cons, List.length_nil, Nat.zero_add,
    Nat.reduceAdd] at hkCount huCount hk hu hrl hreason
  have hquality := hflags.byteAt
  have htruncated : byteAt data 1 = st.truncated := hflags.tail.byteAt
  have hkc : (beUInt16 data 4).toNat = st.kFrames.length := by
    rw [hkCount.beUInt16, toNat_ofNat_uint16 h.kFrames]
  have huc : (beUInt16 data 6).toNat = st.uFrames.length := by
    rw [huCount.beUInt16, toNat_ofNat_uint16 h.uFrames]
  have hrc : (beUInt16 data (8 + (st.kFrames.flatMap encodeFrame).length +
      (st.uFrames.flatMap encodeFrame).length)).toNat = st.failureReason.length := by
    rw [hrl.beUInt16, toNat_ofNat_uint16 h.failureReason]
  rw [decodeStackTraceTLV, if_neg (by omega)]
  simp (disch := omega) only [index_ok, uint16_ok, bind, Except.bind]
  rw [hkc, huc, parseFrames_encoded hk h.kShort (by omega)]
  dsimp only
  rw [parseFrames_encoded hu h.uShort (by omega)]
  dsimp only
  rw [parseFailureReason_eq (by omega), hrc]
  have hreason' : (if 0 < st.failureReason.length ∧ 8 + (st.kFrames.flatMap encodeFrame).length +
      (st.uFrames.flatMap encodeFrame).length + 2 + st.failureReason.length ≤ data.length then
        slice data (8 + (st.kFrames.flatMap encodeFrame).length +
          (st.uFrames.flatMap encodeFrame).length + 2) st.failureReason.length else []) =
      st.failureReason := by
    split
    · exact hreason
    · next hempty => exact (List.eq_nil_of_length_eq_zero (by omega)).symm
  rw [hreason', hquality, htruncated]
  rfl

/-! ### The round trip of an event -/

namespace BinderEventPayload

variable (e : BinderEventPayload)

@[simp] theorem length_encodeHeader : e.encodeHeader.length = 60 := by
  simp [encodeHeader, putUint32, putUint64]

/-- What the decoder reads as the base event: everything but the stack trace, with the length of the parcel. -/
theorem headerEvent_encode (hparcel : e.parcelData.length < 2 ^ 32 - 60) :
    headerEvent e.encode = { e with dataSize := UInt32.ofNat e.parcelData.length, stackTrace := none } := by
  generalize hdata : e.encode = data
  have hfield := FieldAt.self data
  nth_rewrite 2 [← hdata] at hfield
  obtain ⟨hheader, hfield⟩ := hfield.append
  obtain ⟨hparcelData, -⟩ := hfield.append
  obtain ⟨-, hheader⟩ := hheader.append
  obtain ⟨htimestamp, hheader⟩ := hheader.append
  obtain ⟨hpid, hheader⟩ := hheader.append
  obtain ⟨huid, hheader⟩ := hheader.append
  obtain ⟨hcode, hheader⟩ := hheader.append
  obtain ⟨hflags, hheader⟩ := hheader.append
  obtain ⟨hdataSize, hheader⟩ := hheader.append
  obtain ⟨hbytes, hheader⟩ := hheader.append
  obtain ⟨htoPid, hheader⟩ := hheader.append
  obtain ⟨htoUid, hheader⟩ := hheader.append
  obtain ⟨htargetRef, hpairId⟩ := hheader.append
  simp only [putUint32, putUint64, length_beBytes, length_encodeHeader, List.length_cons, List.length_nil,
    Nat.zero_add, Nat.reduceAdd] at *
  have hsize : (beUInt32 data 28).toNat = e.parcelData.length := by
    rw [hdataSize.beUInt32, UInt32.toNat_ofNat']
    exact Nat.mod_eq_of_lt (by omega)
  have hslice : slice data 60 e.parcelData.length = e.parcelData := hparcelData
  rw [headerEvent, hsize, hslice, htimestamp.beUInt64, hpid.beUInt32, huid.beUInt32, hcode.beUInt32,
    hflags.beUInt32, hdataSize.beUInt32, hbytes.byteAt, hbytes.tail.byteAt, hbytes.tail.tail.byteAt,
    htoPid.beUInt32, htoUid.beUInt32, htargetRef.beUInt64, hpairId.beUInt64]
  rfl

/-- The decoder on an encoded event: the base event, and whatever becomes of the stack trace. -/
theorem decode_encode_base (hparcel : e.parcelData.length < 2 ^ 32 - 60) :
    decodeBinderEvent e.encode =
      (decodeStackTrace e.encode (60 + e.parcelData.length)
        (if e.stackTrace.isSome then extFlagHasStackTLV else 0)).map fun (guard, stackTrace) =>
          (guard, .ok { e with dataSize := UInt32.ofNat e.parcelData.length, stackTrace }) := by
  have hlength : e.encode.length = 60 + (e.parcelData.length + e.encodeStack.length) := by
    rw [encode, List.length_append, List.length_append, length_encodeHeader]
  have hevent := e.headerEvent_encode hparcel
  have hsize : (beUInt32 e.encode 28).toNat = e.parcelData.length := by
    change (headerEvent e.encode).dataSize.toNat = _
    rw [hevent, UInt32.toNat_ofNat']
    exact Nat.mod_eq_of_lt (by omega)
  have hflags : FieldAt e.encode 0 ([binderEventVersionV2,
      if e.stackTrace.isSome then extFlagHasStackTLV else 0, 0, 0] ++ _) :=
    (FieldAt.self e.encode).append.1
  have hversion : byteAt e.encode 0 = 2 := hflags.append.1.byteAt
  have hext : byteAt e.encode 1 = if e.stackTrace.isSome then extFlagHasStackTLV else 0 :=
    hflags.append.1.tail.byteAt
  rw [decodeBinderEvent_header (by omega) hversion, hsize, if_neg (by omega), hevent, hext]

theorem encodeStack_some {st : StackTrace} (h : e.stackTrace = some st) :
    e.encodeStack = tlvTypeStackTrace ::
      (putUint32 (UInt32.ofNat (encodeStackTraceTLV st).length) ++ encodeStackTraceTLV st) := by
  have hpos : 0 < (encodeStackTraceTLV st).length := by simp [encodeStackTraceTLV]
  simp only [encodeStack, h, Option.elim_some, if_pos hpos]

/-- The guards let the encoded stack trace through, cut to the length that its field tells. -/
theorem decodeStackTrace_encode {st : StackTrace} (h : e.stackTrace = some st) :
    let length := (UInt32.ofNat (encodeStackTraceTLV st).length).toNat
    decodeStackTrace e.encode (60 + e.parcelData.length) extFlagHasStackTLV =
      (decodeStackTraceTLV ((encodeStackTraceTLV st).take length)).map fun stackTrace => (none, stackTrace) := by
  intro length
  have hle : length ≤ (encodeStackTraceTLV st).length := by
    simp only [length, UInt32.toNat_ofNat']
    exact Nat.mod_le _ _
  have hlength : e.encode.length = 60 + e.parcelData.length + 5 + (encodeStackTraceTLV st).length := by
    rw [encode, List.length_append, List.length_append, length_encodeHeader, encodeStack_some e h,
      List.length_cons, List.length_append, putUint32, length_beBytes]
    omega
  have hfield := (FieldAt.self e.encode).append.2.append.2
  rw [encodeStack_some e h, length_encodeHeader, Nat.zero_add] at hfield
  have htype := hfield.byteAt
  obtain ⟨hsize, htlv⟩ := hfield.tail.append
  rw [putUint32, length_beBytes] at htlv
  have hslice : slice e.encode (60 + e.parcelData.length + 5) length = (encodeStackTraceTLV st).take length := by
    have hall : slice e.encode (60 + e.parcelData.length + 5) (encodeStackTraceTLV st).length =
        encodeStackTraceTLV st := htlv
    rw [← hall, slice, slice, List.take_take, Nat.min_eq_left hle]
  rw [decodeStackTrace, if_neg (by decide), if_neg (by change ¬ _ < _ + 5; omega)]
  simp (disch := omega) only [index_ok, uint32_ok, bind, Except.bind]
  rw [htype, hsize.beUInt32, if_neg (by decide)]
  have hmax : ¬ e.encode.length - (60 + e.parcelData.length) - tlvHeaderLen < length := by
    change ¬ _ - _ - 5 < length
    omega
  rw [if_neg hmax, subslice_ok (by change _ + 5 + length ≤ _; omega)]
  dsimp only
  change Except.bind (decodeStackTraceTLV (slice e.encode (60 + e.parcelData.length + 5) length)) _ = _
  rw [hslice]
  rfl

end BinderEventPayload

/-- **Round trip**: an encoded event is decoded to the same base event, whatever its stack trace contains, and
to the same stack trace if everything in that fits in its length field. -/
theorem decode_encode (e : BinderEventPayload) (hparcel : e.parcelData.length < 2 ^ 32 - 60) :
    ∃ guard decoded, decodeBinderEvent e.encode = .ok (guard, .ok decoded) ∧
      decoded.dataSize.toNat = e.parcelData.length ∧
      decoded = { e with dataSize := decoded.dataSize, stackTrace := decoded.stackTrace } ∧
      ((∀ st, e.stackTrace = some st → st.Encodable) → decoded.stackTrace = e.stackTrace) := by
  have hsize : (UInt32.ofNat e.parcelData.length).toNat = e.parcelData.length := by
    rw [UInt32.toNat_ofNat']
    exact Nat.mod_eq_of_lt (by omega)
  have hbase := e.decode_encode_base hparcel
  cases hst : e.stackTrace with
  | none =>
    rw [hst] at hbase
    exact ⟨none, _, hbase, hsize, rfl, fun _ => rfl⟩
  | some st =>
    rw [hst, Option.isSome_some, if_pos rfl, e.decodeStackTrace_encode hst] at hbase
    obtain ⟨stackTrace, htotal⟩ := decodeStackTraceTLV_total
      ((encodeStackTraceTLV st).take (UInt32.ofNat (encodeStackTraceTLV st).length).toNat)
    refine ⟨none, { e with dataSize := UInt32.ofNat e.parcelData.length, stackTrace }, ?_, hsize, rfl,
      fun hencodable => ?_⟩
    · rw [hbase, htotal]
      rfl
    · have hst' := hencodable st rfl
      have hfull : (UInt32.ofNat (encodeStackTraceTLV st).length).toNat = (encodeStackTraceTLV st).length := by
        rw [UInt32.toNat_ofNat']
        exact Nat.mod_eq_of_lt hst'.size
      rw [hfull, List.take_length, decode_encodeStackTraceTLV hst'] at htotal
      exact (Except.ok.inj htotal).symm

/-- A request with a parcel of three bytes and a stack of one frame. -/
def tracedRequest : BinderEventPayload :=
  { timestamp := 5, pid := 100, uid := 10000, code := 1, flags := 0, dataSize := 0, isReply := 0, binderDev := 1,
    targetKind := 0, toPid := 0, toUid := 0, targetRef := 7, pairId := 0, parcelData := [1, 2, 3]
    stackTrace := some
      { quality := 1, truncated := 0, kFrames := []
        uFrames := [{ pc := 0x7000, module := [0x6c, 0x69, 0x62], symbol := [0x66], offset := 16 }]
        failureReason := [] } }

theorem decode_encode_tracedRequest :
    tracedRequest.parcelData.length < 2 ^ 32 - 60 ∧ (∀ st, tracedRequest.stackTrace = some st → st.Encodable) ∧
      ∃ guard decoded, decodeBinderEvent tracedRequest.encode = .ok (guard, .ok decoded) ∧
        decoded = { tracedRequest with dataSize := decoded.dataSize } := by
  have hparcel : tracedRequest.parcelData.length < 2 ^ 32 - 60 := by decide
  have hencodable : ∀ st, tracedRequest.stackTrace = some st → st.Encodable := by
    rintro st ⟨⟩
    have hframe : ∀ fr ∈ [(⟨0x7000, [0x6c, 0x69, 0x62], [0x66], 16⟩ : StackFrame)], fr.Short := by
      intro fr hfr
      rw [List.mem_singleton.1 hfr]
      exact ⟨by decide, by decide⟩
    exact ⟨by decide, by decide, by simp, hframe, by decide, by decide⟩
  refine ⟨hparcel, hencodable, ?_⟩
  obtain ⟨guard, decoded, hdecode, -, hbase, hstack⟩ := decode_encode tracedRequest hparcel
  refine ⟨guard, decoded, hdecode, ?_⟩
  rw [hstack hencodable] at hbase
  exact hbase

end BinderTracer.Daemon
