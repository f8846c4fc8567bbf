import BinderTracer.Daemon.Payload
import BinderTracer.Lib.ByteOrder

/-!
# Decoding an event on the daemon's side

`DecodeBinderEvent` and `DecodeStackTraceTLV` of `protocol.go`. Reading a byte string is fallible as
in Go: an index or a slice out of range is a panic. `int` has 64 bits, so the offsets, which stay
below `2 ^ 33`, are natural numbers. The guard counters are global; a call increases at most one of
them, and returns which.
-/

namespace BinderTracer.Daemon

open BinderTracer.Lib

/-- `BinderEventHeaderLen`. -/
abbrev binderEventHeaderLen : Nat := 60

/-- `BinderEventVersionV2`. -/
abbrev binderEventVersionV2 : UInt8 := 2

/-- `ExtFlagHasStackTLV`. -/
abbrev extFlagHasStackTLV : UInt8 := 0x01

/-- `TLVTypeStackTrace`. -/
abbrev tlvTypeStackTrace : UInt8 := 0x01

/-- `tlvHeaderLen`: one byte of type and four of length. -/
abbrev tlvHeaderLen : Nat := 5

/-- The guards that are counted when they fail. -/
inductive Guard where
  /-- The base header is too short. -/
  | g1
  /-- The parcel is truncated. -/
  | g2
  /-- The TLV header is truncated. -/
  | g4
  /-- The TLV payload overflows. -/
  | g5
deriving DecidableEq, Repr

/-- The errors of `DecodeBinderEvent`. -/
inductive DecodeError where
  /-- `ErrTLVGuardFailOpen`. -/
  | tlvGuardFailOpen
  /-- `ErrUnsupportedEventVersion`. -/
  | unsupportedEventVersion
deriving DecidableEq, Repr

/-! ### Reading -/

/-- `data[i]`. -/
def index (data : Bytes) (i : Nat) : Except GoPanic UInt8 :=
  match data[i]? with
  | some b => .ok b
  | none => .error .indexOutOfRange

/-- `data[lo:hi]`. -/
def subslice (data : Bytes) (lo hi : Nat) : Except GoPanic Bytes :=
  if lo ≤ hi ∧ hi ≤ data.length then .ok (slice data lo (hi - lo)) else .error .sliceBoundsOutOfRange

/-- The number that `binary.BigEndian` reads from `data[off:]`. -/
def bigEndian (width : Nat) (data : Bytes) (off : Nat) : Except GoPanic Nat :=
  if data.length < off then .error .sliceBoundsOutOfRange
  else if data.length < off + width then .error .indexOutOfRange
  else .ok (beNat (slice data off width))

def uint16 (data : Bytes) (off : Nat) : Except GoPanic UInt16 := (bigEndian 2 data off).map UInt16.ofNat

def uint32 (data : Bytes) (off : Nat) : Except GoPanic UInt32 := (bigEndian 4 data off).map UInt32.ofNat

def uint64 (data : Bytes) (off : Nat) : Except GoPanic UInt64 := (bigEndian 8 data off).map UInt64.ofNat

section
variable {data : Bytes} {i off : Nat}

theorem index_ok (h : i < data.length) : index data i = .ok (byteAt data i) := by
  rw [index, getElem?_eq_byteAt h]

theorem subslice_ok {n : Nat} (h : off + n ≤ data.length) :
    subslice data off (off + n) = .ok (slice data off n) := by
  rw [subslice, if_pos ⟨Nat.le_add_right off n, h⟩, Nat.add_sub_cancel_left]

theorem bigEndian_ok {width : Nat} (h : off + width ≤ data.length) :
    bigEndian width data off = .ok (beNat (slice data off width)) := by
  rw [bigEndian, if_neg (by omega), if_neg (by omega)]

theorem uint16_ok (h : off + 2 ≤ data.length) : uint16 data off = .ok (beUInt16 data off) := by
  rw [uint16, bigEndian_ok h]
  rfl

theorem uint32_ok (h : off + 4 ≤ data.length) : uint32 data off = .ok (beUInt32 data off) := by
  rw [uint32, bigEndian_ok h]
  rfl

theorem uint64_ok (h : off + 8 ≤ data.length) : uint64 data off = .ok (beUInt64 data off) := by
  rw [uint64, bigEndian_ok h]
  rfl

end

/-! ### Decoding -/

/-- `parseFrames`: `count` frames from `off` on, and the offset after them. -/
def parseFrames (data : Bytes) : Nat → Nat → Except GoPanic (Option (List StackFrame × Nat))
  | 0, off => .ok (some ([], off))
  | count + 1, off => do
    if data.length < off + 20 then return none
    let pc ← uint64 data off
    let mLen ← uint16 data (off + 8)
    let sLen ← uint16 data (off + 10)
    let fOff ← uint64 data (off + 12)
    let off := off + 20
    if data.length < off + mLen.toNat + sLen.toNat then return none
    let module ← subslice data off (off + mLen.toNat)
    let off := off + mLen.toNat
    let symbol ← subslice data off (off + sLen.toNat)
    let off := off + sLen.toNat
    let rest ← parseFrames data count off
    return rest.map fun (frames, off) => ({ pc, module, symbol, offset := fOff } :: frames, off)

/-- The failure reason, which may be missing. -/
def parseFailureReason (data : Bytes) (off : Nat) : Except GoPanic Bytes := do
  if data.length < off + 2 then return []
  let rl ← uint16 data off
  let off := off + 2
  if 0 < rl.toNat ∧ off + rl.toNat ≤ data.length then subslice data off (off + rl.toNat) else return []

/-- `DecodeStackTraceTLV`. -/
def decodeStackTraceTLV (data : Bytes) : Except GoPanic (Option StackTrace) := do
  if data.length < 8 then return none
  let quality ← index data 0
  let truncated ← index data 1
  let kCount ← uint16 data 4
  let uCount ← uint16 data 6
  let some (kFrames, off) ← parseFrames data kCount.toNat 8 | return none
  let some (uFrames, off) ← parseFrames data uCount.toNat off | return none
  let failureReason ← parseFailureReason data off
  return some { quality, truncated, kFrames, uFrames, failureReason }

/-- Guards 3 to 5: the stack trace after the parcel, if there is one. -/
def decodeStackTrace (data : Bytes) (baseEnd : Nat) (extFlags : UInt8) :
    Except GoPanic (Option Guard × Option StackTrace) := do
  if extFlags &&& extFlagHasStackTLV = 0 then return (none, none)
  if data.length < baseEnd + tlvHeaderLen then return (some .g4, none)
  let tlvType ← index data baseEnd
  let tlvLength ← uint32 data (baseEnd + 1)
  if tlvType ≠ tlvTypeStackTrace then return (none, none)
  let maxTlvLen := data.length - baseEnd - tlvHeaderLen
  if maxTlvLen < tlvLength.toNat then return (some .g5, none)
  let tlvStart := baseEnd + tlvHeaderLen
  let payload ← subslice data tlvStart (tlvStart + tlvLength.toNat)
  return (none, ← decodeStackTraceTLV payload)

/-- The event that the base header and the parcel make up. -/
def decodeBase (data : Bytes) (dataSize : UInt32) (baseEnd : Nat) : Except GoPanic BinderEventPayload := do
  return {
    timestamp := (← uint64 data 4).toInt64
    pid := ← uint32 data 12
    uid := ← uint32 data 16
    code := ← uint32 data 20
    flags := ← uint32 data 24
    dataSize
    isReply := ← index data 32
    binderDev := ← index data 33
    targetKind := ← index data 34
    toPid := ← uint32 data 36
    toUid := ← uint32 data 40
    targetRef := ← uint64 data 44
    pairId := ← uint64 data 52
    parcelData := ← subslice data binderEventHeaderLen baseEnd
    stackTrace := none }

/-- `DecodeBinderEvent`. -/
def decodeBinderEvent (data : Bytes) :
    Except GoPanic (Option Guard × Except DecodeError BinderEventPayload) := do
  if data.length < binderEventHeaderLen then return (some .g1, .error .tlvGuardFailOpen)
  let version ← index data 0
  if version ≠ binderEventVersionV2 then return (none, .error .unsupportedEventVersion)
  let extFlags ← index data 1
  let dataSize ← uint32 data 28
  let baseEnd := binderEventHeaderLen + dataSize.toNat
  if data.length < baseEnd then return (some .g2, .error .tlvGuardFailOpen)
  let ev ← decodeBase data dataSize baseEnd
  let (guard, stackTrace) ← decodeStackTrace data baseEnd extFlags
  return (guard, .ok { ev with stackTrace })

/-! ### What the decoder computes -/

/-- A frame at `off` that has its fixed part. -/
theorem parseFrames_succ {data : Bytes} {off : Nat} (count : Nat) (h : off + 20 ≤ data.length) :
    let mLen := (beUInt16 data (off + 8)).toNat
    let sLen := (beUInt16 data (off + 10)).toNat
    parseFrames data (count + 1) off =
      if data.length < off + 20 + mLen + sLen then .ok none
      else (parseFrames data count (off + 20 + mLen + sLen)).map fun rest =>
        rest.map fun (frames, off') =>
          ({ pc := beUInt64 data off, module := slice data (off + 20) mLen,
             symbol := slice data (off + 20 + mLen) sLen, offset := beUInt64 data (off + 12) } :: frames,
            off') := by
  intro mLen sLen
  rw [parseFrames, if_neg (by omega)]
  simp (disch := omega) only [uint64_ok, uint16_ok, bind, Except.bind]
  split
  · rfl
  · next hfits =>
    simp (disch := omega) only [subslice_ok]
    cases parseFrames data count (off + 20 + mLen + sLen) <;> rfl

/-- The event that the base header of `data` and the parcel after it describe. -/
def headerEvent (data : Bytes) : BinderEventPayload where
  timestamp := (beUInt64 data 4).toInt64
  pid := beUInt32 data 12
  uid := beUInt32 data 16
  code := beUInt32 data 20
  flags := beUInt32 data 24
  dataSize := beUInt32 data 28
  isReply := byteAt data 32
  binderDev := byteAt data 33
  targetKind := byteAt data 34
  toPid := beUInt32 data 36
  toUid := beUInt32 data 40
  targetRef := beUInt64 data 44
  pairId := beUInt64 data 52
  parcelData := slice data 60 (beUInt32 data 28).toNat
  stackTrace := none

/-- The decoder on a payload of the supported version that has its base header. -/
theorem decodeBinderEvent_header {data : Bytes} (hlen : 60 ≤ data.length) (hversion : byteAt data 0 = 2) :
    let baseEnd := 60 + (beUInt32 data 28).toNat
    decodeBinderEvent data =
      if data.length < baseEnd then .ok (some .g2, .error .tlvGuardFailOpen)
      else (decodeStackTrace data baseEnd (byteAt data 1)).map fun (guard, stackTrace) =>
        (guard, .ok { headerEvent data with stackTrace }) := by
  intro baseEnd
  rw [decodeBinderEvent, if_neg (Nat.not_lt.2 hlen)]
  simp (disch := omega) only [index_ok, uint32_ok, bind, Except.bind]
  rw [if_neg (not_not_intro hversion)]
  split
  · rfl
  · next hfits =>
    have hbase : decodeBase data (beUInt32 data 28) (binderEventHeaderLen + (beUInt32 data 28).toNat) =
        .ok (headerEvent data) := by
      rw [decodeBase]
      simp (disch := omega) only [index_ok, uint32_ok, uint64_ok, bind, Except.bind]
      rw [subslice_ok (Nat.not_lt.1 hfits)]
      rfl
    simp only [hbase]
    cases decodeStackTrace data (binderEventHeaderLen + (beUInt32 data 28).toNat) (byteAt data 1) <;> rfl

end BinderTracer.Daemon
