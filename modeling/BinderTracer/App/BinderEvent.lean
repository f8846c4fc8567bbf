import BinderTracer.App.ByteBuffer
import BinderTracer.Daemon.Protocol

/-!
# Decoding an event on the app's side

`BinderEvent.fromPayload` and `StackTraceCodec` of the app. `String(bytes, UTF_8)` is the parameter
`decodeUtf8`; sizes and offsets are 32-bit signed integers, whose arithmetic wraps around. Allocating
an array succeeds. The guards are those of the daemon, and a call returns the one it counted.
-/

namespace BinderTracer.App

open BinderTracer.Lib
open BinderTracer.Daemon (Guard)

/-! ### Types -/

inductive BinderDev where
  | unknown | binder | hwbinder | vndbinder
deriving DecidableEq, Repr

def BinderDev.fromByte (b : UInt8) : BinderDev :=
  if b = 1 then .binder else if b = 2 then .hwbinder else if b = 3 then .vndbinder else .unknown

inductive TargetKind where
  | unknown | handle | ptr
deriving DecidableEq, Repr

def TargetKind.fromByte (b : UInt8) : TargetKind :=
  if b = 1 then .handle else if b = 2 then .ptr else .unknown

inductive StackQuality where
  | full | fpOnly | degraded | failed
deriving DecidableEq, Repr

def StackQuality.fromRaw (b : UInt8) : StackQuality :=
  if b = 0 then .full else if b = 1 then .fpOnly else if b = 2 then .degraded
  else if b = 3 then .failed else .degraded

structure StackFrame where
  pc : Int64
  module : String
  symbol : String
  offset : Int64
deriving DecidableEq, Repr

structure StackTrace where
  quality : StackQuality
  truncated : Int32
  kFrames : List StackFrame
  uFrames : List StackFrame
  failureReason : String := ""
deriving DecidableEq, Repr

/-- `DecodeSource`: the probe that recognised a parcel. -/
inductive DecodeSource where
  | reply | specialCode | aidlQ | aidlP | aidlO | hidlDescriptor | rawAscii | targetRef
deriving DecidableEq, Repr

/-- What the resolver of methods knows of one. -/
structure MethodSignature where
  methodName : String
  paramTypes : List String
  returnType : Option String
deriving DecidableEq, Repr

/-- `BinderEvent`. The fields from `interfaceName?` on are the results of parsing, filled in later. -/
structure BinderEvent where
  id : Int64
  timestamp : Int64
  pid : Int32
  uid : Int32
  code : Int32
  flags : Int32
  rawParcel : List UInt8
  isReply : Bool := false
  binderDev : BinderDev := .unknown
  targetKind : TargetKind := .unknown
  toPid : Int32 := 0
  toUid : Int32 := 0
  targetRef : Int64 := 0
  pairId : Int64 := 0
  stackTrace : Option StackTrace := none
  interfaceName? : Option String := none
  methodName? : Option String := none
  resolveCandidates : List String := []
  decodeSource : Option DecodeSource := none
deriving DecidableEq, Repr

/-- The text that stands for the method of an event that has none. -/
def BinderEvent.codeText (code : Int32) : String := "code=" ++ toString code.toInt

/-- Whether the flags say that no reply is expected. -/
def isOneway (flags : Int32) : Bool := flags &&& 0x1 = 0x1

def BinderEvent.interfaceName (e : BinderEvent) : String := e.interfaceName?.getD "Unknown"

def BinderEvent.methodName (e : BinderEvent) : String := e.methodName?.getD (codeText e.code)

/-! ### Decoding -/

section
variable (decodeUtf8 : List UInt8 → String)

namespace StackTraceCodec

/-- `parseFrames`: the next `count` frames. -/
def parseFrames : Nat → Reading (Option (List StackFrame))
  | 0 => return some []
  | count + 1 => do
    if (← ByteBuffer.remaining) < 20 then return none
    let pc ← ByteBuffer.getLong
    let mLen ← ByteBuffer.getShort
    let sLen ← ByteBuffer.getShort
    let offset ← ByteBuffer.getLong
    if (← ByteBuffer.remaining) < mLen.toNat + sLen.toNat then return none
    let mb ← ByteBuffer.getBytes mLen.toNat
    let sb ← ByteBuffer.getBytes sLen.toNat
    let rest ← parseFrames count
    return rest.map fun frames =>
      { pc, module := decodeUtf8 mb, symbol := decodeUtf8 sb, offset } :: frames

/-- The failure reason, which may be missing. -/
def parseFailureReason : Reading String := do
  if (← ByteBuffer.remaining) < 2 then return ""
  let rl ← ByteBuffer.getShort
  if 1 ≤ rl.toNat ∧ rl.toNat ≤ (← ByteBuffer.remaining) then
    return decodeUtf8 (← ByteBuffer.getBytes rl.toNat)
  else return ""

/-- The body of `decode`, on the slice. -/
def decodeSlice : Reading (Option StackTrace) := do
  if (← ByteBuffer.remaining) < 8 then return none
  let quality := StackQuality.fromRaw (← ByteBuffer.get)
  let truncated := (← ByteBuffer.get).toUInt32.toInt32
  let _ ← ByteBuffer.getShort
  let kCount ← ByteBuffer.getShort
  let uCount ← ByteBuffer.getShort
  let some kFrames ← parseFrames decodeUtf8 kCount.toNat | return none
  let some uFrames ← parseFrames decodeUtf8 uCount.toNat | return none
  let failureReason ← parseFailureReason decodeUtf8
  return some { quality, truncated, kFrames, uFrames, failureReason }

/-- `decode`. -/
def decode (data : List UInt8) (start length : Int32) : Except Throwable (Option StackTrace) := do
  if length < 8 then return none
  if start < 0 ∨ start + length > Int32.ofNat data.length then return none
  let buf ← ByteBuffer.wrapSlice data start length
  (decodeSlice decodeUtf8).run' buf

end StackTraceCodec

/-- `payload[i]`. -/
def index (payload : List UInt8) (i : Int32) : Except Throwable UInt8 :=
  if 0 ≤ i.toInt ∧ i.toInt < payload.length then .ok (byteAt payload i.toInt.toNat)
  else .error .arrayIndexOutOfBounds

/-- `parseStackTraceTLV`. -/
def parseStackTraceTLV (payload : List UInt8) (baseEnd : Int32) (extFlags : UInt8) :
    Except Throwable (Option Guard × Option StackTrace) := do
  let size := Int32.ofNat payload.length
  if extFlags &&& 0x01 = 0 then return (none, none)
  if size < baseEnd + 5 then return (some .g4, none)
  let tlvType ← index payload baseEnd
  let tlvHeader ← ByteBuffer.wrapSlice payload (baseEnd + 1) 4
  let tlvLength : Int64 := (← ByteBuffer.getInt.run' tlvHeader).toInt64 &&& 0xFFFFFFFF
  if tlvType ≠ 0x01 then return (none, none)
  let maxTlvLen := (size - baseEnd - 5).toInt64
  if tlvLength > maxTlvLen then return (some .g5, none)
  let tlvStart := baseEnd + 5
  match StackTraceCodec.decode decodeUtf8 payload tlvStart tlvLength.toInt32 with
  | .ok stackTrace => return (none, stackTrace)
  | .error _ => return (none, none)

/-- The part of `fromPayload` after the version byte. -/
def readEvent (id : Int64) (payload : List UInt8) : Reading (Option Guard × Option BinderEvent) := do
  let extFlags ← ByteBuffer.get
  let _ ← ByteBuffer.getShort
  let timestamp ← ByteBuffer.getLong
  let pid ← ByteBuffer.getInt
  let uid ← ByteBuffer.getInt
  let code ← ByteBuffer.getInt
  let flags ← ByteBuffer.getInt
  let dataSize ← ByteBuffer.getInt
  let isReplyByte ← ByteBuffer.get
  let binderDevByte ← ByteBuffer.get
  let targetKindByte ← ByteBuffer.get
  let _ ← ByteBuffer.get
  let toPid ← ByteBuffer.getInt
  let toUid ← ByteBuffer.getInt
  let targetRef ← ByteBuffer.getLong
  let pairId ← ByteBuffer.getLong
  let baseEnd := 60 + dataSize
  if dataSize < 0 ∨ baseEnd > Int32.ofNat payload.length then return (some .g2, none)
  let rawParcel ← ByteBuffer.getBytes dataSize.toInt.toNat
  let (guard, stackTrace) ← parseStackTraceTLV decodeUtf8 payload baseEnd extFlags
  return (guard, some {
    id, timestamp, pid, uid, code, flags, rawParcel
    isReply := isReplyByte = 1
    binderDev := BinderDev.fromByte binderDevByte
    targetKind := TargetKind.fromByte targetKindByte
    toPid, toUid, targetRef, pairId, stackTrace })

/-- `fromPayload`; `id` is the value of `idCounter`, which an event that is returned increases. -/
def fromPayload (id : Int64) (payload : List UInt8) :
    Except Throwable (Option Guard × Option BinderEvent) :=
  if Int32.ofNat payload.length < 60 then .ok (some .g1, none)
  else
    (do
      let version ← ByteBuffer.get
      if version ≠ 2 then return (none, none)
      readEvent decodeUtf8 id payload).run' { array := payload }

end

/-- Text without bytes above 127. -/
def decodeAscii (bytes : List UInt8) : String := String.ofList (bytes.map fun b => Char.ofNat b.toNat)

end BinderTracer.App
