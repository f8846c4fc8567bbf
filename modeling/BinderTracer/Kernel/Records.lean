import Mathlib.Data.Vector.Basic
import Mathlib.Algebra.Order.Ring.Nat

/-!
# Ring buffer records

The four kinds of record that the kernel programs write to the one ring buffer and the daemon reads
back. The two sides share these layouts, so they are declared once; padding and the `kind` byte
(here the constructor of `RingRecord`) are left out.
-/

namespace BinderTracer.Kernel

/-- `CHUNK_SIZE`: bytes of parcel data in one record. -/
def chunkSize : Nat := 0x400

/-- `MAX_CHUNKS`: records the main program writes for one transaction at most. -/
def maxChunks : Nat := 16

/-- The `chunk_data` array. -/
abbrev ChunkData := List.Vector UInt8 chunkSize

/-- `struct binder_trace_event`: one chunk of a transaction, with the transaction's metadata. -/
structure BinderTraceEvent where
  isReply : UInt8
  binderDev : UInt8
  targetKind : UInt8
  pid : UInt32
  uid : UInt32
  code : UInt32
  flags : UInt32
  dataSize : UInt64
  transactionId : UInt64
  chunkIndex : UInt64
  cookie : UInt64
  toPid : UInt32
  toUid : UInt32
  targetRef : UInt64
  pairId : UInt64
  chunkData : ChunkData
deriving DecidableEq

/-- `struct binder_sideband_event`: what the tracepoint knows about a transaction. -/
structure BinderSidebandEvent where
  toUidUnsupported : UInt8
  cookie : UInt64
  kernelDebugId : UInt64
  toPid : UInt32
  toUid : UInt32
deriving DecidableEq, Repr

/-- `struct binder_cookie_sideband`: the cookie allocated for a transaction id. -/
structure BinderCookieSideband where
  cookie : UInt64
  transactionIdHint : UInt64
  tid : UInt32
deriving DecidableEq, Repr

/-- `struct stack_trace_event`: the program counters captured for a transaction. -/
structure StackTraceEvent where
  transactionId : UInt64
  pid : UInt32
  tid : UInt32
  kstackDepth : Int16
  ustackDepth : Int16
  kstack : List.Vector UInt64 32
  ustack : List.Vector UInt64 32
deriving DecidableEq

/-- A record of `trace_event_map`. -/
inductive RingRecord where
  | main (event : BinderTraceEvent)
  | sideband (event : BinderSidebandEvent)
  | cookie (event : BinderCookieSideband)
  | stack (event : StackTraceEvent)
deriving DecidableEq

/-- The chunk records among `records`, in ring order. -/
def chunkRecords (records : List RingRecord) : List BinderTraceEvent :=
  records.filterMap fun
    | .main event => some event
    | _ => none

end BinderTracer.Kernel
