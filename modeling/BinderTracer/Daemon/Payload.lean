import Mathlib.Data.List.Basic
import Mathlib.Algebra.Order.Ring.Nat

/-!
# Event payloads of the daemon

The Go types of `protocol.go` that both the collector and the wire codec work on. A Go string is
its bytes.
-/

namespace BinderTracer.Daemon

/-- Raw bytes, and Go strings. -/
abbrev Bytes := List UInt8

/-- A run-time panic, or a fatal error; `readLoop` does not recover, so it ends the daemon. -/
inductive GoPanic where
  | makesliceLenOutOfRange
  | outOfMemory
  | indexOutOfRange
  | sliceBoundsOutOfRange
deriving DecidableEq, Repr

/-- One symbolized stack frame. -/
structure StackFrame where
  pc : UInt64
  module : Bytes
  symbol : Bytes
  offset : UInt64
deriving DecidableEq, Repr

/-- A symbolized call stack. -/
structure StackTrace where
  quality : UInt8
  truncated : UInt8
  kFrames : List StackFrame
  uFrames : List StackFrame
  failureReason : Bytes
deriving DecidableEq, Repr

/-- `BinderEventPayload`: a complete binder event. -/
structure BinderEventPayload where
  timestamp : Int64
  pid : UInt32
  uid : UInt32
  code : UInt32
  flags : UInt32
  dataSize : UInt32
  isReply : UInt8
  binderDev : UInt8
  targetKind : UInt8
  toPid : UInt32
  toUid : UInt32
  targetRef : UInt64
  pairId : UInt64
  parcelData : Bytes
  stackTrace : Option StackTrace
deriving DecidableEq, Repr

end BinderTracer.Daemon
