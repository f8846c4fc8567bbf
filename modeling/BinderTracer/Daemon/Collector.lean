import BinderTracer.Daemon.Payload
import BinderTracer.Kernel.Records
import BinderTracer.Lib.LruMap
import Mathlib.Data.Finset.Basic

/-!
# The event collector's state

`EventCollector` of `event_collector.go`: the chunk buffers, the four pending maps with their LRU
lists, the duplicate-cookie window and the counters. A `*BinderEventPayload` is a `MainEvent`, whose
`ref` is its allocation number: two events are the same object when their `ref`s are equal. It also
remembers the transaction it was assembled from, which the Go struct does not. Three logs that the Go
program does not keep are added for the statements about whole runs: the arguments of every
`routeMainEvent` call, the events passed to `onEvent`, and the cookies of the sidebands that were
merged into an event, each in order.

Times are nanoseconds as integers, and the telemetry counters do not wrap.
-/

namespace BinderTracer.Daemon

open BinderTracer.Kernel BinderTracer.Lib

/-! ### Constants -/

/-- `TF_ONE_WAY`. -/
def txFlagOneWay : UInt32 := 0x01

/-- Nanoseconds in a second. -/
abbrev second : Int := 1000000000

abbrev staleBufferTTL : Int := 5 * second
abbrev pendingStackTTL : Int := staleBufferTTL
abbrev pendingMainTTL : Int := 5 * second
abbrev pendingOnewayTTL : Int := 1 * second
abbrev recentOnewayEmitTTL : Int := 1 * second
abbrev pendingCookieTTL : Int := staleBufferTTL

def cleanupEveryNEvts : UInt32 := 256
abbrev pendingMainCapacity : Nat := 16384
abbrev pendingOnewayCapacity : Nat := 4096
abbrev recentOnewayCapacity : Nat := 4096
abbrev pendingCookieCapacity : Nat := 16384
abbrev recentCookieRingSize : Nat := 4096

instance : NeZero recentCookieRingSize := ⟨by decide⟩

/-- The longest `[][]byte` that `make` accepts: 24 bytes an element, in an address space of 48 bits. -/
abbrev maxChunkTable : Nat := 2 ^ 48 / 24

/-- The longest `[][]byte` for which there is memory. The chunks of a parcel always have room. -/
structure TableRoom where
  slots : Nat
  enough : maxChunks ≤ slots
  addressable : slots ≤ maxChunkTable
deriving DecidableEq

/-! ### Entries -/

/-- A completed event and its identity. -/
structure MainEvent where
  ref : Nat
  transactionId : UInt64
  payload : BinderEventPayload
deriving DecidableEq, Repr

/-- `txMeta`: what the first record of a transaction settles. -/
structure TxMeta where
  pid : UInt32
  uid : UInt32
  code : UInt32
  flags : UInt32
  dataSize : UInt64
  isReply : UInt8
  binderDev : UInt8
  targetKind : UInt8
  toPid : UInt32
  toUid : UInt32
  targetRef : UInt64
  pairId : UInt64
  cookie : UInt64
deriving DecidableEq, Repr

/-- `txBuffer`: the chunks of a transaction received so far. -/
structure TxBuffer where
  firstSeenNs : Int
  chunks : List (Option ChunkData)
  txMeta : TxMeta
deriving DecidableEq

structure PendingStackEntry where
  stack : StackTraceEvent
  receivedNs : Int
deriving DecidableEq

/-- `pendingMainEntry`; its list element is kept by the `LruMap` entry. -/
structure PendingMainEntry where
  enqueuedNs : Int
  event : MainEvent
  cookie : UInt64 := 0
deriving DecidableEq, Repr

structure PendingOnewayEntry where
  enqueuedNs : Int
  kernelDebugId : UInt64
  toPid : UInt32
  toUid : UInt32
  toUidUnsupported : UInt8
deriving DecidableEq, Repr

structure RecentOnewayEntry where
  enqueuedNs : Int
deriving DecidableEq, Repr

structure PendingCookieEntry where
  cookie : UInt64
  receivedNs : Int
deriving DecidableEq, Repr

/-- `pairFailureCounters`. -/
structure PairFailureCounters where
  entryEarlyReturn : Nat := 0
  sidebandOrphan : Nat := 0
  ringbufOverflowMain : Nat := 0
  ringbufOverflowSideband : Nat := 0
  cookieMonotonicViolation : Nat := 0
  onewaySidebandLate : Nat := 0
deriving DecidableEq, Repr

/-- The arguments of one `routeMainEvent` call. -/
structure Routing where
  event : MainEvent
  cookie : UInt64
  transactionId : UInt64
  nowNs : Int
deriving DecidableEq, Repr

/-- `EventCollector`, as `NewEventCollector` leaves it by default. -/
structure EventCollector where
  transactionBuffers : Table UInt64 TxBuffer := ∅
  eventCounter : UInt32 := 0
  pendingStack : Table UInt64 PendingStackEntry := ∅
  pendingCookieByTxid : LruMap UInt64 PendingCookieEntry := {}
  stackRecordOrphanCount : Nat := 0
  baseRecordNoStackCount : Nat := 0
  pendingMain : LruMap UInt64 PendingMainEntry := {}
  pendingOneway : LruMap UInt64 PendingOnewayEntry := {}
  recentOneway : LruMap UInt64 RecentOnewayEntry := {}
  pendingMainByTxid : LruMap UInt64 PendingMainEntry := {}
  recentCookieSet : Finset UInt64 := ∅
  recentCookieRing : List.Vector UInt64 recentCookieRingSize := List.Vector.replicate _ 0
  recentCookieHead : Fin recentCookieRingSize := 0
  failures : PairFailureCounters := {}
  legacyCookieZeroSyncEmit : Bool := false
  /-- The `routeMainEvent` calls so far. -/
  routed : List Routing := []
  /-- The events passed to `onEvent` so far. -/
  emitted : List MainEvent := []
  /-- The cookies of the sidebands merged into an event so far. -/
  merged : List UInt64 := []

/-- `NewEventCollector`. -/
def newEventCollector : EventCollector := {}

/-- An order in which `range` visits a map: the language does not specify which. -/
structure RangeOrder (α : Type) where
  visit : List α → List α
  perm : ∀ l, (visit l).Perm l

end BinderTracer.Daemon
