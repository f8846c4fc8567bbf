import BinderTracer.Kernel.Records
import BinderTracer.Lib.Layout

/-!
# Ring buffer records as bytes

The structs that the kernel programs fill in the memory reserved in `trace_event_map`. The daemon's structs are
generated from these, so there is one layout for both sides. Reserved fields and the holes that alignment leaves
are not cleared by every program: they may hold anything.
-/

namespace BinderTracer.Kernel

open BinderTracer.Lib

/-- `EVT_KIND_MAIN`. -/
abbrev evtKindMain : UInt8 := 1

/-- `EVT_KIND_SIDEBAND`. -/
abbrev evtKindSideband : UInt8 := 2

/-- `EVT_KIND_COOKIE`. -/
abbrev evtKindCookie : UInt8 := 3

/-- `STACK_RECORD_MAGIC`. -/
abbrev stackRecordMagic : UInt64 := 0xDEADBEEFDEADBEEF

/-- The hole before `data_size`, `reserved2`, and the hole before `target_ref`. -/
abbrev MainPadding := UInt32 × UInt32 × UInt32

/-- `struct binder_trace_event`, with its kind and its padding. -/
def binderTraceEvent : Layout (UInt8 × BinderTraceEvent × MainPadding) :=
  .map
    (Layout.byte.seq (Layout.byte.seq (Layout.byte.seq (Layout.byte.seq (Layout.u32.seq (Layout.u32.seq
      (Layout.u32.seq (Layout.u32.seq (Layout.u32.seq (Layout.u64.seq (Layout.u64.seq (Layout.u64.seq
        (Layout.u64.seq (Layout.u32.seq (Layout.u32.seq (Layout.u32.seq (Layout.u32.seq (Layout.u64.seq
          (Layout.u64.seq (Layout.byte.array chunkSize))))))))))))))))))))
    { toFun := fun ⟨kind, isReply, binderDev, targetKind, pid, uid, code, flags, hole, dataSize, transactionId,
        chunkIndex, cookie, toPid, toUid, reserved2, hole2, targetRef, pairId, chunkData⟩ =>
        (kind, ⟨isReply, binderDev, targetKind, pid, uid, code, flags, dataSize, transactionId, chunkIndex, cookie,
          toPid, toUid, targetRef, pairId, chunkData⟩, hole, reserved2, hole2)
      invFun := fun ⟨kind, e, hole, reserved2, hole2⟩ =>
        (kind, e.isReply, e.binderDev, e.targetKind, e.pid, e.uid, e.code, e.flags, hole, e.dataSize,
          e.transactionId, e.chunkIndex, e.cookie, e.toPid, e.toUid, reserved2, hole2, e.targetRef, e.pairId,
          e.chunkData)
      left_inv := fun _ => rfl
      right_inv := fun _ => rfl }

/-- `reserved0`, `reserved1` and `reserved2`. -/
abbrev SidebandPadding := UInt8 × UInt8 × UInt32

/-- `struct binder_sideband_event`. -/
def binderSidebandEvent : Layout (UInt8 × BinderSidebandEvent × SidebandPadding) :=
  .map
    (Layout.byte.seq (Layout.byte.seq (Layout.byte.seq (Layout.byte.seq (Layout.u32.seq (Layout.u64.seq
      (Layout.u64.seq (Layout.u32.seq Layout.u32))))))))
    { toFun := fun ⟨kind, toUidUnsupported, reserved0, reserved1, reserved2, cookie, kernelDebugId, toPid, toUid⟩ =>
        (kind, { toUidUnsupported, cookie, kernelDebugId, toPid, toUid }, reserved0, reserved1, reserved2)
      invFun := fun ⟨kind, sb, reserved0, reserved1, reserved2⟩ =>
        (kind, sb.toUidUnsupported, reserved0, reserved1, reserved2, sb.cookie, sb.kernelDebugId, sb.toPid, sb.toUid)
      left_inv := fun _ => rfl
      right_inv := fun _ => rfl }

/-- `reserved0` to `reserved4`. -/
abbrev CookiePadding := UInt8 × UInt8 × UInt8 × UInt32 × UInt32

/-- `struct binder_cookie_sideband`. -/
def binderCookieSideband : Layout (UInt8 × BinderCookieSideband × CookiePadding) :=
  .map
    (Layout.byte.seq (Layout.byte.seq (Layout.byte.seq (Layout.byte.seq (Layout.u32.seq (Layout.u64.seq
      (Layout.u64.seq (Layout.u32.seq Layout.u32))))))))
    { toFun := fun ⟨kind, reserved0, reserved1, reserved2, reserved3, cookie, transactionIdHint, tid, reserved4⟩ =>
        (kind, { cookie, transactionIdHint, tid }, reserved0, reserved1, reserved2, reserved3, reserved4)
      invFun := fun ⟨kind, cs, reserved0, reserved1, reserved2, reserved3, reserved4⟩ =>
        (kind, reserved0, reserved1, reserved2, reserved3, cs.cookie, cs.transactionIdHint, cs.tid, reserved4)
      left_inv := fun _ => rfl
      right_inv := fun _ => rfl }

/-- A signed word has the bytes of the unsigned one. -/
def s16 : Layout Int16 :=
  Layout.u16.map
    { toFun := UInt16.toInt16, invFun := Int16.toUInt16, left_inv := fun _ => rfl, right_inv := fun _ => rfl }

/-- `struct stack_trace_event`, with its magic number and `reserved`. -/
def stackTraceEvent : Layout (UInt64 × StackTraceEvent × UInt32) :=
  .map
    (Layout.u64.seq (Layout.u64.seq (Layout.u32.seq (Layout.u32.seq (s16.seq (s16.seq (Layout.u32.seq
      ((Layout.u64.array 32).seq (Layout.u64.array 32)))))))))
    { toFun := fun ⟨magic, transactionId, pid, tid, kstackDepth, ustackDepth, reserved, kstack, ustack⟩ =>
        (magic, { transactionId, pid, tid, kstackDepth, ustackDepth, kstack, ustack }, reserved)
      invFun := fun ⟨magic, st, reserved⟩ =>
        (magic, st.transactionId, st.pid, st.tid, st.kstackDepth, st.ustackDepth, reserved, st.kstack, st.ustack)
      left_inv := fun _ => rfl
      right_inv := fun _ => rfl }

/-- The sizes of the structs. -/
theorem size_binderTraceEvent : binderTraceEvent.size = 1112 := by simp [binderTraceEvent, chunkSize]

theorem size_binderSidebandEvent : binderSidebandEvent.size = 32 := rfl

theorem size_binderCookieSideband : binderCookieSideband.size = 32 := rfl

theorem size_stackTraceEvent : stackTraceEvent.size = 544 := by simp [stackTraceEvent, s16]

/-- The bytes that a program may leave in the ring for a record. -/
inductive RingRecord.Image : RingRecord → List UInt8 → Prop where
  | main (event : BinderTraceEvent) (padding : MainPadding) :
    Image (.main event) (binderTraceEvent.write (evtKindMain, event, padding))
  | sideband (event : BinderSidebandEvent) (padding : SidebandPadding) :
    Image (.sideband event) (binderSidebandEvent.write (evtKindSideband, event, padding))
  | cookie (event : BinderCookieSideband) (padding : CookiePadding) :
    Image (.cookie event) (binderCookieSideband.write (evtKindCookie, event, padding))
  | stack (event : StackTraceEvent) (reserved : UInt32) :
    Image (.stack event) (stackTraceEvent.write (stackRecordMagic, event, reserved))

end BinderTracer.Kernel
