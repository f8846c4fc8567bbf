import BinderTracer.Daemon.Accounting
import BinderTracer.Daemon.EventEncoding
import BinderTracer.Daemon.Frames
import BinderTracer.Daemon.Reconnect
import BinderTracer.Daemon.StackQuality
import BinderTracer.Daemon.UserFrames

/-!
# The size of an event on the wire

What `broadcastEvents` does with an event that the collector emits. The parcel of an event and the number of its
frames are bounded, and the names of the frames are not: they come from the symbol tables of the traced process
and from its mappings, and `EncodeStackTraceTLV` appends them whole. An event fits into a frame exactly if its names
do (`emitted_event_fits_iff`). Otherwise `WriteFrame` returns `ErrPayloadTooLong`, which is taken for the loss of the
connection (`long_symbol_reconnects`).
-/

namespace BinderTracer.Daemon

open BinderTracer.Lib BinderTracer.Kernel

abbrev msgTypeBinderEvent : UInt8 := 0x10

/-! ### Lengths -/

/-- The bytes of the modules and symbols of a frame list. -/
def nameBytes (frames : List StackFrame) : Nat := (frames.map fun f => f.module.length + f.symbol.length).sum

/-- The bytes of all names of an event. -/
def BinderEventPayload.nameBytes (e : BinderEventPayload) : Nat :=
  e.stackTrace.elim 0 fun st => Daemon.nameBytes (st.kFrames ++ st.uFrames)

theorem nameBytes_append (frames more : List StackFrame) :
    nameBytes (frames ++ more) = nameBytes frames + nameBytes more := by
  rw [nameBytes, List.map_append, List.sum_append, nameBytes, nameBytes]

theorem length_encodeFrames (frames : List StackFrame) :
    (frames.flatMap encodeFrame).length = 20 * frames.length + nameBytes frames := by
  induction frames with
  | nil => rfl
  | cons fr frames ih =>
    rw [List.flatMap_cons, List.length_append, ih, length_encodeFrame, nameBytes, nameBytes, List.map_cons,
      List.sum_cons, List.length_cons]
    omega

theorem length_encodeStackTraceTLV (st : StackTrace) :
    (encodeStackTraceTLV st).length =
      10 + 20 * (st.kFrames.length + st.uFrames.length) + nameBytes (st.kFrames ++ st.uFrames) +
        st.failureReason.length := by
  simp only [encodeStackTraceTLV, putUint16, List.length_append, List.length_cons, List.length_nil,
    length_beBytes, length_encodeFrames, nameBytes_append]
  omega

namespace BinderEventPayload

/-- What an event takes beside the names: the header, the parcel, and of a stack its fields, its frames and why it is
missing. -/
def fixedBytes (e : BinderEventPayload) : Nat :=
  60 + e.parcelData.length +
    e.stackTrace.elim 0 fun st => 15 + 20 * (st.kFrames.length + st.uFrames.length) + st.failureReason.length

/-- **The length of an event.** -/
theorem length_encode (e : BinderEventPayload) : e.encode.length = e.fixedBytes + e.nameBytes := by
  rw [encode, encodeStack, fixedBytes, nameBytes, List.length_append, List.length_append, length_encodeHeader]
  cases e.stackTrace with
  | none => rfl
  | some st =>
    have hlength := length_encodeStackTraceTLV st
    rw [Option.elim_some, Option.elim_some, Option.elim_some, if_pos (by omega), List.length_cons,
      List.length_append, putUint32, length_beBytes, hlength]
    omega

end BinderEventPayload

/-! ### What the collector emits -/

/-- The stack is one that `symbolizeStackEvent` returns, for whatever the symbolizer knows and reads. -/
def Symbolization (sortMaps : SliceSort mapsEntryLess) (sortSymbols : SliceSort elfSymbolLess)
    (st : StackTrace) : Prop :=
  ∃ symbolizer record reads, st = (symbolizeStackEvent sortMaps sortSymbols symbolizer record reads).1

/-- The call, if it symbolizes, does so with `symbolizeStackEvent`. -/
def Call.Symbolizes (sortMaps : SliceSort mapsEntryLess) (sortSymbols : SliceSort elfSymbolLess) : Call → Prop
  | .handleEvent env _ => ∀ record, Symbolization sortMaps sortSymbols (env.symbolizeStackEvent record)
  | _ => True

/-- An event that the collector can emit. -/
structure Emittable (sortMaps : SliceSort mapsEntryLess) (sortSymbols : SliceSort elfSymbolLess)
    (e : BinderEventPayload) : Prop where
  parcel : e.parcelData.length ≤ chunkSize * maxChunks
  stack : ∀ st, e.stackTrace = some st → Symbolization sortMaps sortSymbols st

theorem length_symbolizeFrames (symbolize : Nat → UInt64 → Symbolizer → SymbolFrame × Symbolizer)
    (s : Option Symbolizer) (i : Nat) (pcs : List UInt64) :
    (symbolizeFrames symbolize s i pcs).1.length ≤ pcs.length := by
  induction pcs generalizing s i with
  | nil => exact Nat.le_refl _
  | cons pc pcs ih =>
    unfold symbolizeFrames
    split
    · exact (ih s (i + 1)).trans (Nat.le_succ _)
    · cases s with
      | none => exact Nat.succ_le_succ (ih none (i + 1))
      | some s => exact Nat.succ_le_succ (ih (some (symbolize i pc s).2) (i + 1))

theorem length_captured (depth : Int16) (stack : List.Vector UInt64 32) : (captured depth stack).length ≤ 32 := by
  unfold captured
  split
  · rw [List.length_take, stack.toList_length]
    exact Nat.min_le_right _ _
  · exact Nat.zero_le _

section
variable {sortMaps : SliceSort mapsEntryLess} {sortSymbols : SliceSort elfSymbolLess}

/-- A stack has at most 32 frames of each kind, or a reason why it has none. -/
theorem Symbolization.bounded {st : StackTrace} (h : Symbolization sortMaps sortSymbols st) :
    20 * (st.kFrames.length + st.uFrames.length) + st.failureReason.length ≤ 20 * (32 + 32) := by
  obtain ⟨symbolizer, record, reads, rfl⟩ := h
  unfold symbolizeStackEvent
  split
  · show 20 * (0 + 0) + captureFailure.length ≤ 20 * (32 + 32)
    decide
  · have hkernel := (length_symbolizeFrames (fun _ pc s => s.symbolizeKernel pc) symbolizer 0 _).trans
      (length_captured record.kstackDepth record.kstack)
    have huser := (length_symbolizeFrames
      (fun i pc s => s.symbolizeUser sortMaps sortSymbols record.pid.toNat pc (reads i))
      (symbolizeFrames (fun _ pc s => s.symbolizeKernel pc) symbolizer 0
        (captured record.kstackDepth record.kstack)).2 0 _).trans
      (length_captured record.ustackDepth record.ustack)
    simp only [resolvedFrames, List.length_map, List.length_nil]
    omega

/-- Without the names an event is short. -/
theorem Emittable.fixedBytes_le {e : BinderEventPayload} (h : Emittable sortMaps sortSymbols e) :
    e.fixedBytes ≤ 17739 := by
  have hparcel : e.parcelData.length ≤ 16384 := h.parcel
  rw [BinderEventPayload.fixedBytes]
  cases hstack : e.stackTrace with
  | none =>
    rw [Option.elim_none]
    omega
  | some st =>
    have hbound := (h.stack st hstack).bounded
    rw [Option.elim_some]
    omega

theorem Emittable.applySideband {e : BinderEventPayload} (h : Emittable sortMaps sortSymbols e)
    (debugID : UInt64) (toPid toUid : UInt32) (toUidUnsupported : UInt8) :
    Emittable sortMaps sortSymbols (Daemon.applySideband e debugID toPid toUid toUidUnsupported) :=
  ⟨h.parcel, h.stack⟩

/-- All events that wait or have been emitted can be emitted. -/
def Pairing.Carries (sortMaps : SliceSort mapsEntryLess) (sortSymbols : SliceSort elfSymbolLess)
    (p : Pairing) : Prop :=
  ∀ ev ∈ p.emitted ++ p.waiting, Emittable sortMaps sortSymbols ev.payload

/-- What is given up had been waiting, so only the events that arrive or pass are new. -/
theorem Releases.carries {p p' : Pairing} {arrived given passed : List MainEvent}
    (h : Releases p p' arrived given passed) (hp : p.Carries sortMaps sortSymbols)
    (hnew : ∀ ev ∈ arrived ++ passed, Emittable sortMaps sortSymbols ev.payload) :
    p'.Carries sortMaps sortSymbols := by
  intro ev hev
  have hheld := @h.held ev
  have hold := hp ev
  have hnew := hnew ev
  rw [h.emitted] at hev
  simp only [List.mem_append] at hev hheld hold hnew
  tauto

/-- One event is emitted, and none is added to those that wait. -/
theorem Pairing.Carries.emits {p p' : Pairing} {ev : MainEvent} (hp : p.Carries sortMaps sortSymbols)
    (hev : Emittable sortMaps sortSymbols ev.payload) (hemitted : p'.emitted = p.emitted ++ [ev])
    (hwaiting : p'.waiting ⊆ p.waiting) : p'.Carries sortMaps sortSymbols := by
  intro other hother
  rw [hemitted, List.append_assoc, List.mem_append] at hother
  rcases hother with hold | hother
  · exact hp other (List.mem_append_left _ hold)
  · rcases List.mem_cons.1 hother with rfl | hheld
    · exact hev
    · exact hp other (List.mem_append_right _ (hwaiting hheld))

namespace EventCollector

theorem carries_emitOneway {c : EventCollector} {ev : MainEvent} {cookie : UInt64} {nowNs : Int}
    (hc : c.pairing.Carries sortMaps sortSymbols) (hev : Emittable sortMaps sortSymbols ev.payload) :
    (c.emitOneway ev cookie nowNs).pairing.Carries sortMaps sortSymbols := by
  unfold emitOneway
  split
  · next pe _ =>
    obtain ⟨recentOneway, hrecord⟩ := recordRecentOnewayEmit_eq
      { c with pendingOneway := c.pendingOneway.drop cookie, merged := c.merged ++ [cookie] } cookie nowNs
    rw [hrecord]
    have hmerged : Emittable sortMaps sortSymbols
        (ev.applySideband pe.kernelDebugId pe.toPid pe.toUid pe.toUidUnsupported).payload := hev.applySideband ..
    exact hc.emits hmerged rfl (List.Subset.refl _)
  · obtain ⟨recentOneway, hrecord⟩ := recordRecentOnewayEmit_eq c cookie nowNs
    rw [hrecord]
    exact hc.emits hev rfl (List.Subset.refl _)

theorem carries_dispatchMainEvent {c : EventCollector} {r : Routing}
    (hc : c.pairing.Carries sortMaps sortSymbols) (hev : Emittable sortMaps sortSymbols r.event.payload) :
    (c.dispatchMainEvent r.event r.cookie r.transactionId r.nowNs).pairing.Carries sortMaps sortSymbols := by
  have harrived : ∀ ev ∈ [r.event] ++ [], Emittable sortMaps sortSymbols ev.payload := by
    intro ev hin
    rw [List.append_nil, List.mem_singleton] at hin
    exact hin ▸ hev
  have hchecked : (c.checkCookieDuplicate r.cookie).pairing.Carries sortMaps sortSymbols := by
    rwa [pairing_checkCookieDuplicate]
  unfold dispatchMainEvent
  split
  · exact hc.emits hev rfl (List.Subset.refl _)
  split
  · split
    · exact hc.emits hev rfl (List.Subset.refl _)
    · obtain ⟨given, hdemote⟩ := releases_demotePendingMainByTxid c r.transactionId
      obtain ⟨given', hpark⟩ := releases_parkPendingMainByTxid
        (c.demotePendingMainByTxid r.transactionId) r.transactionId { enqueuedNs := r.nowNs, event := r.event }
      exact (hdemote.trans hpark).carries hc harrived
  split
  · exact carries_emitOneway hchecked hev
  · obtain ⟨given, hpark⟩ := releases_parkPendingMain (c.checkCookieDuplicate r.cookie) r.cookie
      { enqueuedNs := r.nowNs, event := r.event }
    exact hpark.carries hchecked harrived

theorem carries_handleSideband {c : EventCollector} {nowNs : Int} {sb : BinderSidebandEvent}
    (hc : c.pairing.Carries sortMaps sortSymbols) :
    (c.handleSideband nowNs sb).pairing.Carries sortMaps sortSymbols := by
  unfold handleSideband
  split
  · next pm hlookup =>
    have hpm := hc pm.event (List.mem_append_right _ (List.mem_append_left _ (mem_events hlookup)))
    have hmerged : Emittable sortMaps sortSymbols
        (pm.event.applySideband sb.kernelDebugId sb.toPid sb.toUid sb.toUidUnsupported).payload :=
      hpm.applySideband ..
    exact hc.emits hmerged rfl
      (Pairing.waiting_subset (events_drop c.pendingMain sb.cookie) (List.Subset.refl _))
  split
  · exact hc
  split
  · exact hc
  · exact hc

end EventCollector

/-- **One call keeps what the collector carries.** -/
theorem step_carries {c c' : EventCollector} {call : Call} (hcall : call.Symbolizes sortMaps sortSymbols)
    (hc : c.pairing.Carries sortMaps sortSymbols) (h : step c call = .ok c') :
    c'.pairing.Carries sortMaps sortSymbols := by
  have hnone : ∀ ev ∈ ([] : List MainEvent) ++ [], Emittable sortMaps sortSymbols ev.payload := by simp
  cases call with
  | handleStackRecord receivedNs staleNs st => cases h; exact hc
  | evictStale stackNs cookieNs => cases h; exact hc
  | handleSideband nowNs sb => cases h; exact EventCollector.carries_handleSideband hc
  | handleCookieSideband receivedNs staleNs cs =>
    cases h
    obtain ⟨given, hgiven⟩ := c.releases_handleCookieSideband receivedNs staleNs cs
    exact hgiven.carries hc hnone
  | runSweep now mainOrder txidOrder =>
    cases h
    obtain ⟨given, hgiven⟩ := c.releases_runSweep now mainOrder txidOrder
    exact hgiven.carries hc hnone
  | handleEvent env event =>
    rcases EventCollector.handleEvent_routes h with hsame | ⟨c₁, r, hstarted, -, hmade, hended⟩
    · rwa [hsame.pairing]
    · have hev : Emittable sortMaps sortSymbols r.event.payload := by
        refine ⟨hmade.1, fun st hst => ?_⟩
        obtain ⟨record, rfl⟩ := hmade.2 st hst
        exact hcall record
      have hc₁ : c₁.pairing.Carries sortMaps sortSymbols := by rwa [hstarted.pairing]
      rw [hended.pairing]
      exact EventCollector.carries_dispatchMainEvent (c := { c₁ with routed := c₁.routed ++ [r] }) hc₁ hev

/-- **Every event that the collector emits can be emitted**: over a whole run. -/
theorem run_emittable {calls : List Call} {c : EventCollector} (hrun : run step newEventCollector calls = .ok c)
    (hcalls : ∀ call ∈ calls, call.Symbolizes sortMaps sortSymbols) :
    ∀ ev ∈ c.emitted, Emittable sortMaps sortSymbols ev.payload := by
  have hcarries : c.pairing.Carries sortMaps sortSymbols :=
    run_along (P := fun _ c => c.pairing.Carries sortMaps sortSymbols) (fun ev hev => absurd hev List.not_mem_nil)
      (fun done call m t hpre _ hm hstep => step_carries
        (hcalls call (hpre.subset (List.mem_append_right _ (List.mem_singleton_self call)))) hm hstep) hrun
  exact fun ev hev => hcarries ev (List.mem_append_left _ hev)

end

/-! ### Broadcasting -/

/-- What `safeWriteFrame` tells `broadcastEvents` of an event. -/
def broadcastOutcome (wire : Output) (e : BinderEventPayload) : Outcome :=
  match writeFrame msgTypeBinderEvent e.encode wire with
  | .ok _ _ => .success
  | .error _ _ => .failure

/-- A payload that is not too long is not reported as too long, whatever becomes of the connection. -/
theorem writeFrame_ne_tooLong {msgType : UInt8} {payload : Bytes} (h : payload.length ≤ maxPayloadLen)
    (wire wire' : Output) : writeFrame msgType payload wire ≠ .error .payloadTooLong wire' := by
  intro hwrite
  rw [writeFrame, if_neg (by omega)] at hwrite
  cases hheader : writeAll FrameError.writeHeader (frameHeader msgType payload.length) wire with
  | error e t =>
    rw [EStateM.bind_error hheader] at hwrite
    cases hwrite
    exact absurd (writeAll_error hheader) (by decide)
  | ok u t =>
    rw [EStateM.bind_ok hheader] at hwrite
    split at hwrite
    · exact absurd (writeAll_error hwrite) (by decide)
    · cases hwrite

theorem broadcastOutcome_fits {e : BinderEventPayload} {wire : Output} (h : e.encode.length ≤ maxPayloadLen)
    (hwire : wire.room = none) : broadcastOutcome wire e = .success := by
  have hwrite := @writeFrame_healthy ⟨msgTypeBinderEvent, e.encode⟩ wire h hwire
  rw [broadcastOutcome, hwrite]

theorem broadcastOutcome_tooLong {e : BinderEventPayload} {wire : Output} (h : maxPayloadLen < e.encode.length) :
    broadcastOutcome wire e = .failure := by
  rw [broadcastOutcome, writeFrame_tooLong h]

theorem SocketClient.move_broadcast {client : SocketClient} {i : Nat}
    (hi : client.goroutines[i]? = some .broadcast) : client.move i .broadcast = client := by
  obtain ⟨hlt, hget⟩ := List.getElem?_eq_some_iff.1 hi
  rw [SocketClient.move, ← hget, List.set_getElem_self]

/-- **An event that the collector emits fits into a frame exactly if its names do** beside the rest, which takes at
most 17739 bytes: then the encoded payload has at most `MaxPayloadLen` bytes; then `WriteFrame` does not return
`ErrPayloadTooLong`, whatever becomes of the connection; and then sending the event on a connection that works leaves
the client as it is. -/
theorem emitted_event_fits_iff (sortMaps : SliceSort mapsEntryLess) (sortSymbols : SliceSort elfSymbolLess)
    {calls : List Call} {c : EventCollector} (hrun : run step newEventCollector calls = .ok c)
    (hcalls : ∀ call ∈ calls, call.Symbolizes sortMaps sortSymbols) {ev : MainEvent} (hev : ev ∈ c.emitted) :
    let namesFit := ev.payload.fixedBytes + ev.payload.nameBytes ≤ maxPayloadLen
    ev.payload.fixedBytes ≤ 17739 ∧
      (ev.payload.encode.length ≤ maxPayloadLen ↔ namesFit) ∧
      ((∀ wire wire', writeFrame msgTypeBinderEvent ev.payload.encode wire ≠ .error .payloadTooLong wire') ↔
        namesFit) ∧
      ((∀ (client : SocketClient) (i : Nat) (wire : Output), client.goroutines[i]? = some .broadcast →
        wire.room = none → client.enter i (broadcastOutcome wire ev.payload) = .ok client) ↔ namesFit) := by
  intro namesFit
  have hlength := ev.payload.length_encode
  have hlong : ¬namesFit → maxPayloadLen < ev.payload.encode.length := fun h => by
    rw [hlength]
    exact Nat.lt_of_not_le h
  refine ⟨(run_emittable hrun hcalls ev hev).fixedBytes_le, by rw [hlength], ⟨?_, ?_⟩, ⟨?_, ?_⟩⟩
  · intro hwrites
    by_contra hnot
    exact hwrites {} {} (writeFrame_tooLong (hlong hnot) {})
  · intro hfits
    exact writeFrame_ne_tooLong (hlength ▸ hfits)
  · intro hstays
    by_contra hnot
    have hstay := hstays .connected 0 {} (by decide) rfl
    rw [broadcastOutcome_tooLong (hlong hnot)] at hstay
    exact absurd hstay (by decide +kernel)
  · intro hfits client i wire hi hwire
    rw [SocketClient.enter, hi, broadcastOutcome_fits (hlength ▸ hfits) hwire]
    cases hconn : client.conn with
    | none => exact congrArg Except.ok (SocketClient.move_broadcast hi)
    | some conn => exact congrArg Except.ok (SocketClient.move_broadcast hi)

/-- A one-chunk reply. -/
def replyRecord : BinderTraceEvent :=
  { isReply := 1, binderDev := 1, targetKind := 0, pid := 100, uid := 10000, code := 1, flags := 0,
    dataSize := 20, transactionId := 1, chunkIndex := 0, cookie := 0, toPid := 0, toUid := 0, targetRef := 0,
    pairId := 0, chunkData := List.Vector.replicate chunkSize 0 }

/-- A stack with one user frame, and the reply it belongs to, when the symbolizer returns `st`. -/
def tracedReply (st : StackTrace) : List Call :=
  [.handleStackRecord 0 0 (twoFrames 0 0x7018),
    .handleEvent { idleEnv with symbolizeStackEvent := fun _ => st } replyRecord]

set_option maxRecDepth 100000 in
theorem tracedReply_emits (st : StackTrace) :
    ∃ c ev, run step newEventCollector (tracedReply st) = .ok c ∧ c.emitted = [ev] ∧
      ev.payload.stackTrace = some st :=
  ⟨_, _, rfl, rfl, rfl⟩

/-- A process with one mapping, of a file with one function of this name. -/
def oneFunction (name : Bytes) : UserReads := oneMapping (placedFunction ⟨0, 0⟩ ⟨0x10, 0x10, name⟩)

/-- The stack that the symbolizer returns for it. -/
def namedStack (name : Bytes) : StackTrace :=
  (symbolizeStackEvent sortEntries sortSymbols (some {}) (twoFrames 0 0x7018) fun _ => oneFunction name).1

theorem tracedReply_symbolizes (name : Bytes) :
    ∀ call ∈ tracedReply (namedStack name), call.Symbolizes sortEntries sortSymbols := by
  rintro call hcall
  rcases List.mem_pair.1 hcall with rfl | rfl
  · trivial
  · exact fun record => ⟨_, _, _, rfl⟩

theorem emitted_event_fits_short_name :
    ∃ c ev, run step newEventCollector (tracedReply (namedStack [0x66])) = .ok c ∧ ev ∈ c.emitted ∧
      ev.payload.nameBytes = 3 ∧ ev.payload.encode.length ≤ maxPayloadLen := by
  obtain ⟨c, ev, hrun, hemitted, hstack⟩ := tracedReply_emits (namedStack [0x66])
  have hev : ev ∈ c.emitted := hemitted ▸ List.mem_singleton_self ev
  have hnames : ev.payload.nameBytes = 3 := by
    rw [BinderEventPayload.nameBytes, hstack]
    decide +kernel
  obtain ⟨hfixed, hfits, -⟩ := emitted_event_fits_iff sortEntries sortSymbols hrun (tracedReply_symbolizes [0x66]) hev
  refine ⟨c, ev, hrun, hev, hnames, hfits.2 ?_⟩
  rw [hnames]
  exact (Nat.add_le_add_right hfixed 3).trans (by decide)

/-! ### A long symbol -/

/-- The symbolizer returns the whole name. -/
theorem symbol_oneFunction {name : Bytes} (hname : name ≠ []) :
    (Symbolizer.symbolizeUser sortEntries sortSymbols {} 100 0x7018 (oneFunction name)).1.symbol = name := by
  have hplace : (0x10 : UInt64) ≠ 0 := by decide
  have hends : (0x10 : UInt64).toNat + (0x10 : UInt64).toNat < 2 ^ 64 := by decide
  have hmapped : MappedFile ⟨0x7000, 0x8000, [0x72, 0x78], 0, [0x2F, 0x61]⟩ ⟨0, 0⟩ _
      (placedFunction ⟨0, 0⟩ ⟨0x10, 0x10, name⟩) 100 (oneFunction name) {} :=
    mappedFile_placedFunction (by decide) ⟨0, 0⟩ hplace hplace hname hends 100
  have hcovers : (0x10 : UInt64) ≤ 0 + (0x7018 - 0x7000) ∧ (0x18 : UInt64).toNat < (0x10 : UInt64).toNat +
    (0x10 : UInt64).toNat := by decide
  refine ((hmapped.namesFunction sortEntries sortSymbols (by decide) rfl (by decide) (by decide)).1
    ⟨0x10, 0x10, name⟩ ?_ hcovers).1
  rw [functions_placedFunction _ hplace hname]
  exact List.mem_singleton_self _

theorem namedStack_uFrames (name : Bytes) :
    (namedStack name).uFrames =
      [(Symbolizer.symbolizeUser sortEntries sortSymbols {} 100 0x7018 (oneFunction name)).1.toStackFrame] := by
  have huser : captured 1 (List.Vector.cons 0x7018 (List.Vector.replicate 31 0)) = [0x7018] := by decide
  have hkernel : captured 1 (List.Vector.cons 0 (List.Vector.replicate 31 0)) = [0] := by decide
  rw [namedStack, symbolizeStackEvent, if_neg (by decide), resolvedFrames]
  simp only [twoFrames, huser, hkernel, symbolizeFrames, if_true]
  rfl

/-- A function whose name has 2^20 bytes: the reply with its frame is too long for a frame, and the client, which
was connected, closes the connection and reconnects. -/
theorem long_symbol_reconnects :
    let name := List.replicate maxPayloadLen 0x66
    (∀ call ∈ tracedReply (namedStack name), call.Symbolizes sortEntries sortSymbols) ∧
    ∃ c ev, run step newEventCollector (tracedReply (namedStack name)) = .ok c ∧ ev ∈ c.emitted ∧
      writeFrame msgTypeBinderEvent ev.payload.encode {} = .error .payloadTooLong {} ∧
      ∃ client, run SocketClient.step SocketClient.connected
          [.enter 0 (broadcastOutcome {} ev.payload), .enter 0 .success] = .ok client ∧
        client.conn = none ∧ client.reconnecting = true := by
  intro name
  have hname : name ≠ [] := by
    rw [← List.length_pos_iff, List.length_replicate]
    decide
  obtain ⟨c, ev, hrun, hemitted, hstack⟩ := tracedReply_emits (namedStack name)
  have hlong : maxPayloadLen < ev.payload.encode.length := by
    have hsymbol : maxPayloadLen ≤ nameBytes (namedStack name).uFrames := by
      rw [namedStack_uFrames, nameBytes, List.map_singleton, List.sum_singleton, SymbolFrame.toStackFrame,
        symbol_oneFunction hname, List.length_replicate]
      exact Nat.le_add_left _ _
    rw [ev.payload.length_encode, BinderEventPayload.nameBytes, hstack, Option.elim_some, nameBytes_append,
      BinderEventPayload.fixedBytes]
    omega
  refine ⟨tracedReply_symbolizes name, c, ev, hrun, hemitted ▸ List.mem_singleton_self ev,
    writeFrame_tooLong hlong {}, ?_⟩
  rw [broadcastOutcome_tooLong hlong]
  exact exists_of_endsIn (by decide +kernel)

end BinderTracer.Daemon
