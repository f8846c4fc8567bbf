import BinderTracer.Daemon.StateMachine
import BinderTracer.Lib.Runs

/-!
# Chunk reassembly and the collector's calls

`handleEvent` collects the chunk records of a transaction, and passes the completed event to the
state machine. With it the calls that the read loop and the sweeper make are complete; `step`
performs one of them, and a run of the daemon is `Lib.run step newEventCollector calls`. Calls are
atomic: each one holds its lock over the state it works on.
-/

namespace BinderTracer.Daemon

open BinderTracer.Kernel BinderTracer.Lib

/-- What `handleEvent` gets from its environment: three clock readings, memory and the symbolizer. -/
structure EventEnv where
  nowNs : Int
  /-- The reading of `evictStalePendingStack`. -/
  stackNs : Int
  /-- The reading of `evictStalePendingCookies`. -/
  cookieNs : Int
  room : TableRoom
  symbolizeStackEvent : StackTraceEvent → StackTrace

/-- A standing clock, all the memory that can be addressed, and a symbolizer that fails. -/
def idleEnv : EventEnv :=
  { nowNs := 0, stackNs := 0, cookieNs := 0, room := ⟨maxChunkTable, by decide, Nat.le_refl _⟩,
    symbolizeStackEvent := fun _ =>
      { quality := 3, truncated := 0, kFrames := [], uFrames := [], failureReason := [] } }

/-- `(event.DataSize + ChunkSize - 1) / ChunkSize`. -/
def totalChunks (dataSize : UInt64) : UInt64 := (dataSize + 1024 - 1) / 1024

/-- `make([][]byte, n)`: all slots nil. -/
def makeChunks (room : TableRoom) (n : UInt64) : Except GoPanic (List (Option ChunkData)) :=
  if n.toNat ≤ room.slots then .ok (List.replicate n.toNat none)
  else if n.toNat ≤ maxChunkTable then .error .outOfMemory
  else .error .makesliceLenOutOfRange

/-- The metadata of a transaction, from its first record. -/
def TxMeta.ofRecord (event : BinderTraceEvent) : TxMeta :=
  { pid := event.pid, uid := event.uid, code := event.code, flags := event.flags,
    dataSize := event.dataSize, isReply := event.isReply, binderDev := event.binderDev,
    targetKind := event.targetKind, toPid := event.toPid, toUid := event.toUid,
    targetRef := event.targetRef, pairId := event.pairId, cookie := event.cookie }

/-- Store the record's chunk. The index is compared as an `int` and then used as it is. -/
def storeChunk (chunks : List (Option ChunkData)) (event : BinderTraceEvent) :
    Except GoPanic (List (Option ChunkData)) :=
  if event.chunkIndex.toInt64.toInt < chunks.length then
    if event.chunkIndex.toNat < chunks.length then
      .ok (chunks.set event.chunkIndex.toNat (some event.chunkData))
    else .error .indexOutOfRange
  else .ok chunks

/-- `mergeChunks`. -/
def mergeChunks (chunks : List (Option ChunkData)) : Bytes :=
  chunks.flatMap fun
    | none => []
    | some chunk => chunk.toList

/-- The event made from a transaction's metadata and its parcel. -/
def TxMeta.toPayload (m : TxMeta) (nowNs : Int) (parcelData : Bytes) (stackTrace : Option StackTrace) :
    BinderEventPayload :=
  { timestamp := Int64.ofInt nowNs, pid := m.pid, uid := m.uid, code := m.code, flags := m.flags,
    dataSize := UInt32.ofNat parcelData.length, isReply := m.isReply, binderDev := m.binderDev,
    targetKind := m.targetKind, toPid := m.toPid, toUid := m.toUid, targetRef := m.targetRef,
    pairId := m.pairId, parcelData, stackTrace }

namespace EventCollector

/-- `evictStalePendingStack`. -/
def evictStalePendingStack (c : EventCollector) (nowNs : Int) : EventCollector :=
  let stale := fun p : PendingStackEntry => decide (p.receivedNs < nowNs - pendingStackTTL)
  { c with
    pendingStack := c.pendingStack.retain fun p => !stale p
    stackRecordOrphanCount := c.stackRecordOrphanCount + (c.pendingStack.values.filter stale).length }

/-- `handleStackRecord`. -/
def handleStackRecord (c : EventCollector) (receivedNs staleNs : Int) (st : StackTraceEvent) :
    EventCollector :=
  let entry : PendingStackEntry := { stack := st, receivedNs }
  ({ c with pendingStack := c.pendingStack.insert st.transactionId entry }).evictStalePendingStack staleNs

/-- `takePendingStack` and the symbolization of what it found. -/
def mergePendingStack (c : EventCollector) (transactionId : UInt64)
    (symbolizeStackEvent : StackTraceEvent → StackTrace) : EventCollector × Option StackTrace :=
  match c.pendingStack.lookup transactionId with
  | some p =>
    ({ c with pendingStack := c.pendingStack.erase transactionId }, some (symbolizeStackEvent p.stack))
  | none => ({ c with baseRecordNoStackCount := c.baseRecordNoStackCount + 1 }, none)

/-- Drop the buffers, stacks and cookies that are older than their time to live. -/
def cleanup (c : EventCollector) (env : EventEnv) : EventCollector :=
  let fresh := fun buf : TxBuffer => !decide (buf.firstSeenNs < env.nowNs - staleBufferTTL)
  (({ c with transactionBuffers := c.transactionBuffers.retain fresh }).evictStalePendingStack
    env.stackNs).evictStalePendingCookies env.cookieNs

/-- `maybeCleanup`: clean up on every 256th event. -/
def maybeCleanup (c : EventCollector) (env : EventEnv) : EventCollector :=
  if (c.eventCounter + 1) % cleanupEveryNEvts ≠ 0 then { c with eventCounter := c.eventCounter + 1 }
  else ({ c with eventCounter := c.eventCounter + 1 }).cleanup env

/-- Write the buffer of a transaction back to the map. -/
def putBuffer (c : EventCollector) (transactionId : UInt64) (buf : TxBuffer) : EventCollector :=
  { c with transactionBuffers := c.transactionBuffers.insert transactionId buf }

/-- `delete(c.transactionBuffers, transactionId)`. -/
def closeBuffer (c : EventCollector) (transactionId : UInt64) : EventCollector :=
  { c with transactionBuffers := c.transactionBuffers.erase transactionId }

/-- Take the cookie kept for the transaction, if there is one, into its new buffer. -/
def claimCookie (c : EventCollector) (transactionId : UInt64) (buf : TxBuffer) :
    EventCollector × TxBuffer :=
  match c.pendingCookieByTxid.lookup transactionId with
  | some pe =>
    ({ c with pendingCookieByTxid := c.pendingCookieByTxid.drop transactionId },
      { buf with txMeta := { buf.txMeta with cookie := pe.cookie } })
  | none => (c, buf)

/-- The buffer of the record's transaction. A transaction seen for the first time gets a new one. -/
def openBuffer (c : EventCollector) (env : EventEnv) (event : BinderTraceEvent) :
    Except GoPanic (EventCollector × TxBuffer) :=
  match c.transactionBuffers.lookup event.transactionId with
  | some buf => .ok (c, buf)
  | none => do
    let chunks ← makeChunks env.room (totalChunks event.dataSize)
    let buf : TxBuffer := { firstSeenNs := env.nowNs, chunks, txMeta := TxMeta.ofRecord event }
    return if event.cookie = 0 then c.claimCookie event.transactionId buf else (c, buf)

/-- All chunks are there: close the buffer, check the sizes, build the event and route it. -/
def completeBuffer (c : EventCollector) (env : EventEnv) (transactionId : UInt64) (buf : TxBuffer) :
    Except GoPanic EventCollector :=
  let completeData := mergeChunks buf.chunks
  let c := c.closeBuffer transactionId
  if completeData.length ≤ 16 ∨ completeData.length > chunkSize * maxChunks then .ok c
  else if buf.txMeta.dataSize = 0 ∨ buf.txMeta.dataSize.toInt64.toInt > completeData.length then .ok c
  else if completeData.length < buf.txMeta.dataSize.toNat then .error .sliceBoundsOutOfRange
  else
    let parcelData := completeData.take buf.txMeta.dataSize.toNat
    let (c, stackTrace) := c.mergePendingStack transactionId env.symbolizeStackEvent
    let mainEvent : MainEvent :=
      { ref := c.routed.length, transactionId
        payload := buf.txMeta.toPayload env.nowNs parcelData stackTrace }
    .ok (c.routeMainEvent mainEvent buf.txMeta.cookie transactionId env.nowNs)

/-- `handleEvent`. -/
def handleEvent (c : EventCollector) (env : EventEnv) (event : BinderTraceEvent) :
    Except GoPanic EventCollector := do
  let (c, buf) ← c.openBuffer env event
  let chunks ← storeChunk buf.chunks event
  let buf := { buf with chunks }
  let c := c.putBuffer event.transactionId buf
  let c ← if chunks.all Option.isSome then c.completeBuffer env event.transactionId buf else pure c
  return c.maybeCleanup env

/-! ### What the two steps of `handleEvent` can do -/

/-- A call that returns found or opened a buffer, stored the chunk, and then either waits for more
chunks or closes the buffer. -/
theorem handleEvent_ok {c c' : EventCollector} {env : EventEnv} {event : BinderTraceEvent}
    (h : c.handleEvent env event = .ok c') :
    ∃ c₁ buf chunks, c.openBuffer env event = .ok (c₁, buf) ∧
      storeChunk buf.chunks event = .ok chunks ∧
      let buf' := { buf with chunks }
      let c₂ := c₁.putBuffer event.transactionId buf'
      (chunks.all Option.isSome = false ∧ c' = c₂.maybeCleanup env) ∨
      (chunks.all Option.isSome = true ∧
        ∃ c₃, c₂.completeBuffer env event.transactionId buf' = .ok c₃ ∧ c' = c₃.maybeCleanup env) := by
  unfold handleEvent at h
  cases hopen : c.openBuffer env event with
  | error e => rw [hopen] at h; cases h
  | ok opened =>
    obtain ⟨c₁, buf⟩ := opened
    cases hstore : storeChunk buf.chunks event with
    | error e => simp only [hopen, hstore, bind, Except.bind] at h; cases h
    | ok chunks =>
      refine ⟨c₁, buf, chunks, rfl, hstore, ?_⟩
      simp only [hopen, hstore, bind, Except.bind] at h
      cases hall : chunks.all Option.isSome with
      | false =>
        refine .inl ⟨rfl, ?_⟩
        simp only [hall, Bool.false_eq_true, if_false] at h
        exact (Except.ok.inj h).symm
      | true =>
        refine .inr ⟨rfl, ?_⟩
        simp only [hall, if_true] at h
        split at h
        · cases h
        · next c₃ hcomplete => exact ⟨c₃, hcomplete, (Except.ok.inj h).symm⟩

/-- Closing a buffer discards a transaction of invalid size and routes the event of any other. -/
theorem completeBuffer_ok {c c' : EventCollector} {env : EventEnv} {transactionId : UInt64}
    {buf : TxBuffer} (h : c.completeBuffer env transactionId buf = .ok c') :
    c' = c.closeBuffer transactionId ∨
    (16 < (mergeChunks buf.chunks).length ∧ (mergeChunks buf.chunks).length ≤ chunkSize * maxChunks) ∧
    ∃ c₁ stackTrace,
      (c.closeBuffer transactionId).mergePendingStack transactionId env.symbolizeStackEvent = (c₁, stackTrace) ∧
      c' = c₁.routeMainEvent
        { ref := c₁.routed.length
          transactionId
          payload := buf.txMeta.toPayload env.nowNs
            ((mergeChunks buf.chunks).take buf.txMeta.dataSize.toNat) stackTrace }
        buf.txMeta.cookie transactionId env.nowNs := by
  unfold completeBuffer at h
  simp only at h
  split at h
  · exact .inl (Except.ok.inj h).symm
  next hsize =>
  split at h
  · exact .inl (Except.ok.inj h).symm
  split at h
  · cases h
  · exact .inr ⟨by omega, _, _, rfl, (Except.ok.inj h).symm⟩

/-- `c'` differs from `c` at most in what a record passes before its event is routed: the buffers,
the stacks and cookies that wait for a transaction, and the counts kept of them. -/
def SameMachine (c c' : EventCollector) : Prop :=
  c' = { c with
    transactionBuffers := c'.transactionBuffers
    eventCounter := c'.eventCounter
    pendingStack := c'.pendingStack
    pendingCookieByTxid := c'.pendingCookieByTxid
    stackRecordOrphanCount := c'.stackRecordOrphanCount
    baseRecordNoStackCount := c'.baseRecordNoStackCount }

theorem SameMachine.trans {c₁ c₂ c₃ : EventCollector} (h₁ : SameMachine c₁ c₂) (h₂ : SameMachine c₂ c₃) :
    SameMachine c₁ c₃ := by
  unfold SameMachine at h₂ ⊢
  rw [h₂, h₁]

theorem sameMachine_putBuffer (c : EventCollector) (transactionId : UInt64) (buf : TxBuffer) :
    SameMachine c (c.putBuffer transactionId buf) := rfl

theorem sameMachine_closeBuffer (c : EventCollector) (transactionId : UInt64) :
    SameMachine c (c.closeBuffer transactionId) := rfl

theorem sameMachine_maybeCleanup (c : EventCollector) (env : EventEnv) :
    SameMachine c (c.maybeCleanup env) := by
  unfold maybeCleanup
  split <;> rfl

theorem sameMachine_mergePendingStack (c : EventCollector) (transactionId : UInt64)
    (symbolize : StackTraceEvent → StackTrace) :
    SameMachine c (c.mergePendingStack transactionId symbolize).1 := by
  unfold mergePendingStack
  split <;> rfl

theorem sameMachine_openBuffer {c c' : EventCollector} {env : EventEnv} {event : BinderTraceEvent}
    {buf : TxBuffer} (h : c.openBuffer env event = .ok (c', buf)) : SameMachine c c' := by
  unfold openBuffer at h
  split at h
  · cases h; rfl
  · cases hmake : makeChunks env.room (totalChunks event.dataSize) with
    | error e => rw [hmake] at h; cases h
    | ok chunks =>
      rw [hmake] at h
      have hpair := Except.ok.inj h
      split at hpair
      · unfold claimCookie at hpair
        split at hpair <;> (cases hpair; rfl)
      · cases hpair; rfl

/-- The payload of an event as a completed buffer makes it: its parcel fits into the chunks, and its stack, if
it has one, was symbolized. -/
def MadeIn (env : EventEnv) (p : BinderEventPayload) : Prop :=
  p.parcelData.length ≤ chunkSize * maxChunks ∧
    ∀ st, p.stackTrace = some st → ∃ record, st = env.symbolizeStackEvent record

theorem madeIn_toPayload {c c' : EventCollector} {env : EventEnv} {transactionId : UInt64} {data : Bytes}
    {stackTrace : Option StackTrace} (m : TxMeta) (hdata : data.length ≤ chunkSize * maxChunks)
    (h : c.mergePendingStack transactionId env.symbolizeStackEvent = (c', stackTrace)) :
    MadeIn env (m.toPayload env.nowNs (data.take m.dataSize.toNat) stackTrace) := by
  refine ⟨(List.length_take_le' _ _).trans hdata, ?_⟩
  unfold mergePendingStack at h
  split at h
  · next p _ =>
    cases h
    rintro st hst
    exact ⟨p.stack, (Option.some.inj hst).symm⟩
  · cases h
    rintro st hst
    contradiction

/-- `handleEvent` leaves the state machine alone unless it completes an event, which it then routes. -/
theorem handleEvent_routes {c c' : EventCollector} {env : EventEnv} {event : BinderTraceEvent}
    (h : c.handleEvent env event = .ok c') :
    SameMachine c c' ∨
    ∃ (c₁ : EventCollector) (r : Routing), SameMachine c c₁ ∧ r.event.ref = c.routed.length ∧
      MadeIn env r.event.payload ∧ SameMachine (c₁.routeMainEvent r.event r.cookie r.transactionId r.nowNs) c' := by
  obtain ⟨c₁, buf, chunks, hopen, -, hend⟩ := handleEvent_ok h
  have hstored : SameMachine c (c₁.putBuffer event.transactionId { buf with chunks }) :=
    (sameMachine_openBuffer hopen).trans (sameMachine_putBuffer _ _ _)
  rcases hend with ⟨-, rfl⟩ | ⟨-, c₃, hclose, rfl⟩
  · exact .inl (hstored.trans (sameMachine_maybeCleanup _ env))
  have hclosed := hstored.trans (sameMachine_closeBuffer _ event.transactionId)
  rcases completeBuffer_ok hclose with rfl | ⟨hsize, c₂, stackTrace, hstack, rfl⟩
  · exact .inl (hclosed.trans (sameMachine_maybeCleanup _ env))
  have hc₂ : SameMachine c c₂ := by
    have hmerged := hclosed.trans (sameMachine_mergePendingStack _ event.transactionId env.symbolizeStackEvent)
    rwa [hstack] at hmerged
  have hlen : c₂.routed.length = c.routed.length := by rw [hc₂]
  exact .inr ⟨c₂, ⟨_, buf.txMeta.cookie, event.transactionId, env.nowNs⟩, hc₂, hlen,
    madeIn_toPayload buf.txMeta hsize.2 hstack, sameMachine_maybeCleanup _ env⟩

end EventCollector

/-- A call of the read loop or of the sweeper, with what its environment answers. -/
inductive Call where
  | handleEvent (env : EventEnv) (event : BinderTraceEvent)
  | handleStackRecord (receivedNs staleNs : Int) (st : StackTraceEvent)
  | handleSideband (nowNs : Int) (sb : BinderSidebandEvent)
  | handleCookieSideband (receivedNs staleNs : Int) (cs : BinderCookieSideband)
  | runSweep (now : Int) (mainOrder txidOrder : RangeOrder MainEvent)
  /-- The rest of a `sweepLoop` tick. -/
  | evictStale (stackNs cookieNs : Int)

/-- Perform one call. -/
def step (c : EventCollector) : Call → Except GoPanic EventCollector
  | .handleEvent env event => c.handleEvent env event
  | .handleStackRecord receivedNs staleNs st => .ok (c.handleStackRecord receivedNs staleNs st)
  | .handleSideband nowNs sb => .ok (c.handleSideband nowNs sb)
  | .handleCookieSideband receivedNs staleNs cs => .ok (c.handleCookieSideband receivedNs staleNs cs)
  | .runSweep now mainOrder txidOrder => .ok (c.runSweep now mainOrder txidOrder)
  | .evictStale stackNs cookieNs =>
    .ok ((c.evictStalePendingStack stackNs).evictStalePendingCookies cookieNs)

end BinderTracer.Daemon
