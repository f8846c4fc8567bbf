import BinderTracer.Daemon.Shipment

/-!
# The chunk buffers over a run

What a call can do to the chunk buffers and to the log of routed events, for calls of any kind and
records of any content: a record works on the buffer of its own transaction, a cookie sideband on
the cookie of one, and cleaning up removes old ones. The chunk table of a buffer always has the size
that the record which opened it asked for (`Sized`); from this follows exactly when `handleEvent`
returns.
-/

namespace BinderTracer.Daemon

open BinderTracer.Kernel BinderTracer.Lib

theorem length_mergeChunks {chunks : List (Option ChunkData)} (h : chunks.all Option.isSome = true) :
    (mergeChunks chunks).length = chunks.length * chunkSize := by
  induction chunks with
  | nil => simp [mergeChunks]
  | cons chunk chunks ih =>
    rw [List.all_cons, Bool.and_eq_true] at h
    obtain ⟨data, rfl⟩ := Option.isSome_iff_exists.1 h.1
    have hcons : mergeChunks (some data :: chunks) = data.toList ++ mergeChunks chunks := rfl
    rw [hcons, List.length_append, ih h.2, List.length_cons, data.toList_length, Nat.succ_mul]
    exact Nat.add_comm _ _

namespace EventCollector

/-! ### Cleaning up -/

theorem routed_maybeCleanup (c : EventCollector) (env : EventEnv) :
    (c.maybeCleanup env).routed = c.routed := by
  unfold maybeCleanup
  split <;> rfl

/-- Cleaning up keeps a buffer that is fresh enough. -/
theorem lookup_maybeCleanup {c : EventCollector} {e : EventEnv} {k : UInt64}
    (hfresh : ∀ buf, c.transactionBuffers.lookup k = some buf →
      e.nowNs ≤ buf.firstSeenNs + staleBufferTTL) :
    (c.maybeCleanup e).transactionBuffers.lookup k = c.transactionBuffers.lookup k := by
  unfold maybeCleanup
  split
  · rfl
  · change (c.transactionBuffers.retain _).lookup k = _
    rw [AList.lookup_retain]
    cases hk : c.transactionBuffers.lookup k with
    | none => rfl
    | some buf =>
      have := hfresh buf hk
      have hkeep : ¬ buf.firstSeenNs < e.nowNs - staleBufferTTL := by omega
      simp [Option.filter, hkeep]

/-- Cleaning up opens no buffer. -/
theorem lookup_of_maybeCleanup {c : EventCollector} {env : EventEnv} {k : UInt64} {buf : TxBuffer}
    (h : (c.maybeCleanup env).transactionBuffers.lookup k = some buf) :
    c.transactionBuffers.lookup k = some buf := by
  unfold maybeCleanup at h
  split at h
  · exact h
  · change (c.transactionBuffers.retain _).lookup k = _ at h
    rw [AList.lookup_retain, Option.filter_eq_some_iff] at h
    exact h.1

/-- Cleaning up keeps no cookie that was not there. -/
theorem parked_of_maybeCleanup {c : EventCollector} {env : EventEnv} {k : UInt64}
    (h : (c.maybeCleanup env).pendingCookieByTxid.lookup k ≠ none) :
    c.pendingCookieByTxid.lookup k ≠ none := by
  unfold maybeCleanup at h
  split at h
  · exact h
  · intro hnone
    refine h ?_
    change (c.pendingCookieByTxid.sweep _).lookup k = none
    rw [LruMap.lookup_sweep, hnone]
    rfl

/-! ### Cookie sidebands -/

/-- A cookie sideband gives its cookie to the buffer it names, if that has none yet. -/
theorem lookup_handleCookieSideband (c : EventCollector) (receivedNs staleNs : Int)
    (cs : BinderCookieSideband) (k : UInt64) :
    (c.handleCookieSideband receivedNs staleNs cs).transactionBuffers.lookup k =
      (c.transactionBuffers.lookup k).map fun buf =>
        if cs.transactionIdHint = k ∧ k ≠ 0 ∧ cs.cookie ≠ 0 ∧ buf.txMeta.cookie = 0 then
          { buf with txMeta := { buf.txMeta with cookie := cs.cookie } }
        else buf := by
  have offer : ∀ transactionId cookie,
      (c.offerCookie transactionId cookie receivedNs staleNs).transactionBuffers = c.transactionBuffers := by
    intro transactionId cookie
    obtain ⟨_, hframe⟩ := c.upstream_offerCookie transactionId cookie receivedNs staleNs
    exact congrArg (fun u => u.1.transactionBuffers) hframe
  unfold handleCookieSideband
  split
  · next hzero =>
    have hnot : ∀ buf : TxBuffer,
        ¬ (cs.transactionIdHint = k ∧ k ≠ 0 ∧ cs.cookie ≠ 0 ∧ buf.txMeta.cookie = 0) := by
      rintro buf ⟨rfl, hk, hcookie, -⟩
      exact hzero.elim hk hcookie
    simp [hnot]
  next hnonzero =>
    push Not at hnonzero
    split
    · next buf hbuf =>
      split
      · next hfree =>
        by_cases hk : cs.transactionIdHint = k
        · subst hk
          simp [hbuf, hfree, hnonzero]
        · simp [hk, AList.lookup_insert_ne (Ne.symm hk)]
      · next htaken =>
        rw [offer]
        by_cases hk : cs.transactionIdHint = k
        · subst hk
          simp [hbuf, htaken]
        · simp [hk]
    · next hnone =>
      rw [offer]
      by_cases hk : cs.transactionIdHint = k
      · subst hk
        simp [hnone]
      · simp [hk]

/-! ### Chunk records -/

/-- There is room for the table that a record asks for. -/
def FitsTable (env : EventEnv) (event : BinderTraceEvent) : Prop :=
  (totalChunks event.dataSize).toNat ≤ env.room.slots

/-- The buffer that a record finds, or a new one without any chunk. -/
inductive Opened (c : EventCollector) (env : EventEnv) (event : BinderTraceEvent) : TxBuffer → Prop where
  | found {buf : TxBuffer} (h : c.transactionBuffers.lookup event.transactionId = some buf) : Opened c env event buf
  | fresh {buf : TxBuffer} (cookie : UInt64) (fits : FitsTable env event)
    (chunks : buf.chunks = List.replicate (totalChunks event.dataSize).toNat none)
    (txMeta : buf.txMeta = { TxMeta.ofRecord event with cookie := cookie }) : Opened c env event buf

theorem Opened.sized {c : EventCollector} {env : EventEnv} {event : BinderTraceEvent} {buf : TxBuffer}
    (h : Opened c env event buf) :
    c.transactionBuffers.lookup event.transactionId = some buf ∨ FitsTable env event ∧
      buf.chunks.length = (totalChunks event.dataSize).toNat ∧ buf.txMeta.dataSize = event.dataSize := by
  cases h with
  | found hbuf => exact .inl hbuf
  | fresh cookie hfits hchunks hmeta => exact .inr ⟨hfits, by rw [hchunks, List.length_replicate], by rw [hmeta]; rfl⟩

theorem openBuffer_ok {c c₁ : EventCollector} {env : EventEnv} {event : BinderTraceEvent} {buf : TxBuffer}
    (h : c.openBuffer env event = .ok (c₁, buf)) :
    c₁.transactionBuffers = c.transactionBuffers ∧ c₁.routed = c.routed ∧ c₁.pendingStack = c.pendingStack ∧
      Opened c env event buf := by
  unfold openBuffer at h
  split at h
  · next buf' hbuf =>
    cases h
    exact ⟨rfl, rfl, rfl, .found hbuf⟩
  unfold makeChunks at h
  split at h
  · next hfits =>
    have hpair := Except.ok.inj h
    split at hpair
    · unfold claimCookie at hpair
      split at hpair
      · next pe _ =>
        cases hpair
        exact ⟨rfl, rfl, rfl, .fresh pe.cookie hfits rfl rfl⟩
      · cases hpair
        exact ⟨rfl, rfl, rfl, .fresh event.cookie hfits rfl rfl⟩
    · cases hpair
      exact ⟨rfl, rfl, rfl, .fresh event.cookie hfits rfl rfl⟩
  · split at h <;> cases h

theorem storeChunk_ok {chunks chunks' : List (Option ChunkData)} {event : BinderTraceEvent}
    (h : storeChunk chunks event = .ok chunks') : chunks'.length = chunks.length := by
  unfold storeChunk at h
  split at h
  · split at h
    · cases h
      exact List.length_set
    · cases h
  · cases h
    rfl

theorem mergePendingStack_frame (c : EventCollector) (transactionId : UInt64)
    (symbolize : StackTraceEvent → StackTrace) :
    (c.mergePendingStack transactionId symbolize).1.intake = c.intake := by
  unfold mergePendingStack
  split <;> rfl

/-- Routing an event logs it and leaves the buffers and the stacks alone. -/
theorem routeMainEvent_frame (c : EventCollector) (r : Routing) :
    let c' := c.routeMainEvent r.event r.cookie r.transactionId r.nowNs
    c'.transactionBuffers = c.transactionBuffers ∧ c'.routed = c.routed ++ [r] ∧ c'.pendingStack = c.pendingStack := by
  have hframe := upstream_dispatchMainEvent { c with routed := c.routed ++ [r] } r.event r.cookie
    r.transactionId r.nowNs
  exact ⟨congrArg (fun u => u.1.transactionBuffers) hframe, congrArg (fun u => u.1.routed) hframe,
    congrArg Prod.snd hframe⟩

/-- The stack of an event is the one that waited under its transaction's name. -/
theorem mergePendingStack_stack {c c' : EventCollector} {transactionId : UInt64}
    {symbolize : StackTraceEvent → StackTrace} {stackTrace : Option StackTrace}
    (h : c.mergePendingStack transactionId symbolize = (c', stackTrace)) :
    (∀ k p, c'.pendingStack.lookup k = some p → c.pendingStack.lookup k = some p) ∧
      ∀ st, stackTrace = some st → ∃ p, c.pendingStack.lookup transactionId = some p ∧ st = symbolize p.stack := by
  unfold mergePendingStack at h
  split at h
  · next p hp =>
    cases h
    refine ⟨fun k q hq => ?_, fun st hst => ⟨p, hp, (Option.some.inj hst).symm⟩⟩
    change (c.pendingStack.erase transactionId).lookup k = some q at hq
    by_cases hk : k = transactionId
    · rw [hk, AList.lookup_erase] at hq
      cases hq
    · rwa [AList.lookup_erase_ne hk] at hq
  · cases h
    exact ⟨fun k q hq => hq, fun st hst => by cases hst⟩

/-- Routing a complete shipment closes its buffer and logs its event. -/
theorem routeShipment_frame (c : EventCollector) (env : EventEnv) (s : Shipment) (cookie : UInt64) :
    (c.routeShipment env s cookie).transactionBuffers = c.transactionBuffers.erase s.txid ∧
      ∃ stackTrace, (c.routeShipment env s cookie).routed = c.routed ++
        [⟨s.event c.routed.length env.nowNs stackTrace, cookie, s.txid, env.nowNs⟩] := by
  let merged := (c.closeBuffer s.txid).mergePendingStack s.txid env.symbolizeStackEvent
  have hmerge : merged.1.intake = (c.closeBuffer s.txid).intake := mergePendingStack_frame _ _ _
  have hrouted : merged.1.routed = c.routed := congrArg Intake.routed hmerge
  obtain ⟨hb, hr, -⟩ := routeMainEvent_frame merged.1
    ⟨s.event merged.1.routed.length env.nowNs merged.2, cookie, s.txid, env.nowNs⟩
  refine ⟨hb.trans (congrArg Intake.transactionBuffers hmerge), merged.2, hr.trans ?_⟩
  rw [hrouted]

/-- What a chunk record leads to: it is added to the buffer of its transaction; or the buffer was completed by it
and is gone, and then at most one event is routed, made from the buffer's metadata and its chunks. -/
inductive RecordEffect (c m : EventCollector) (env : EventEnv) (event : BinderTraceEvent) (buf : TxBuffer)
    (chunks : List (Option ChunkData)) : Prop where
  | waits (routed : m.routed = c.routed)
    (stored : m.transactionBuffers.lookup event.transactionId = some { buf with chunks })
  | discarded (routed : m.routed = c.routed) (closed : m.transactionBuffers.lookup event.transactionId = none)
  | routes (r : Routing) (routed : m.routed = c.routed ++ [r])
    (closed : m.transactionBuffers.lookup event.transactionId = none)
    (complete : chunks.all Option.isSome = true)
    (low : 1 ≤ chunks.length) (high : chunks.length ≤ maxChunks)
    (name : r.transactionId = event.transactionId) (inner : r.event.transactionId = event.transactionId)
    (payload : r.event.payload = buf.txMeta.toPayload env.nowNs
      ((mergeChunks chunks).take buf.txMeta.dataSize.toNat) r.event.payload.stackTrace)
    (stack : ∀ st, r.event.payload.stackTrace = some st →
      ∃ p, c.pendingStack.lookup event.transactionId = some p ∧ st = env.symbolizeStackEvent p.stack)

/-- **What a chunk record does**, before cleaning up: it works on the buffer of its own transaction, and adds no
stack to those that wait. -/
theorem handleEvent_recordEffect {c c' : EventCollector} {env : EventEnv} {event : BinderTraceEvent}
    (h : c.handleEvent env event = .ok c') :
    ∃ buf chunks m, Opened c env event buf ∧ storeChunk buf.chunks event = .ok chunks ∧
      c' = m.maybeCleanup env ∧
      (∀ k, k ≠ event.transactionId → m.transactionBuffers.lookup k = c.transactionBuffers.lookup k) ∧
      (∀ k p, m.pendingStack.lookup k = some p → c.pendingStack.lookup k = some p) ∧
      RecordEffect c m env event buf chunks := by
  obtain ⟨c₁, buf, chunks, hopen, hstore, hend⟩ := handleEvent_ok h
  obtain ⟨hbuffers, hrouted, hstacks, hopened⟩ := openBuffer_ok hopen
  have hkept : ∀ k, k ≠ event.transactionId →
      (c₁.transactionBuffers.insert event.transactionId { buf with chunks }).lookup k =
        c.transactionBuffers.lookup k := by
    intro k hk
    rw [AList.lookup_insert_ne hk, hbuffers]
  have herased : ∀ k, k ≠ event.transactionId →
      ((c₁.transactionBuffers.insert event.transactionId { buf with chunks }).erase event.transactionId).lookup k =
        c.transactionBuffers.lookup k := by
    intro k hk
    rw [AList.lookup_erase_ne hk, hkept k hk]
  have hsame : ∀ k p, c₁.pendingStack.lookup k = some p → c.pendingStack.lookup k = some p := by
    intro k p hp
    rwa [hstacks] at hp
  rcases hend with ⟨-, rfl⟩ | ⟨hall, c₃, hclose, rfl⟩
  · exact ⟨buf, chunks, _, hopened, hstore, rfl, hkept, hsame,
      .waits hrouted (AList.lookup_insert c₁.transactionBuffers)⟩
  refine ⟨buf, chunks, c₃, hopened, hstore, rfl, ?_⟩
  rcases completeBuffer_ok hclose with rfl | ⟨hlength, c₂, stackTrace, hmerge, rfl⟩
  · exact ⟨herased, hsame, .discarded hrouted (AList.lookup_erase _ _)⟩
  · have hc₂ := (congrArg (fun p => p.1.intake) hmerge).symm.trans (mergePendingStack_frame _ _ _)
    obtain ⟨hmerged, hstack⟩ := mergePendingStack_stack hmerge
    let r : Routing := ⟨⟨c₂.routed.length, event.transactionId, buf.txMeta.toPayload env.nowNs
      ((mergeChunks chunks).take buf.txMeta.dataSize.toNat) stackTrace⟩, buf.txMeta.cookie,
      event.transactionId, env.nowNs⟩
    obtain ⟨hb, hr, hs⟩ := routeMainEvent_frame c₂ r
    have hfinal := hb.trans (congrArg Intake.transactionBuffers hc₂)
    have hc₂routed : c₂.routed = c.routed := (congrArg Intake.routed hc₂).trans hrouted
    rw [length_mergeChunks hall] at hlength
    change 16 < chunks.length * 1024 ∧ chunks.length * 1024 ≤ 1024 * 16 at hlength
    have hhigh : chunks.length ≤ 16 := by omega
    refine ⟨fun k hk => ?_, fun k p hp => hsame k p (hmerged k p (hs ▸ hp)),
      .routes r (hr.trans (by rw [hc₂routed])) ?_ hall (by omega) hhigh rfl rfl rfl fun st hst => ?_⟩
    · exact (congrArg (AList.lookup k) hfinal).trans (herased k hk)
    · exact (congrArg (AList.lookup event.transactionId) hfinal).trans (AList.lookup_erase _ _)
    · obtain ⟨p, hp, heq⟩ := hstack st hst
      exact ⟨p, hsame _ p hp, heq⟩

end EventCollector

/-! ### Buffer sizes over a run, and when `handleEvent` returns -/

/-- The chunk records that `calls` delivers, in order, with the times of delivery. -/
def deliveries (calls : List Call) : List (Int × BinderTraceEvent) :=
  calls.filterMap fun
    | .handleEvent env event => some (env.nowNs, event)
    | _ => none

/-- The chunk records that `calls` delivers. -/
def eventRecords (calls : List Call) : List BinderTraceEvent := (deliveries calls).map Prod.snd

theorem deliveries_append (calls more : List Call) :
    deliveries (calls ++ more) = deliveries calls ++ deliveries more :=
  List.filterMap_append

theorem eventRecords_append (calls more : List Call) :
    eventRecords (calls ++ more) = eventRecords calls ++ eventRecords more := by
  simp [eventRecords, deliveries_append]

theorem mem_eventRecords_iff {calls : List Call} {event : BinderTraceEvent} :
    event ∈ eventRecords calls ↔ ∃ env, .handleEvent env event ∈ calls := by
  simp only [eventRecords, deliveries, List.map_filterMap, List.mem_filterMap]
  constructor
  · rintro ⟨call, hcall, hevent⟩
    cases call with
    | handleEvent env event' =>
      cases hevent
      exact ⟨env, hcall⟩
    | _ => cases hevent
  · rintro ⟨env, hcall⟩
    exact ⟨_, hcall, rfl⟩

/-- The record asked for the table of the buffer, and there was room. -/
structure AskedFor (k : UInt64) (buf : TxBuffer) (env : EventEnv) (event : BinderTraceEvent) : Prop where
  transactionId : event.transactionId = k
  dataSize : event.dataSize = buf.txMeta.dataSize
  fits : EventCollector.FitsTable env event

/-- Every open buffer has a table of the size that some record of its transaction asked for. -/
def Sized (calls : List Call) (c : EventCollector) : Prop :=
  ∀ k buf, c.transactionBuffers.lookup k = some buf →
    buf.chunks.length = (totalChunks buf.txMeta.dataSize).toNat ∧
      ∃ env event, .handleEvent env event ∈ calls ∧ AskedFor k buf env event

theorem Sized.of_buffers {calls more : List Call} {c c' : EventCollector}
    (h : Sized calls c) (hc : c'.transactionBuffers = c.transactionBuffers) : Sized (calls ++ more) c' := by
  intro k buf hbuf
  obtain ⟨hlen, env, event, hmem, hasked⟩ := h k buf (hc ▸ hbuf)
  exact ⟨hlen, env, event, List.mem_append_left _ hmem, hasked⟩

theorem Sized.step {calls : List Call} {c c' : EventCollector} {call : Call}
    (h : Sized calls c) (hstep : Daemon.step c call = .ok c') : Sized (calls ++ [call]) c' := by
  cases call with
  | handleStackRecord receivedNs staleNs st => cases hstep; exact h.of_buffers rfl
  | evictStale stackNs cookieNs => cases hstep; exact h.of_buffers rfl
  | runSweep now mainOrder txidOrder => cases hstep; exact h.of_buffers rfl
  | handleSideband nowNs sb =>
    cases hstep
    exact h.of_buffers (congrArg Intake.transactionBuffers (c.intake_handleSideband nowNs sb))
  | handleCookieSideband receivedNs staleNs cs =>
    cases hstep
    intro k buf hbuf
    rw [EventCollector.lookup_handleCookieSideband, Option.map_eq_some_iff] at hbuf
    obtain ⟨old, hold, rfl⟩ := hbuf
    obtain ⟨hlen, env, event, hmem, htx, hsize, hfits⟩ := h k old hold
    -- the cookie may change, the table and the size do not
    split <;> exact ⟨hlen, env, event, List.mem_append_left _ hmem, htx, hsize, hfits⟩
  | handleEvent env event =>
    obtain ⟨buf, chunks, m, hopened, hstore, rfl, hother, -, heffect⟩ := EventCollector.handleEvent_recordEffect hstep
    intro k buf' hbuf'
    have hm := EventCollector.lookup_of_maybeCleanup hbuf'
    by_cases hk : k = event.transactionId
    · subst hk
      cases heffect with
      | waits _ hstored =>
        obtain rfl := Option.some.inj (hm.symm.trans hstored)
        have hlen := EventCollector.storeChunk_ok hstore
        rcases hopened.sized with hbuf | ⟨hfits, hlen', hsize⟩
        · obtain ⟨hlen', env', e, hmem, htx, hdata, hfits⟩ := h _ buf hbuf
          exact ⟨hlen.trans hlen', env', e, List.mem_append_left _ hmem, htx, hdata, hfits⟩
        · rw [← hsize] at hlen'
          exact ⟨hlen.trans hlen', env, event, List.mem_append_right _ List.mem_cons_self, rfl, hsize.symm, hfits⟩
      | discarded _ hclosed => cases hclosed.symm.trans hm
      | routes _ _ hclosed => cases hclosed.symm.trans hm
    · rw [hother k hk] at hm
      obtain ⟨hlen, env', e, hmem, hasked⟩ := h k buf' hm
      exact ⟨hlen, env', e, List.mem_append_left _ hmem, hasked⟩

theorem run_sized {calls : List Call} {c : EventCollector}
    (h : run step newEventCollector calls = .ok c) : Sized calls c :=
  run_history (P := Sized) (fun k buf hbuf => by cases hbuf) (fun _ _ _ _ _ hinv hstep => hinv.step hstep) h

/-- `handleEvent` survives the record: its index is no negative `int`, and its chunk table can be made. -/
def Harmless (env : EventEnv) (event : BinderTraceEvent) : Prop :=
  event.chunkIndex.toNat < 2 ^ 63 ∧ EventCollector.FitsTable env event

theorem storeChunk_total (chunks : List (Option ChunkData)) {event : BinderTraceEvent}
    (h : event.chunkIndex.toNat < 2 ^ 63) : ∃ chunks', storeChunk chunks event = .ok chunks' := by
  unfold storeChunk
  rw [toInt_toInt64 h]
  split
  · next hlt => exact ⟨_, if_pos (by omega)⟩
  · exact ⟨_, rfl⟩

/-- A full buffer of the right size is closed without a panic. -/
theorem completeBuffer_total (c : EventCollector) (env : EventEnv) (transactionId : UInt64)
    (buf : TxBuffer) (hall : buf.chunks.all Option.isSome = true)
    (hlen : buf.chunks.length = (totalChunks buf.txMeta.dataSize).toNat) :
    ∃ c', c.completeBuffer env transactionId buf = .ok c' := by
  have hmerged := length_mergeChunks hall
  have hd := buf.txMeta.dataSize.toNat_lt
  rw [hlen, toNat_totalChunks] at hmerged
  have hcap : chunkSize = 1024 ∧ chunkSize * maxChunks = 16384 := ⟨rfl, rfl⟩
  unfold EventCollector.completeBuffer
  simp only
  split
  · exact ⟨_, rfl⟩
  split
  · exact ⟨_, rfl⟩
  next hlow _ =>
    have henough : ¬ (mergeChunks buf.chunks).length < buf.txMeta.dataSize.toNat := by
      rw [hcap.1] at hmerged
      omega
    rw [if_neg henough]
    exact ⟨_, rfl⟩

theorem handleEvent_total {calls : List Call} {c : EventCollector} {env : EventEnv}
    {event : BinderTraceEvent} (h : Sized calls c) (hevent : Harmless env event) :
    ∃ c', c.handleEvent env event = .ok c' := by
  have hopen : ∃ c₁ buf, c.openBuffer env event = .ok (c₁, buf) := by
    have hfits : (totalChunks event.dataSize).toNat ≤ env.room.slots := hevent.2
    unfold EventCollector.openBuffer makeChunks
    split
    · exact ⟨_, _, rfl⟩
    · rw [if_pos hfits]
      exact ⟨_, _, rfl⟩
  obtain ⟨c₁, buf, hopen⟩ := hopen
  obtain ⟨chunks, hstore⟩ := storeChunk_total buf.chunks hevent.1
  have hsize : buf.chunks.length = (totalChunks buf.txMeta.dataSize).toNat := by
    rcases (EventCollector.openBuffer_ok hopen).2.2.2.sized with hbuf | ⟨-, hlen, hdata⟩
    · exact (h _ buf hbuf).1
    · rw [hdata, hlen]
  simp only [EventCollector.handleEvent, hopen, hstore, bind, Except.bind]
  split
  · next hall =>
    obtain ⟨c₃, hclose⟩ := completeBuffer_total
      (c₁.putBuffer event.transactionId { buf with chunks }) env event.transactionId
      { buf with chunks } hall ((EventCollector.storeChunk_ok hstore).trans hsize)
    rw [hclose]
    exact ⟨_, rfl⟩
  · exact ⟨_, rfl⟩

/-- A record that `handleEvent` survives is harmless, unless its transaction is already known under
another size or found more room. -/
theorem harmless_of_handleEvent {calls : List Call} {c c' : EventCollector} {env : EventEnv}
    {event : BinderTraceEvent} (h : Sized calls c) (hrun : c.handleEvent env event = .ok c')
    (hsame : ∀ env' e, .handleEvent env' e ∈ calls → e.transactionId = event.transactionId →
      e.dataSize = event.dataSize ∧ env'.room = env.room) : Harmless env event := by
  obtain ⟨c₁, buf, chunks, hopen, hstore, -⟩ := EventCollector.handleEvent_ok hrun
  have hbuf : EventCollector.FitsTable env event ∧
      buf.chunks.length = (totalChunks event.dataSize).toNat := by
    rcases (EventCollector.openBuffer_ok hopen).2.2.2.sized with hbuf | ⟨hfits, hlen, -⟩
    · obtain ⟨hlen, env', e, hmem, htx, hsize, hfits⟩ := h _ buf hbuf
      obtain ⟨hdata, hroom⟩ := hsame env' e hmem htx
      rw [EventCollector.FitsTable, hdata, hroom] at hfits
      exact ⟨hfits, by rw [hlen, ← hsize, hdata]⟩
    · exact ⟨hfits, hlen⟩
  refine ⟨?_, hbuf.1⟩
  by_contra hneg
  have hmax : buf.chunks.length ≤ 2 ^ 48 := by
    rw [hbuf.2]
    exact (hbuf.1.trans env.room.addressable).trans (by decide)
  have hlt := event.chunkIndex.toNat_lt
  have hint : event.chunkIndex.toInt64.toInt < buf.chunks.length := by
    have hsign : event.chunkIndex.toInt64.toInt = event.chunkIndex.toNat - 2 ^ 64 := by
      change event.chunkIndex.toBitVec.toInt = _
      rw [BitVec.toInt_eq_toNat_cond, if_neg]
      · rfl
      · change ¬ 2 * event.chunkIndex.toNat < 2 ^ 64
        omega
    omega
  rw [storeChunk, if_pos hint, if_neg (by omega)] at hstore
  cases hstore

end BinderTracer.Daemon
