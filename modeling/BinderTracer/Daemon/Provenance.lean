import BinderTracer.Daemon.Accounting
import BinderTracer.Daemon.Buffers
import BinderTracer.Daemon.Conservation

/-!
# Where an emitted event comes from

Over every run of the collector, whatever records it gets: the chunks and the metadata of a buffer come from
records of its transaction (`Sourced`), every routed event uses up a record of a first chunk (`Once`), and every
emitted event is a routed one up to what a sideband fills in (`Originates`).
-/

namespace BinderTracer.Daemon

open BinderTracer.Kernel BinderTracer.Lib

/-! ### What a chunk record does to its buffer -/

/-- A slot of the table after a chunk was stored: it was filled before, or the chunk is the record's. -/
theorem getElem?_storeChunk {chunks chunks' : List (Option ChunkData)} {event : BinderTraceEvent}
    (h : storeChunk chunks event = .ok chunks') {i : Nat} {data : ChunkData} (hi : chunks'[i]? = some (some data)) :
    chunks[i]? = some (some data) ∨ event.chunkIndex.toNat = i ∧ event.chunkData = data := by
  unfold storeChunk at h
  split at h
  · split at h
    · cases h
      rw [List.getElem?_set] at hi
      split at hi
      · next heq =>
        cases hi
        exact .inr ⟨heq, rfl⟩
      · exact .inl hi
    · cases h
  · cases h
    exact .inl hi

/-- A call delivers a chunk record, or it keeps what was routed, and the buffers up to a cookie. -/
theorem step_quiet {c c' : EventCollector} {call : Call} (h : step c call = .ok c') :
    (∃ env event, call = .handleEvent env event) ∨
      eventRecords [call] = [] ∧ c'.routed = c.routed ∧
        ∀ k, ∃ cookie : TxBuffer → UInt64, c'.transactionBuffers.lookup k =
          (c.transactionBuffers.lookup k).map fun buf =>
            { buf with txMeta := { buf.txMeta with cookie := cookie buf } } := by
  have hsame : ∀ c' : EventCollector, c'.transactionBuffers = c.transactionBuffers →
      ∀ k, ∃ cookie : TxBuffer → UInt64, c'.transactionBuffers.lookup k =
        (c.transactionBuffers.lookup k).map fun buf =>
          { buf with txMeta := { buf.txMeta with cookie := cookie buf } } := by
    intro c' heq k
    rw [heq]
    exact ⟨fun buf => buf.txMeta.cookie, Option.map_id'.symm⟩
  cases call with
  | handleEvent env event => exact .inl ⟨env, event, rfl⟩
  | handleCookieSideband receivedNs staleNs cs =>
    cases h
    refine .inr ⟨rfl, c.routed_handleCookieSideband receivedNs staleNs cs, fun k => ?_⟩
    refine ⟨fun buf => if cs.transactionIdHint = k ∧ k ≠ 0 ∧ cs.cookie ≠ 0 ∧ buf.txMeta.cookie = 0 then cs.cookie
      else buf.txMeta.cookie, (c.lookup_handleCookieSideband receivedNs staleNs cs k).trans ?_⟩
    refine congrArg (Option.map · _) (funext fun buf => ?_)
    dsimp only
    split <;> rfl
  | handleSideband nowNs sb =>
    cases h
    have hframe := c.intake_handleSideband nowNs sb
    exact .inr ⟨rfl, congrArg Intake.routed hframe, hsame _ (congrArg Intake.transactionBuffers hframe)⟩
  | handleStackRecord receivedNs staleNs st => cases h; exact .inr ⟨rfl, rfl, hsame _ rfl⟩
  | runSweep now mainOrder txidOrder => cases h; exact .inr ⟨rfl, rfl, hsame _ rfl⟩
  | evictStale stackNs cookieNs => cases h; exact .inr ⟨rfl, rfl, hsame _ rfl⟩

/-! ### Buffers are assembled from records -/

/-- The metadata and the chunks of the buffer come from records of the transaction `k` among `records`. -/
structure Assembled (records : List BinderTraceEvent) (k : UInt64) (buf : TxBuffer) : Prop where
  first : ∃ e ∈ records, e.transactionId = k ∧ buf.chunks.length = (totalChunks e.dataSize).toNat ∧
    ∃ cookie, buf.txMeta = { TxMeta.ofRecord e with cookie := cookie }
  slots : ∀ i data, buf.chunks[i]? = some (some data) →
    ∃ e ∈ records, e.transactionId = k ∧ e.chunkIndex.toNat = i ∧ e.chunkData = data

theorem Assembled.mono {records more : List BinderTraceEvent} {k : UInt64} {buf : TxBuffer}
    (h : Assembled records k buf) (hsub : records ⊆ more) : Assembled more k buf where
  first := by
    obtain ⟨e, he, hrest⟩ := h.first
    exact ⟨e, hsub he, hrest⟩
  slots := by
    intro i data hi
    obtain ⟨e, he, hrest⟩ := h.slots i data hi
    exact ⟨e, hsub he, hrest⟩

/-- A cookie does not matter. -/
theorem Assembled.setCookie {records : List BinderTraceEvent} {k cookie : UInt64} {buf : TxBuffer}
    (h : Assembled records k buf) :
    Assembled records k { buf with txMeta := { buf.txMeta with cookie := cookie } } where
  first := by
    obtain ⟨e, he, hname, hlength, old, hmeta⟩ := h.first
    exact ⟨e, he, hname, hlength, cookie, by rw [hmeta]⟩
  slots := h.slots

/-- Storing the chunk of a record in the buffer that the record found or opened. -/
theorem Assembled.store {records : List BinderTraceEvent} {c : EventCollector} {env : EventEnv}
    {event : BinderTraceEvent} {buf : TxBuffer} {chunks : List (Option ChunkData)}
    (hc : ∀ k buf, c.transactionBuffers.lookup k = some buf → Assembled records k buf)
    (hopened : EventCollector.Opened c env event buf) (hstore : storeChunk buf.chunks event = .ok chunks) :
    Assembled (records ++ [event]) event.transactionId { buf with chunks } := by
  have hnew : event ∈ records ++ [event] := List.mem_append_right _ (List.mem_singleton_self event)
  have hlength := EventCollector.storeChunk_ok hstore
  cases hopened with
  | found hfound =>
    have hold := (hc _ _ hfound).mono (List.subset_append_left records [event])
    obtain ⟨e, he, hname, hsize, hmeta⟩ := hold.first
    refine ⟨⟨e, he, hname, hlength.trans hsize, hmeta⟩, fun i data hi => ?_⟩
    rcases getElem?_storeChunk hstore hi with hbefore | ⟨hindex, hdata⟩
    · exact hold.slots i data hbefore
    · exact ⟨event, hnew, rfl, hindex, hdata⟩
  | fresh cookie hfits hchunks hmeta =>
    refine ⟨⟨event, hnew, rfl, hlength.trans ?_, cookie, hmeta⟩, fun i data hi => ?_⟩
    · rw [hchunks, List.length_replicate]
    rcases getElem?_storeChunk hstore hi with hbefore | ⟨hindex, hdata⟩
    · rw [hchunks, List.getElem?_replicate] at hbefore
      split at hbefore <;> cases hbefore
    · exact ⟨event, hnew, rfl, hindex, hdata⟩

/-- The routed event was made from a complete buffer that was assembled from `records`. -/
structure WholeFrom (records : List BinderTraceEvent) (r : Routing) (buf : TxBuffer) : Prop where
  assembled : Assembled records r.transactionId buf
  complete : buf.chunks.all Option.isSome = true
  low : 1 ≤ buf.chunks.length
  high : buf.chunks.length ≤ maxChunks
  inner : r.event.transactionId = r.transactionId
  payload : ∃ nowNs, r.event.payload = buf.txMeta.toPayload nowNs
    ((mergeChunks buf.chunks).take buf.txMeta.dataSize.toNat) r.event.payload.stackTrace

/-- The buffers are assembled from records that were delivered, and so are the routed events. -/
structure Sourced (records : List BinderTraceEvent) (c : EventCollector) : Prop where
  buffers : ∀ k buf, c.transactionBuffers.lookup k = some buf → Assembled records k buf
  routed : ∀ r ∈ c.routed, ∃ buf, WholeFrom records r buf

namespace Sourced

variable {records : List BinderTraceEvent} {c c' : EventCollector}

theorem initial : Sourced [] newEventCollector where
  buffers k buf hbuf := by cases hbuf
  routed r hr := by cases hr

theorem handleEvent {env : EventEnv} {event : BinderTraceEvent} (h : Sourced records c)
    (hstep : c.handleEvent env event = .ok c') : Sourced (records ++ [event]) c' := by
  obtain ⟨buf, chunks, m, hopened, hstore, rfl, hothers, -, heffect⟩ :=
    EventCollector.handleEvent_recordEffect hstep
  have hsub : records ⊆ records ++ [event] := List.subset_append_left records [event]
  have hassembled := Assembled.store h.buffers hopened hstore
  have hold : ∀ r ∈ c.routed, ∃ buf, WholeFrom (records ++ [event]) r buf := by
    intro r hr
    obtain ⟨whole, hwhole⟩ := h.routed r hr
    exact ⟨whole, { hwhole with assembled := hwhole.assembled.mono hsub }⟩
  constructor
  · intro k found hfound
    have hm := EventCollector.lookup_of_maybeCleanup hfound
    by_cases hk : k = event.transactionId
    · subst hk
      cases heffect with
      | waits _ hstored =>
        rw [hstored] at hm
        exact Option.some.inj hm ▸ hassembled
      | discarded _ hclosed => exact absurd (hclosed.symm.trans hm) (by simp)
      | routes _ _ hclosed => exact absurd (hclosed.symm.trans hm) (by simp)
    · exact (h.buffers k found (hothers k hk ▸ hm)).mono hsub
  · rw [EventCollector.routed_maybeCleanup]
    cases heffect with
    | waits hrouted _ => rwa [hrouted]
    | discarded hrouted _ => rwa [hrouted]
    | routes r hrouted _ hcomplete hlow hhigh hname hinner hpayload =>
      rw [hrouted]
      intro r' hr'
      rcases List.mem_append.1 hr' with hr' | hr'
      · exact hold r' hr'
      · obtain rfl := List.mem_singleton.1 hr'
        exact ⟨{ buf with chunks }, hname ▸ hassembled, hcomplete, hlow, hhigh, hinner.trans hname.symm, _, hpayload⟩

theorem step {calls : List Call} {call : Call} (h : Sourced (eventRecords calls) c)
    (hstep : step c call = .ok c') : Sourced (eventRecords (calls ++ [call])) c' := by
  rw [eventRecords_append]
  rcases step_quiet hstep with ⟨env, event, rfl⟩ | ⟨hnone, hrouted, hbuffers⟩
  · exact h.handleEvent hstep
  rw [hnone, List.append_nil]
  refine ⟨fun k buf hbuf => ?_, fun r hr => h.routed r (hrouted ▸ hr)⟩
  obtain ⟨cookie, hlookup⟩ := hbuffers k
  rw [hlookup] at hbuf
  obtain ⟨old, hold, rfl⟩ := Option.map_eq_some_iff.1 hbuf
  exact (h.buffers k old hold).setCookie

end Sourced

/-- Over every run, what is in the buffers and in the routed events was delivered. -/
theorem run_sourced {calls : List Call} {c : EventCollector} (h : run step newEventCollector calls = .ok c) :
    Sourced (eventRecords calls) c :=
  run_history (P := fun calls c => Sourced (eventRecords calls) c)
    Sourced.initial (fun _ _ _ _ _ hinv hstep => hinv.step hstep) h

/-! ### Every event uses up a first chunk -/

/-- Whether the table holds the first chunk, as a number. -/
def firstChunk (chunks : List (Option ChunkData)) : Nat := (chunks.take 1).countP Option.isSome

theorem firstChunk_le (chunks : List (Option ChunkData)) : firstChunk chunks ≤ 1 :=
  Nat.le_trans List.countP_le_length (List.length_take_le 1 chunks)

theorem firstChunk_eq_one {chunks : List (Option ChunkData)} :
    firstChunk chunks = 1 ↔ ∃ data, chunks[0]? = some (some data) := by
  rcases chunks with _ | ⟨_ | data, chunks⟩ <;> simp [firstChunk]

/-- Whether the buffer of transaction `k` holds the first chunk, as a number. -/
def EventCollector.firstHeld (c : EventCollector) (k : UInt64) : Nat :=
  (c.transactionBuffers.lookup k).elim 0 fun buf => firstChunk buf.chunks

/-- The number of records of the first chunk of transaction `k`. -/
def firstRecords (records : List BinderTraceEvent) (k : UInt64) : Nat :=
  records.countP fun e => e.transactionId == k && e.chunkIndex == 0

theorem firstHeld_some {c : EventCollector} {k : UInt64} {buf : TxBuffer}
    (h : c.transactionBuffers.lookup k = some buf) : c.firstHeld k = firstChunk buf.chunks := by
  rw [EventCollector.firstHeld, h]
  rfl

theorem firstHeld_none {c : EventCollector} {k : UInt64} (h : c.transactionBuffers.lookup k = none) :
    c.firstHeld k = 0 := by
  rw [EventCollector.firstHeld, h]
  rfl

theorem firstHeld_maybeCleanup (c : EventCollector) (env : EventEnv) (k : UInt64) :
    (c.maybeCleanup env).firstHeld k ≤ c.firstHeld k := by
  cases h : (c.maybeCleanup env).transactionBuffers.lookup k with
  | none =>
    rw [firstHeld_none h]
    exact Nat.zero_le _
  | some buf => rw [firstHeld_some h, firstHeld_some (EventCollector.lookup_of_maybeCleanup h)]

/-- A first chunk that is there after a record was stored was there before, or is the record's. -/
theorem firstChunk_store {c : EventCollector} {env : EventEnv} {event : BinderTraceEvent} {buf : TxBuffer}
    {chunks : List (Option ChunkData)} (hopened : EventCollector.Opened c env event buf)
    (hstore : storeChunk buf.chunks event = .ok chunks) :
    firstChunk chunks ≤ c.firstHeld event.transactionId + firstRecords [event] event.transactionId := by
  have hle := firstChunk_le chunks
  by_cases hone : firstChunk chunks = 1
  · obtain ⟨data, hdata⟩ := firstChunk_eq_one.1 hone
    rcases getElem?_storeChunk hstore hdata with hbefore | ⟨hindex, -⟩
    · cases hopened with
      | found hfound =>
        rw [firstHeld_some hfound, firstChunk_eq_one.2 ⟨data, hbefore⟩]
        omega
      | fresh cookie hfits hchunks hmeta =>
        rw [hchunks, List.getElem?_replicate] at hbefore
        split at hbefore <;> cases hbefore
    · have hzero : event.chunkIndex = 0 := UInt64.toNat_inj.1 hindex
      have hcount : firstRecords [event] event.transactionId = 1 := by simp [firstRecords, hzero]
      omega
  · omega

/-- The events routed for a transaction, and its open buffer, hold no more first chunks than were delivered. -/
def Once (records : List BinderTraceEvent) (c : EventCollector) : Prop :=
  ∀ k, c.routed.countP (fun r => r.transactionId == k) + c.firstHeld k ≤ firstRecords records k

namespace Once

variable {records : List BinderTraceEvent} {c c' : EventCollector}

theorem firstRecords_append (records more : List BinderTraceEvent) (k : UInt64) :
    firstRecords (records ++ more) k = firstRecords records k + firstRecords more k :=
  List.countP_append

theorem handleEvent {env : EventEnv} {event : BinderTraceEvent} (h : Once records c)
    (hstep : c.handleEvent env event = .ok c') : Once (records ++ [event]) c' := by
  obtain ⟨buf, chunks, m, hopened, hstore, rfl, hothers, -, heffect⟩ :=
    EventCollector.handleEvent_recordEffect hstep
  have hstored := firstChunk_store hopened hstore
  intro k
  have hold := h k
  have hclean := firstHeld_maybeCleanup m env k
  rw [EventCollector.routed_maybeCleanup, firstRecords_append]
  by_cases hk : k = event.transactionId
  · subst hk
    cases heffect with
    | waits hrouted hbuffer =>
      have hheld : m.firstHeld event.transactionId = firstChunk chunks := firstHeld_some hbuffer
      rw [hrouted]
      omega
    | discarded hrouted hclosed =>
      rw [firstHeld_none hclosed] at hclean
      rw [hrouted]
      omega
    | routes r hrouted hclosed hcomplete hlow _ hname =>
      -- a complete table holds the first chunk, which the event takes with it
      have hfirst : firstChunk chunks = 1 := by
        obtain ⟨data, hdata⟩ := Option.isSome_iff_exists.1 (List.all_eq_true.1 hcomplete _ (List.getElem_mem hlow))
        exact firstChunk_eq_one.2 ⟨data, by rw [List.getElem?_eq_getElem hlow, hdata]⟩
      rw [firstHeld_none hclosed] at hclean
      rw [hrouted, List.countP_append, List.countP_singleton, hname, beq_self_eq_true, if_pos rfl]
      omega
  · have hsame : m.firstHeld k = c.firstHeld k := by
      rw [EventCollector.firstHeld, hothers k hk, EventCollector.firstHeld]
    have hrouted : m.routed.countP (fun r => r.transactionId == k) =
        c.routed.countP fun r => r.transactionId == k := by
      cases heffect with
      | waits hrouted _ => rw [hrouted]
      | discarded hrouted _ => rw [hrouted]
      | routes r hrouted _ _ _ _ hname =>
        rw [hrouted, List.countP_append, List.countP_singleton, hname,
          if_neg (by simpa using fun heq : event.transactionId = k => hk heq.symm), Nat.add_zero]
    omega

theorem step {calls : List Call} {call : Call} (h : Once (eventRecords calls) c) (hstep : step c call = .ok c') :
    Once (eventRecords (calls ++ [call])) c' := by
  rw [eventRecords_append]
  rcases step_quiet hstep with ⟨env, event, rfl⟩ | ⟨hnone, hrouted, hbuffers⟩
  · exact h.handleEvent hstep
  intro k
  obtain ⟨cookie, hlookup⟩ := hbuffers k
  have hheld : c'.firstHeld k = c.firstHeld k := by
    rw [EventCollector.firstHeld, hlookup, EventCollector.firstHeld]
    cases c.transactionBuffers.lookup k <;> rfl
  rw [hnone, List.append_nil, hheld, hrouted]
  exact h k

end Once

theorem run_once {calls : List Call} {c : EventCollector} (h : run step newEventCollector calls = .ok c) :
    Once (eventRecords calls) c :=
  run_history (P := fun calls c => Once (eventRecords calls) c) (fun _ => Nat.zero_le _)
    (fun _ _ _ _ _ hinv hstep => hinv.step hstep) h

/-! ### Emitted events are routed events -/

/-- The fields of an event that no sideband fills in. -/
def BinderEventPayload.traced (e : BinderEventPayload) : BinderEventPayload :=
  { e with toPid := 0, toUid := 0, pairId := 0 }

/-- The event is `origin`, except that a sideband may have filled in the target and the pair id. -/
structure SameTrace (origin ev : MainEvent) : Prop where
  ref : ev.ref = origin.ref
  transactionId : ev.transactionId = origin.transactionId
  payload : ev.payload.traced = origin.payload.traced

namespace SameTrace

variable {origin ev ev' : MainEvent}

theorem refl (ev : MainEvent) : SameTrace ev ev := ⟨rfl, rfl, rfl⟩

theorem trans (h : SameTrace origin ev) (h' : SameTrace ev ev') : SameTrace origin ev' :=
  ⟨h'.ref.trans h.ref, h'.transactionId.trans h.transactionId, h'.payload.trans h.payload⟩

theorem applySideband (ev : MainEvent) (debugId : UInt64) (toPid toUid : UInt32) (unsupported : UInt8) :
    SameTrace ev (ev.applySideband debugId toPid toUid unsupported) :=
  ⟨rfl, rfl, rfl⟩

end SameTrace

/-- Routing an event merges a sideband only into that event. -/
theorem EventCollector.dispatchMainEvent_merges {c : EventCollector} {ev : MainEvent} {cookie transactionId : UInt64}
    {nowNs : Int} (h : (c.dispatchMainEvent ev cookie transactionId nowNs).merged ≠ c.merged) :
    ∃ merged, SameTrace ev merged ∧
      (c.dispatchMainEvent ev cookie transactionId nowNs).emitted = c.emitted ++ [merged] := by
  unfold dispatchMainEvent at h ⊢
  split at h
  · exact absurd rfl h
  split at h
  · split at h
    · exact absurd rfl h
    · obtain ⟨given, hdemote⟩ := releases_demotePendingMainByTxid c transactionId
      obtain ⟨given', hpark⟩ := releases_parkPendingMainByTxid (c.demotePendingMainByTxid transactionId)
        transactionId { enqueuedNs := nowNs, event := ev }
      exact absurd (hpark.merged.trans hdemote.merged) h
  next hreply hcookie =>
  have hcheck := pairing_checkCookieDuplicate c cookie
  split at h
  · next honeway =>
    rw [if_neg hreply, if_neg hcookie, if_pos honeway]
    unfold emitOneway at h ⊢
    split at h
    · next pe hpe =>
      obtain ⟨recent, hrecent⟩ := recordRecentOnewayEmit_eq
        { c.checkCookieDuplicate cookie with
          pendingOneway := (c.checkCookieDuplicate cookie).pendingOneway.drop cookie
          merged := (c.checkCookieDuplicate cookie).merged ++ [cookie] } cookie nowNs
      refine ⟨_, SameTrace.applySideband ev pe.kernelDebugId pe.toPid pe.toUid pe.toUidUnsupported, ?_⟩
      simp only [hrecent]
      exact congrArg (· ++ _) (congrArg Pairing.emitted hcheck)
    · obtain ⟨recent, hrecent⟩ := recordRecentOnewayEmit_eq (c.checkCookieDuplicate cookie) cookie nowNs
      rw [hrecent] at h
      exact absurd (congrArg Pairing.merged hcheck) h
  · obtain ⟨given, hpark⟩ := releases_parkPendingMain (c.checkCookieDuplicate cookie) cookie
      { enqueuedNs := nowNs, event := ev }
    exact absurd (hpark.merged.trans (congrArg Pairing.merged hcheck)) h

/-- A call that merges a sideband merges it into an event that waited, or into the one that it routes. -/
theorem step_merges {c c' : EventCollector} {call : Call} (h : step c call = .ok c') (hmerged : c'.merged ≠ c.merged) :
    ∃ origin merged, SameTrace origin merged ∧ c'.emitted = c.emitted ++ [merged] ∧
      (origin ∈ c.pairing.waiting ∨ ∃ r ∈ c'.routed, r.event = origin) := by
  cases call with
  | handleStackRecord receivedNs staleNs st =>
    cases h
    exact absurd rfl hmerged
  | evictStale stackNs cookieNs =>
    cases h
    exact absurd rfl hmerged
  | handleCookieSideband receivedNs staleNs cs =>
    cases h
    obtain ⟨given, hgiven⟩ := c.releases_handleCookieSideband receivedNs staleNs cs
    exact absurd hgiven.merged hmerged
  | runSweep now mainOrder txidOrder =>
    cases h
    obtain ⟨given, hgiven⟩ := c.releases_runSweep now mainOrder txidOrder
    exact absurd hgiven.merged hmerged
  | handleSideband nowNs sb =>
    cases h
    unfold EventCollector.handleSideband at hmerged ⊢
    split at hmerged
    · next pm hlookup =>
      exact ⟨pm.event, _, .applySideband pm.event sb.kernelDebugId sb.toPid sb.toUid sb.toUidUnsupported, rfl,
        .inl (List.mem_append_left _ (mem_events hlookup))⟩
    split at hmerged
    · exact absurd rfl hmerged
    split at hmerged
    · exact absurd rfl hmerged
    · exact absurd rfl hmerged
  | handleEvent env event =>
    rcases EventCollector.handleEvent_routes h with hsame | ⟨c₁, r, hstarted, -, -, hended⟩
    · exact absurd (congrArg Pairing.merged hsame.pairing) hmerged
    · have hstart : c₁.pairing = c.pairing := hstarted.pairing
      have hend := hended.pairing
      have hne : (EventCollector.dispatchMainEvent { c₁ with routed := c₁.routed ++ [r] } r.event r.cookie
          r.transactionId r.nowNs).merged ≠ c₁.merged := by
        intro heq
        refine hmerged ((congrArg Pairing.merged hend).trans (heq.trans (congrArg Pairing.merged hstart)))
      obtain ⟨merged, hsame, hemitted⟩ := EventCollector.dispatchMainEvent_merges hne
      refine ⟨r.event, merged, hsame, ?_, .inr ⟨r, ?_, rfl⟩⟩
      · refine (congrArg Pairing.emitted hend).trans (hemitted.trans ?_)
        exact congrArg (· ++ [merged]) (congrArg Pairing.emitted hstart)
      · have hrouted : c'.routed = (c₁.routeMainEvent r.event r.cookie r.transactionId r.nowNs).routed :=
          congrArg EventCollector.Books.routed hended.books
        rw [hrouted, (EventCollector.routeMainEvent_frame c₁ r).2.1]
        exact List.mem_append_right _ (List.mem_singleton_self r)

/-- Every event that was emitted or waits is one that was routed. -/
def Originates (c : EventCollector) : Prop :=
  ∀ ev ∈ c.emitted ++ c.pairing.waiting, ∃ r ∈ c.routed, SameTrace r.event ev

theorem Originates.step {c c' : EventCollector} {call : Call} (h : Originates c)
    (hprod : c.legacyCookieZeroSyncEmit = false) (hstep : step c call = .ok c') : Originates c' := by
  obtain ⟨news, hout⟩ := step_outcome hprod hstep
  have hold : ∀ ev ∈ c.emitted ++ c.pairing.waiting, ∃ r ∈ c'.routed, SameTrace r.event ev := by
    intro ev hev
    obtain ⟨r, hr, hsame⟩ := h ev hev
    exact ⟨r, hout.routed ▸ List.mem_append_left _ hr, hsame⟩
  have hnews : ∀ r ∈ news, ∃ r' ∈ c'.routed, SameTrace r'.event r.event := by
    intro r hr
    exact ⟨r, hout.routed ▸ List.mem_append_right _ (Option.mem_toList.2 hr), .refl _⟩
  intro ev hev
  rcases hout.events with hmerge | ⟨arrived, given, passed, hrel, harrived, hpassed⟩
  · obtain ⟨origin, merged, hsame, hemitted, horigin⟩ := step_merges hstep hmerge.merged
    rw [hemitted, List.append_assoc, List.mem_append, List.mem_append] at hev
    rcases hev with hev | hev | hev
    · exact hold ev (List.mem_append_left _ hev)
    · obtain rfl := List.mem_singleton.1 hev
      rcases horigin with hwaited | ⟨r, hr, rfl⟩
      · obtain ⟨r, hr, horigin⟩ := hold origin (List.mem_append_right _ hwaited)
        exact ⟨r, hr, horigin.trans hsame⟩
      · exact ⟨r, hr, hsame⟩
    · exact hold ev (List.mem_append_right _ (hmerge.held hev))
  · have hemitted : c'.emitted = c.emitted ++ (given ++ passed) := hrel.emitted
    have hheld := @hrel.held ev
    rw [hemitted] at hev
    simp only [List.mem_append] at hev hheld
    have hcome : ev ∈ arrived ∨ ev ∈ c.pairing.waiting → ∃ r ∈ c'.routed, SameTrace r.event ev := by
      rintro (hin | hin)
      · obtain ⟨r, hr, rfl, -⟩ := harrived ev hin
        exact hnews r hr
      · exact hold ev (List.mem_append_right _ hin)
    rcases hev with (hev | hev | hev) | hev
    · exact hold ev (List.mem_append_left _ hev)
    · exact hcome (hheld (.inl hev))
    · obtain ⟨r, hr, rfl, -⟩ := hpassed ev hev
      exact hnews r hr
    · exact hcome (hheld (.inr hev))

/-- Over every run, an emitted event is one that was routed, and no event is emitted twice. -/
theorem run_originates {calls : List Call} {c : EventCollector} (h : run step newEventCollector calls = .ok c) :
    Originates c ∧ Accounted c ∧ c.legacyCookieZeroSyncEmit = false := by
  have hkept : ∀ c call c', (Originates c ∧ Accounted c ∧ c.legacyCookieZeroSyncEmit = false) →
      step c call = .ok c' → Originates c' ∧ Accounted c' ∧ c'.legacyCookieZeroSyncEmit = false := by
    intro c call c' hinv hstep
    obtain ⟨news, hout⟩ := step_outcome hinv.2.2 hstep
    exact ⟨hinv.1.step hinv.2.2 hstep, (hinv.2.1.step hstep).1, hout.production⟩
  exact run_invariant hkept ⟨fun ev hev => absurd hev List.not_mem_nil, Accounted.initial, rfl⟩ h

end BinderTracer.Daemon
