import BinderTracer.Daemon.Buffers

/-!
# The pending events

The part of the collector that decides when and how an event leaves it, and what each function does
to it while nothing has to be evicted. With `Intake` it makes up all of the state that the fate of a
request depends on: `intake` lemmas say what happens to one half, `pairing` lemmas what happens to
the other.
-/

namespace BinderTracer.Daemon

open BinderTracer.Kernel BinderTracer.Lib

/-- The events and sidebands that wait for each other, what has become of the others, and the counts
of the failures. -/
structure Pairing where
  pendingMain : LruMap UInt64 PendingMainEntry
  pendingMainByTxid : LruMap UInt64 PendingMainEntry
  pendingOneway : LruMap UInt64 PendingOnewayEntry
  recentOneway : LruMap UInt64 RecentOnewayEntry
  entryEarlyReturn : Nat
  sidebandOrphan : Nat
  onewaySidebandLate : Nat
  emitted : List MainEvent
  merged : List UInt64

namespace EventCollector

def pairing (c : EventCollector) : Pairing where
  pendingMain := c.pendingMain
  pendingMainByTxid := c.pendingMainByTxid
  pendingOneway := c.pendingOneway
  recentOneway := c.recentOneway
  entryEarlyReturn := c.failures.entryEarlyReturn
  sidebandOrphan := c.failures.sidebandOrphan
  onewaySidebandLate := c.failures.onewaySidebandLate
  emitted := c.emitted
  merged := c.merged

/-! ### What leaves the pending events alone -/

theorem SameMachine.pairing {c c' : EventCollector} (h : SameMachine c c') : c'.pairing = c.pairing := by
  rw [h]
  rfl

@[simp] theorem pairing_checkCookieDuplicate (c : EventCollector) (cookie : UInt64) :
    (c.checkCookieDuplicate cookie).pairing = c.pairing := by
  unfold checkCookieDuplicate
  split <;> rfl

/-- While everything is fresh, cleaning up removes nothing. -/
theorem intake_maybeCleanup {c : EventCollector} {env : EventEnv}
    (hbuffers : ∀ k buf, c.transactionBuffers.lookup k = some buf →
      env.nowNs ≤ buf.firstSeenNs + staleBufferTTL)
    (hcookies : ∀ k pe, c.pendingCookieByTxid.lookup k = some pe →
      env.cookieNs ≤ pe.receivedNs + pendingCookieTTL) :
    (c.maybeCleanup env).intake = c.intake := by
  have hkept : c.transactionBuffers.retain
      (fun buf => !decide (buf.firstSeenNs < env.nowNs - staleBufferTTL)) = c.transactionBuffers := by
    apply AList.retain_of_forall
    intro k buf hbuf
    have := hbuffers k buf hbuf
    have hlt : ¬ buf.firstSeenNs < env.nowNs - staleBufferTTL := by omega
    simp [hlt]
  have hswept : c.pendingCookieByTxid.sweep
      (fun p => decide (p.receivedNs < env.cookieNs - pendingCookieTTL)) = c.pendingCookieByTxid := by
    apply LruMap.sweep_of_forall
    intro k pe hpe
    have := hcookies k pe hpe
    exact decide_eq_false (by omega)
  unfold maybeCleanup
  split
  · rfl
  · simp only [cleanup, intake, evictStalePendingCookies, evictStalePendingStack, hkept, hswept]

/-- While the kept cookies are fresh, none is evicted for its age. -/
theorem evictStalePendingCookies_fresh {c : EventCollector} {nowNs : Int}
    (h : ∀ k pe, c.pendingCookieByTxid.lookup k = some pe → nowNs ≤ pe.receivedNs + pendingCookieTTL) :
    c.evictStalePendingCookies nowNs = c := by
  have hswept : c.pendingCookieByTxid.sweep
      (fun p => decide (p.receivedNs < nowNs - pendingCookieTTL)) = c.pendingCookieByTxid := by
    apply LruMap.sweep_of_forall
    intro k pe hpe
    have := h k pe hpe
    exact decide_eq_false (by omega)
  simp only [evictStalePendingCookies, hswept]

/-- While the pending events are fresh, a sweep only gives up sidebands. -/
theorem pairing_runSweep {c : EventCollector} {now : Int} (mainOrder txidOrder : RangeOrder MainEvent)
    (hmain : ∀ k pe, c.pendingMain.lookup k = some pe → now ≤ pe.enqueuedNs + pendingMainTTL)
    (htxid : ∀ k pe, c.pendingMainByTxid.lookup k = some pe → now ≤ pe.enqueuedNs + pendingMainTTL) :
    let stale := fun pe : PendingOnewayEntry => decide (pe.enqueuedNs < now - pendingOnewayTTL)
    (c.runSweep now mainOrder txidOrder).pairing = { c.pairing with
      pendingOneway := c.pairing.pendingOneway.sweep stale
      recentOneway := c.pairing.recentOneway.sweep fun re => re.enqueuedNs < now - recentOnewayEmitTTL
      sidebandOrphan := c.pairing.sidebandOrphan + (c.pairing.pendingOneway.swept stale).length } := by
  have stays : ∀ m : LruMap UInt64 PendingMainEntry,
      (∀ k pe, m.lookup k = some pe → now ≤ pe.enqueuedNs + pendingMainTTL) →
      m.sweep (fun pm => decide (pm.enqueuedNs < now - pendingMainTTL)) = m ∧
        m.swept (fun pm => decide (pm.enqueuedNs < now - pendingMainTTL)) = [] := by
    intro m hm
    have hstale : ∀ k (pe : PendingMainEntry), m.lookup k = some pe →
        decide (pe.enqueuedNs < now - pendingMainTTL) = false := by
      intro k pe hpe
      have := hm k pe hpe
      exact decide_eq_false (by omega)
    exact ⟨LruMap.sweep_of_forall hstale, LruMap.swept_of_forall hstale⟩
  have hvisit : ∀ o : RangeOrder MainEvent, o.visit [] = [] := fun o => List.perm_nil.1 (o.perm [])
  obtain ⟨hm, hm'⟩ := stays _ hmain
  obtain ⟨ht, ht'⟩ := stays _ htxid
  simp only [runSweep, pairing, addEntryEarlyReturn, addSidebandOrphan, flushEmissions, hm, hm', ht, ht',
    List.map_nil, hvisit, List.append_nil, List.length_nil, Nat.add_zero]

/-! ### Entering and leaving -/

theorem pairing_parkPendingMain {c : EventCollector} {cookie : UInt64} {pe : PendingMainEntry}
    (hroom : (c.pendingMain.push cookie pe).lru.len ≤ pendingMainCapacity) :
    (c.parkPendingMain cookie pe).pairing =
      { c.pairing with pendingMain := c.pairing.pendingMain.push cookie pe } := by
  simp [parkPendingMain, LruMap.evict_of_len_le hroom, pairing, addEntryEarlyReturn, flushEmissions]

theorem pairing_parkPendingMainByTxid {c : EventCollector} {transactionId : UInt64} {pe : PendingMainEntry}
    (hroom : (c.pendingMainByTxid.push transactionId pe).lru.len ≤ pendingMainCapacity) :
    (c.parkPendingMainByTxid transactionId pe).pairing =
      { c.pairing with pendingMainByTxid := c.pairing.pendingMainByTxid.push transactionId pe } := by
  simp [parkPendingMainByTxid, LruMap.evict_of_len_le hroom, pairing, addEntryEarlyReturn, flushEmissions]

/-- A synchronous request without a cookie waits for it. -/
theorem pairing_dispatch_waiting {c : EventCollector} {ev : MainEvent} {transactionId : UInt64} {nowNs : Int}
    (hreply : ev.payload.isReply = 0) (hsync : ev.payload.isOneway = false) (htxid : transactionId ≠ 0)
    (hlegacy : c.legacyCookieZeroSyncEmit = false)
    (hfree : c.pendingMainByTxid.lookup transactionId = none)
    (hroom : (c.pendingMainByTxid.push transactionId { enqueuedNs := nowNs, event := ev }).lru.len ≤
      pendingMainCapacity) :
    (c.dispatchMainEvent ev 0 transactionId nowNs).pairing =
      { c.pairing with pendingMainByTxid :=
          c.pairing.pendingMainByTxid.push transactionId { enqueuedNs := nowNs, event := ev } } := by
  have hdemote : c.demotePendingMainByTxid transactionId = c := by
    simp only [demotePendingMainByTxid, hfree]
  simp only [dispatchMainEvent, hreply, hsync, htxid, hlegacy, hdemote]
  exact pairing_parkPendingMainByTxid hroom

/-- A synchronous request with a cookie waits for the sideband. -/
theorem pairing_dispatch_paired {c : EventCollector} {ev : MainEvent} {cookie transactionId : UInt64}
    {nowNs : Int} (hreply : ev.payload.isReply = 0) (hsync : ev.payload.isOneway = false)
    (hcookie : cookie ≠ 0)
    (hroom : (c.pendingMain.push cookie { enqueuedNs := nowNs, event := ev }).lru.len ≤ pendingMainCapacity) :
    (c.dispatchMainEvent ev cookie transactionId nowNs).pairing =
      { c.pairing with
        pendingMain := c.pairing.pendingMain.push cookie { enqueuedNs := nowNs, event := ev } } := by
  have hsame := c.pairing_checkCookieDuplicate cookie
  have hroom' : ((c.checkCookieDuplicate cookie).pendingMain.push cookie
      { enqueuedNs := nowNs, event := ev }).lru.len ≤ pendingMainCapacity := by
    rwa [show (c.checkCookieDuplicate cookie).pendingMain = c.pendingMain from
      congrArg Pairing.pendingMain hsame]
  have hdispatch : c.dispatchMainEvent ev cookie transactionId nowNs =
      (c.checkCookieDuplicate cookie).parkPendingMain cookie { enqueuedNs := nowNs, event := ev } := by
    simp [dispatchMainEvent, hreply, hsync, hcookie]
  rw [hdispatch, pairing_parkPendingMain hroom', hsame]

/-- Routing a complete shipment closes its buffer, logs its event and dispatches it. -/
theorem routeShipment_eq (c : EventCollector) (env : EventEnv) (s : Shipment) (cookie : UInt64) :
    ∃ (m : EventCollector) (stackTrace : Option StackTrace),
      let ev := s.event c.routed.length env.nowNs stackTrace
      m.pairing = c.pairing ∧
      m.intake = { c.intake with
        transactionBuffers := c.transactionBuffers.erase s.txid
        routed := c.routed ++ [⟨ev, cookie, s.txid, env.nowNs⟩] } ∧
      c.routeShipment env s cookie = m.dispatchMainEvent ev cookie s.txid env.nowNs := by
  let merged := (c.closeBuffer s.txid).mergePendingStack s.txid env.symbolizeStackEvent
  have hintake : merged.1.intake = (c.closeBuffer s.txid).intake := mergePendingStack_frame _ _ _
  have hpairing : merged.1.pairing = c.pairing := (sameMachine_mergePendingStack _ _ _).pairing
  have hrouted : merged.1.routed = c.routed := congrArg Intake.routed hintake
  let r : Routing := ⟨s.event c.routed.length env.nowNs merged.2, cookie, s.txid, env.nowNs⟩
  refine ⟨{ merged.1 with routed := c.routed ++ [r] }, merged.2, hpairing, ?_, ?_⟩
  · exact congrArg (fun i => { i with routed := c.routed ++ [r] }) hintake
  · simp only [routeShipment, routeMainEvent]
    change EventCollector.dispatchMainEvent { merged.1 with routed := merged.1.routed ++
      [⟨s.event merged.1.routed.length env.nowNs merged.2, cookie, s.txid, env.nowNs⟩] }
      (s.event merged.1.routed.length env.nowNs merged.2) cookie s.txid env.nowNs = _
    rw [hrouted]

end EventCollector

end BinderTracer.Daemon
