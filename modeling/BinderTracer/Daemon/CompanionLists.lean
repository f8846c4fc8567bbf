import BinderTracer.Daemon.HandleEvent

/-!
# The maps of the collector and their lists

Each pending map has a list of its keys beside it, most recently used first, and every entry points to its
element. Nothing but the code keeps the two together: a key is entered in both, taken out of both, and evicted
from the end of the list. For four of the maps every call does so, and keeps them within their capacities.

`pendingMain` is not among them: a SYNC request is entered under its cookie whether or not the cookie is there,
and the element of the entry it replaces stays in the list.
-/

namespace BinderTracer.Daemon

open BinderTracer.Kernel BinderTracer.Lib

namespace EventCollector

/-- The four maps are in step with their lists. -/
structure ListsWithin (c : EventCollector) : Prop where
  mainByTxid : c.pendingMainByTxid.Within pendingMainCapacity
  oneway : c.pendingOneway.Within pendingOnewayCapacity
  recent : c.recentOneway.Within recentOnewayCapacity
  cookies : c.pendingCookieByTxid.Within pendingCookieCapacity

namespace ListsWithin

variable {c c' : EventCollector}

theorem start : newEventCollector.ListsWithin := ⟨.empty _, .empty _, .empty _, .empty _⟩

/-! ### The state machine -/

theorem emit (h : c.ListsWithin) (ev : MainEvent) : (c.emit ev).ListsWithin :=
  ⟨h.mainByTxid, h.oneway, h.recent, h.cookies⟩

theorem checkCookieDuplicate (h : c.ListsWithin) (cookie : UInt64) :
    (c.checkCookieDuplicate cookie).ListsWithin := by
  unfold EventCollector.checkCookieDuplicate
  split <;> exact ⟨h.mainByTxid, h.oneway, h.recent, h.cookies⟩

theorem demotePendingMain (h : c.ListsWithin) (cookie : UInt64) : (c.demotePendingMain cookie).ListsWithin := by
  unfold EventCollector.demotePendingMain
  split <;> exact ⟨h.mainByTxid, h.oneway, h.recent, h.cookies⟩

theorem parkPendingMain (h : c.ListsWithin) (cookie : UInt64) (pe : PendingMainEntry) :
    (c.parkPendingMain cookie pe).ListsWithin :=
  ⟨h.mainByTxid, h.oneway, h.recent, h.cookies⟩

/-- A cookie that is there already moves to the front; a new one is entered. -/
theorem recordRecentOnewayEmit (h : c.ListsWithin) (cookie : UInt64) (nowNs : Int) :
    (c.recordRecentOnewayEmit cookie nowNs).ListsWithin := by
  unfold EventCollector.recordRecentOnewayEmit
  split
  · exact ⟨h.mainByTxid, h.oneway, h.recent.touch cookie ⟨nowNs⟩, h.cookies⟩
  · next hnew => exact ⟨h.mainByTxid, h.oneway, h.recent.push_evict ⟨nowNs⟩ hnew, h.cookies⟩

theorem emitOneway (h : c.ListsWithin) (ev : MainEvent) (cookie : UInt64) (nowNs : Int) :
    (c.emitOneway ev cookie nowNs).ListsWithin := by
  unfold EventCollector.emitOneway
  split
  · have hdropped : ({ c with
        pendingOneway := c.pendingOneway.drop cookie, merged := c.merged ++ [cookie] }).ListsWithin :=
      ⟨h.mainByTxid, h.oneway.drop cookie, h.recent, h.cookies⟩
    exact (hdropped.recordRecentOnewayEmit cookie nowNs).emit _
  · exact (h.recordRecentOnewayEmit cookie nowNs).emit ev

/-- The event that is there under the id gives way first, so the id is new when it is entered. -/
theorem parkPendingMainByTxid (h : c.ListsWithin) (transactionId : UInt64) (pe : PendingMainEntry) :
    ((c.demotePendingMainByTxid transactionId).parkPendingMainByTxid transactionId pe).ListsWithin := by
  have hdemoted : (c.demotePendingMainByTxid transactionId).ListsWithin ∧
      (c.demotePendingMainByTxid transactionId).pendingMainByTxid.lookup transactionId = none := by
    unfold EventCollector.demotePendingMainByTxid
    split
    · next hnone => exact ⟨h, hnone⟩
    · exact ⟨⟨h.mainByTxid.drop transactionId, h.oneway, h.recent, h.cookies⟩, LruMap.lookup_drop_self _ _⟩
  obtain ⟨⟨hmain, honeway, hrecent, hcookies⟩, hnew⟩ := hdemoted
  exact ⟨hmain.push_evict pe hnew, honeway, hrecent, hcookies⟩

theorem dispatchMainEvent (h : c.ListsWithin) (ev : MainEvent) (cookie transactionId : UInt64) (nowNs : Int) :
    (c.dispatchMainEvent ev cookie transactionId nowNs).ListsWithin := by
  unfold EventCollector.dispatchMainEvent
  split
  · exact h.emit ev
  split
  · split
    · exact h.emit ev
    · exact h.parkPendingMainByTxid transactionId _
  split
  · exact (h.checkCookieDuplicate cookie).emitOneway ev cookie nowNs
  · exact (h.checkCookieDuplicate cookie).parkPendingMain cookie _

theorem routeMainEvent (h : c.ListsWithin) (ev : MainEvent) (cookie transactionId : UInt64) (nowNs : Int) :
    (c.routeMainEvent ev cookie transactionId nowNs).ListsWithin := by
  apply dispatchMainEvent
  exact ⟨h.mainByTxid, h.oneway, h.recent, h.cookies⟩

theorem handleSideband (h : c.ListsWithin) (nowNs : Int) (sb : BinderSidebandEvent) :
    (c.handleSideband nowNs sb).ListsWithin := by
  unfold EventCollector.handleSideband
  split
  · exact ⟨h.mainByTxid, h.oneway, h.recent, h.cookies⟩
  split
  · exact ⟨h.mainByTxid, h.oneway.drop sb.cookie, h.recent, h.cookies⟩
  next hnew =>
  split
  · exact ⟨h.mainByTxid, h.oneway, h.recent, h.cookies⟩
  · exact ⟨h.mainByTxid, h.oneway.push_evict _ hnew, h.recent, h.cookies⟩

theorem runSweep (h : c.ListsWithin) (now : Int) (mainOrder txidOrder : RangeOrder MainEvent) :
    (c.runSweep now mainOrder txidOrder).ListsWithin := by
  refine ⟨?_, ?_, ?_, h.cookies⟩
  · exact h.mainByTxid.sweep fun pm => pm.enqueuedNs < now - pendingMainTTL
  · exact h.oneway.sweep fun pe => pe.enqueuedNs < now - pendingOnewayTTL
  · exact h.recent.sweep fun re => re.enqueuedNs < now - recentOnewayEmitTTL

/-! ### The cookies that wait for a transaction -/

theorem evictStalePendingCookies (h : c.ListsWithin) (nowNs : Int) :
    (c.evictStalePendingCookies nowNs).ListsWithin :=
  ⟨h.mainByTxid, h.oneway, h.recent, h.cookies.sweep fun p => p.receivedNs < nowNs - pendingCookieTTL⟩

theorem parkPendingCookie (h : c.ListsWithin) (transactionId cookie : UInt64) (receivedNs staleNs : Int) :
    (c.parkPendingCookie transactionId cookie receivedNs staleNs).ListsWithin := by
  unfold EventCollector.parkPendingCookie
  apply evictStalePendingCookies
  refine ⟨h.mainByTxid, h.oneway, h.recent, ?_⟩
  split
  · exact .evict (h.cookies.coherent.touch transactionId ⟨cookie, receivedNs⟩) _
  · next hnew => exact h.cookies.push_evict ⟨cookie, receivedNs⟩ hnew

/-- The event that waits for the cookie leaves one list for the other. -/
theorem offerCookie (h : c.ListsWithin) (transactionId cookie : UInt64) (receivedNs staleNs : Int) :
    (c.offerCookie transactionId cookie receivedNs staleNs).ListsWithin := by
  unfold EventCollector.offerCookie
  split
  · have htaken : ({ c with pendingMainByTxid := c.pendingMainByTxid.drop transactionId }).ListsWithin :=
      ⟨h.mainByTxid.drop transactionId, h.oneway, h.recent, h.cookies⟩
    exact (htaken.demotePendingMain cookie).parkPendingMain cookie _
  · exact h.parkPendingCookie transactionId cookie receivedNs staleNs

theorem handleCookieSideband (h : c.ListsWithin) (receivedNs staleNs : Int) (cs : BinderCookieSideband) :
    (c.handleCookieSideband receivedNs staleNs cs).ListsWithin := by
  obtain ⟨_, hbuffers⟩ | hoffer := c.handleCookieSideband_cases receivedNs staleNs cs
  · rw [hbuffers]
    exact ⟨h.mainByTxid, h.oneway, h.recent, h.cookies⟩
  · rw [hoffer]
    exact h.offerCookie _ _ receivedNs staleNs

/-! ### Records -/

theorem claimCookie (h : c.ListsWithin) (transactionId : UInt64) (buf : TxBuffer) :
    (c.claimCookie transactionId buf).1.ListsWithin := by
  unfold EventCollector.claimCookie
  split
  · exact ⟨h.mainByTxid, h.oneway, h.recent, h.cookies.drop transactionId⟩
  · exact h

theorem openBuffer (h : c.ListsWithin) {env : EventEnv} {event : BinderTraceEvent} {buf : TxBuffer}
    (hopen : c.openBuffer env event = .ok (c', buf)) : c'.ListsWithin := by
  unfold EventCollector.openBuffer at hopen
  split at hopen
  · cases hopen
    exact h
  · cases hmake : makeChunks env.room (totalChunks event.dataSize) with
    | error e =>
      rw [hmake] at hopen
      cases hopen
    | ok chunks =>
      rw [hmake] at hopen
      have hpair := Except.ok.inj hopen
      split at hpair
      · have hclaimed := h.claimCookie event.transactionId
          { firstSeenNs := env.nowNs, chunks, txMeta := TxMeta.ofRecord event }
        rw [hpair] at hclaimed
        exact hclaimed
      · cases hpair
        exact h

theorem maybeCleanup (h : c.ListsWithin) (env : EventEnv) : (c.maybeCleanup env).ListsWithin := by
  unfold EventCollector.maybeCleanup
  split
  · exact ⟨h.mainByTxid, h.oneway, h.recent, h.cookies⟩
  · apply evictStalePendingCookies
    exact ⟨h.mainByTxid, h.oneway, h.recent, h.cookies⟩

theorem completeBuffer (h : c.ListsWithin) {env : EventEnv} {transactionId : UInt64} {buf : TxBuffer}
    (hcomplete : c.completeBuffer env transactionId buf = .ok c') : c'.ListsWithin := by
  rcases completeBuffer_ok hcomplete with rfl | ⟨-, c₁, stackTrace, hstack, rfl⟩
  · exact ⟨h.mainByTxid, h.oneway, h.recent, h.cookies⟩
  · have hmerged : c₁.ListsWithin := by
      unfold mergePendingStack at hstack
      split at hstack
      all_goals
        cases hstack
        exact ⟨h.mainByTxid, h.oneway, h.recent, h.cookies⟩
    exact hmerged.routeMainEvent _ _ _ _

theorem handleEvent (h : c.ListsWithin) {env : EventEnv} {event : BinderTraceEvent}
    (hevent : c.handleEvent env event = .ok c') : c'.ListsWithin := by
  obtain ⟨c₁, buf, chunks, hopen, -, hend⟩ := handleEvent_ok hevent
  obtain ⟨hmain, honeway, hrecent, hcookies⟩ := h.openBuffer hopen
  have hstored : (c₁.putBuffer event.transactionId { buf with chunks }).ListsWithin :=
    ⟨hmain, honeway, hrecent, hcookies⟩
  rcases hend with ⟨-, rfl⟩ | ⟨-, c₃, hcomplete, rfl⟩
  · exact hstored.maybeCleanup env
  · exact (hstored.completeBuffer hcomplete).maybeCleanup env

/-! ### Runs -/

theorem step {call : Call} (h : c.ListsWithin) (hstep : Daemon.step c call = .ok c') : c'.ListsWithin := by
  cases call with
  | handleEvent env event => exact h.handleEvent hstep
  | handleStackRecord receivedNs staleNs st =>
    cases hstep
    exact ⟨h.mainByTxid, h.oneway, h.recent, h.cookies⟩
  | handleSideband nowNs sb =>
    cases hstep
    exact h.handleSideband nowNs sb
  | handleCookieSideband receivedNs staleNs cs =>
    cases hstep
    exact h.handleCookieSideband receivedNs staleNs cs
  | runSweep now mainOrder txidOrder =>
    cases hstep
    exact h.runSweep now mainOrder txidOrder
  | evictStale stackNs cookieNs =>
    cases hstep
    apply evictStalePendingCookies
    exact ⟨h.mainByTxid, h.oneway, h.recent, h.cookies⟩

theorem of_run {calls : List Call} (h : run Daemon.step newEventCollector calls = .ok c) : c.ListsWithin :=
  run_invariant (fun _ _ _ hc hstep => hc.step hstep) start h

end ListsWithin

/-! ### After a sweep -/

/-- No entry of the three maps that are swept is older than its time to live. -/
structure FreshAt (c : EventCollector) (now : Int) : Prop where
  mainByTxid : ∀ transactionId pm, c.pendingMainByTxid.lookup transactionId = some pm →
    now - pm.enqueuedNs ≤ pendingMainTTL
  oneway : ∀ cookie pe, c.pendingOneway.lookup cookie = some pe → now - pe.enqueuedNs ≤ pendingOnewayTTL
  recent : ∀ cookie re, c.recentOneway.lookup cookie = some re → now - re.enqueuedNs ≤ recentOnewayEmitTTL

/-- What a sweep of the entries before a cutoff leaves is not older. -/
theorem fresh_of_sweep {V : Type} {enqueuedNs : V → Int} {now ttl : Int} {m : LruMap UInt64 V} {k : UInt64} {v : V}
    (h : (m.sweep fun e => enqueuedNs e < now - ttl).lookup k = some v) : now - enqueuedNs v ≤ ttl := by
  rw [LruMap.lookup_sweep, Option.filter_eq_some_iff, Bool.not_eq_true', decide_eq_false_iff_not] at h
  obtain ⟨-, hfresh⟩ := h
  omega

theorem freshAt_runSweep (c : EventCollector) (now : Int) (mainOrder txidOrder : RangeOrder MainEvent) :
    (c.runSweep now mainOrder txidOrder).FreshAt now where
  mainByTxid _ _ h := fresh_of_sweep h
  oneway _ _ h := fresh_of_sweep h
  recent _ _ h := fresh_of_sweep h

/-- Each of the four lists has the keys of its map, every entry points to its own element, and no map exceeds its
capacity. -/
structure ListsInStep (c : EventCollector) : Prop where
  mainByTxid : c.pendingMainByTxid.InStep pendingMainCapacity
  oneway : c.pendingOneway.InStep pendingOnewayCapacity
  recent : c.recentOneway.InStep recentOnewayCapacity
  cookies : c.pendingCookieByTxid.InStep pendingCookieCapacity

/-- **Maps and lists stay in step** after every call of every run, and a sweep leaves nothing that is too old. -/
theorem lists_stay_in_step {calls : List Call} {c : EventCollector}
    (h : run Daemon.step newEventCollector calls = .ok c) :
    c.ListsInStep ∧
      ∀ now mainOrder txidOrder, (c.runSweep now mainOrder txidOrder).FreshAt now := by
  obtain ⟨hmain, honeway, hrecent, hcookies⟩ := ListsWithin.of_run h
  refine ⟨⟨hmain.inStep, honeway.inStep, hrecent.inStep, hcookies.inStep⟩, ?_⟩
  exact fun now mainOrder txidOrder => c.freshAt_runSweep now mainOrder txidOrder

/-- A sideband and a cookie that nothing waits for, the cookie twice. -/
def earlySidebands : List Call :=
  [.handleSideband 0 ⟨0, 7, 1, 2, 3⟩, .handleCookieSideband 0 0 ⟨7, 40, 9⟩, .handleCookieSideband 1 1 ⟨8, 41, 9⟩,
    .handleCookieSideband 2 2 ⟨9, 40, 9⟩]

theorem lists_stay_in_step_earlySidebands :
    ∃ c, run Daemon.step newEventCollector earlySidebands = .ok c ∧
      c.pendingCookieByTxid.lru.elems.map Prod.snd = [40, 41] ∧ c.pendingOneway.size = 1 ∧
      c.ListsInStep ∧ ∀ now mainOrder txidOrder, (c.runSweep now mainOrder txidOrder).FreshAt now := by
  refine ⟨_, rfl, by decide +kernel, by decide +kernel, ?_⟩
  exact lists_stay_in_step (rfl : run Daemon.step newEventCollector earlySidebands = _)

end EventCollector

end BinderTracer.Daemon
