import BinderTracer.Daemon.Collector

/-!
# The pairing state machine

The part of the collector that decides when a completed event leaves it: `routeMainEvent`,
`handleSideband`, `handleCookieSideband` and `runSweep`, with the helpers they share. Each function
takes the clock readings it makes as arguments. `onEvent` is installed (`daemon.go` sets it before
the collector starts), so emitting appends to the `emitted` log.
-/

namespace BinderTracer.Daemon

open BinderTracer.Kernel BinderTracer.Lib

/-- The event is a oneway call: `tx_flags & TF_ONE_WAY`. -/
def BinderEventPayload.isOneway (p : BinderEventPayload) : Bool := (p.flags &&& txFlagOneWay) != 0

/-- `applySideband`: fill in the fields that are still zero. -/
def applySideband (ev : BinderEventPayload) (debugID : UInt64) (toPid toUid : UInt32)
    (toUidUnsupported : UInt8) : BinderEventPayload :=
  { ev with
    pairId := if ev.pairId = 0 ∧ debugID ≠ 0 then debugID else ev.pairId
    toPid := if ev.toPid = 0 ∧ toPid ≠ 0 then toPid else ev.toPid
    toUid := if toUidUnsupported = 0 ∧ toUid ≠ 0 ∧ ev.toUid = 0 then toUid else ev.toUid }

/-- `applySideband` through the pointer to an event. -/
def MainEvent.applySideband (ev : MainEvent) (debugID : UInt64) (toPid toUid : UInt32)
    (toUidUnsupported : UInt8) : MainEvent :=
  { ev with payload := Daemon.applySideband ev.payload debugID toPid toUid toUidUnsupported }

/-- The part of the collector that records pass through before they reach the state machine, and
the log of what did. -/
structure Intake where
  transactionBuffers : Table UInt64 TxBuffer
  pendingCookieByTxid : LruMap UInt64 PendingCookieEntry
  legacyCookieZeroSyncEmit : Bool
  routed : List Routing

namespace EventCollector

/-- `flushEmissions`. -/
def flushEmissions (c : EventCollector) (events : List MainEvent) : EventCollector :=
  { c with emitted := c.emitted ++ events }

/-- `emit`. -/
def emit (c : EventCollector) (ev : MainEvent) : EventCollector := c.flushEmissions [ev]

/-- `failures.entryEarlyReturn.Add(n)`. -/
def addEntryEarlyReturn (c : EventCollector) (n : Nat) : EventCollector :=
  { c with failures := { c.failures with entryEarlyReturn := c.failures.entryEarlyReturn + n } }

/-- `failures.sidebandOrphan.Add(n)`. -/
def addSidebandOrphan (c : EventCollector) (n : Nat) : EventCollector :=
  { c with failures := { c.failures with sidebandOrphan := c.failures.sidebandOrphan + n } }

/-- `checkCookieDuplicate`: a ring of the cookies accepted last, and the set of its contents. -/
def checkCookieDuplicate (c : EventCollector) (cookie : UInt64) : EventCollector :=
  if cookie ∈ c.recentCookieSet then
    { c with failures :=
        { c.failures with cookieMonotonicViolation := c.failures.cookieMonotonicViolation + 1 } }
  else
    let old := c.recentCookieRing.get c.recentCookieHead
    -- 0 is the initial content of a slot
    let kept := if old ≠ 0 then c.recentCookieSet.erase old else c.recentCookieSet
    { c with
      recentCookieRing := c.recentCookieRing.set c.recentCookieHead cookie
      recentCookieHead := c.recentCookieHead + 1
      recentCookieSet := insert cookie kept }

/-- `recordRecentOnewayEmit`. -/
def recordRecentOnewayEmit (c : EventCollector) (cookie : UInt64) (nowNs : Int) : EventCollector :=
  match c.recentOneway.lookup cookie with
  | some _ => { c with recentOneway := c.recentOneway.touch cookie ⟨nowNs⟩ }
  | none =>
    { c with recentOneway := ((c.recentOneway.push cookie ⟨nowNs⟩).evict recentOnewayCapacity).1 }

/-- Enter an event in `pendingMain` and evict what exceeds the capacity
(`evictLRUIfFullCollect` with `evictPendingMainBackCollect`). -/
def parkPendingMain (c : EventCollector) (cookie : UInt64) (pe : PendingMainEntry) : EventCollector :=
  let (pendingMain, evicted) := (c.pendingMain.push cookie pe).evict pendingMainCapacity
  (({ c with pendingMain }).addEntryEarlyReturn evicted.length).flushEmissions
    (evicted.map PendingMainEntry.event)

/-- The same for `pendingMainByTxid` (`evictPendingMainTxidBackCollect`). -/
def parkPendingMainByTxid (c : EventCollector) (transactionId : UInt64) (pe : PendingMainEntry) :
    EventCollector :=
  let (pendingMainByTxid, evicted) := (c.pendingMainByTxid.push transactionId pe).evict pendingMainCapacity
  (({ c with pendingMainByTxid }).addEntryEarlyReturn evicted.length).flushEmissions
    (evicted.map PendingMainEntry.event)

/-- Give up waiting for the event that `pendingMain` holds under `cookie`, if any. -/
def demotePendingMain (c : EventCollector) (cookie : UInt64) : EventCollector :=
  match c.pendingMain.lookup cookie with
  | none => c
  | some old =>
    (({ c with pendingMain := c.pendingMain.drop cookie }).addEntryEarlyReturn 1).emit old.event

/-- Give up waiting for the event that `pendingMainByTxid` holds under `transactionId`, if any. -/
def demotePendingMainByTxid (c : EventCollector) (transactionId : UInt64) : EventCollector :=
  match c.pendingMainByTxid.lookup transactionId with
  | none => c
  | some old =>
    (({ c with pendingMainByTxid := c.pendingMainByTxid.drop transactionId }).addEntryEarlyReturn 1).emit
      old.event

/-- The oneway branch of `routeMainEvent`: emit at once, merged with a sideband that came first. -/
def emitOneway (c : EventCollector) (ev : MainEvent) (cookie : UInt64) (nowNs : Int) : EventCollector :=
  match c.pendingOneway.lookup cookie with
  | some pe =>
    (({ c with pendingOneway := c.pendingOneway.drop cookie
               merged := c.merged ++ [cookie] }).recordRecentOnewayEmit cookie nowNs).emit
      (ev.applySideband pe.kernelDebugId pe.toPid pe.toUid pe.toUidUnsupported)
  | none => (c.recordRecentOnewayEmit cookie nowNs).emit ev

/-- The body of `routeMainEvent`. The branch for a SYNC request with a cookie enters it in
`pendingMain` whether or not the cookie is already there. -/
def dispatchMainEvent (c : EventCollector) (ev : MainEvent) (cookie transactionId : UInt64)
    (nowNs : Int) : EventCollector :=
  if ev.payload.isReply ≠ 0 then c.emit ev
  else if cookie = 0 then
    if ev.payload.isOneway ∨ transactionId = 0 ∨ c.legacyCookieZeroSyncEmit then c.emit ev
    else
      (c.demotePendingMainByTxid transactionId).parkPendingMainByTxid transactionId
        { enqueuedNs := nowNs, event := ev }
  else if ev.payload.isOneway then (c.checkCookieDuplicate cookie).emitOneway ev cookie nowNs
  else (c.checkCookieDuplicate cookie).parkPendingMain cookie { enqueuedNs := nowNs, event := ev }

/-- `routeMainEvent`. -/
def routeMainEvent (c : EventCollector) (ev : MainEvent) (cookie transactionId : UInt64)
    (nowNs : Int) : EventCollector :=
  let call : Routing := { event := ev, cookie, transactionId, nowNs }
  ({ c with routed := c.routed ++ [call] }).dispatchMainEvent ev cookie transactionId nowNs

/-- Enter a sideband in `pendingOneway` and count what exceeds the capacity as orphans
(`evictPendingOnewayBack`). -/
def parkPendingOneway (c : EventCollector) (cookie : UInt64) (pe : PendingOnewayEntry) : EventCollector :=
  let (pendingOneway, evicted) := (c.pendingOneway.push cookie pe).evict pendingOnewayCapacity
  ({ c with pendingOneway }).addSidebandOrphan evicted.length

/-- `handleSideband`. -/
def handleSideband (c : EventCollector) (nowNs : Int) (sb : BinderSidebandEvent) : EventCollector :=
  match c.pendingMain.lookup sb.cookie with
  | some pm =>
    ({ c with pendingMain := c.pendingMain.drop sb.cookie, merged := c.merged ++ [sb.cookie] }).emit
      (pm.event.applySideband sb.kernelDebugId sb.toPid sb.toUid sb.toUidUnsupported)
  | none =>
    match c.pendingOneway.lookup sb.cookie with
    | some _ =>
      -- a sideband that was sent twice
      ({ c with pendingOneway := c.pendingOneway.drop sb.cookie }).addSidebandOrphan 1
    | none =>
      match c.recentOneway.lookup sb.cookie with
      | some _ =>
        { c with failures := { c.failures with onewaySidebandLate := c.failures.onewaySidebandLate + 1 } }
      | none =>
        c.parkPendingOneway sb.cookie
          { enqueuedNs := nowNs, kernelDebugId := sb.kernelDebugId, toPid := sb.toPid,
            toUid := sb.toUid, toUidUnsupported := sb.toUidUnsupported }

/-- `evictStalePendingCookies`. -/
def evictStalePendingCookies (c : EventCollector) (nowNs : Int) : EventCollector :=
  { c with pendingCookieByTxid :=
      c.pendingCookieByTxid.sweep fun p => p.receivedNs < nowNs - pendingCookieTTL }

/-- Keep a cookie until the transaction's first chunk arrives: case b of `handleCookieSideband`. -/
def parkPendingCookie (c : EventCollector) (transactionId cookie : UInt64) (receivedNs staleNs : Int) :
    EventCollector :=
  let stored := match c.pendingCookieByTxid.lookup transactionId with
    | some _ => c.pendingCookieByTxid.touch transactionId ⟨cookie, receivedNs⟩
    | none => c.pendingCookieByTxid.push transactionId ⟨cookie, receivedNs⟩
  ({ c with pendingCookieByTxid := (stored.evict pendingCookieCapacity).1 }).evictStalePendingCookies staleNs

/-- Cases a' and b of `handleCookieSideband`, when no open buffer takes the cookie: an event that
waits for it moves on to `pendingMain`, and a cookie that nothing waits for is kept. -/
def offerCookie (c : EventCollector) (transactionId cookie : UInt64) (receivedNs staleNs : Int) :
    EventCollector :=
  match c.pendingMainByTxid.lookup transactionId with
  | some pe =>
    (({ c with pendingMainByTxid := c.pendingMainByTxid.drop transactionId }).demotePendingMain
      cookie).parkPendingMain cookie { pe with cookie := cookie }
  | none => c.parkPendingCookie transactionId cookie receivedNs staleNs

/-- `handleCookieSideband`: give the cookie to the open buffer, to the event that waits for it, or
to the map of cookies that came first. -/
def handleCookieSideband (c : EventCollector) (receivedNs staleNs : Int) (cs : BinderCookieSideband) :
    EventCollector :=
  if cs.transactionIdHint = 0 ∨ cs.cookie = 0 then c
  else
    match c.transactionBuffers.lookup cs.transactionIdHint with
    | some buf =>
      if buf.txMeta.cookie = 0 then
        let buf := { buf with txMeta := { buf.txMeta with cookie := cs.cookie } }
        { c with transactionBuffers := c.transactionBuffers.insert cs.transactionIdHint buf }
      else c.offerCookie cs.transactionIdHint cs.cookie receivedNs staleNs
    | none => c.offerCookie cs.transactionIdHint cs.cookie receivedNs staleNs

/-- `runSweep`: emit the events that waited too long, count the sidebands that did. -/
def runSweep (c : EventCollector) (now : Int) (mainOrder txidOrder : RangeOrder MainEvent) :
    EventCollector :=
  let staleMain := fun pm : PendingMainEntry => decide (pm.enqueuedNs < now - pendingMainTTL)
  let staleOneway := fun pe : PendingOnewayEntry => decide (pe.enqueuedNs < now - pendingOnewayTTL)
  let staleRecent := fun re : RecentOnewayEntry => decide (re.enqueuedNs < now - recentOnewayEmitTTL)
  let fromMain := c.pendingMain.swept staleMain
  let fromTxid := c.pendingMainByTxid.swept staleMain
  let orphans := c.pendingOneway.swept staleOneway
  let swept : EventCollector :=
    { c with
      pendingMain := c.pendingMain.sweep staleMain
      pendingMainByTxid := c.pendingMainByTxid.sweep staleMain
      pendingOneway := c.pendingOneway.sweep staleOneway
      recentOneway := c.recentOneway.sweep staleRecent }
  ((swept.addEntryEarlyReturn (fromMain.length + fromTxid.length)).addSidebandOrphan
    orphans.length).flushEmissions
      (mainOrder.visit (fromMain.map PendingMainEntry.event) ++
        txidOrder.visit (fromTxid.map PendingMainEntry.event))

/-! ### What the state machine leaves alone -/

def intake (c : EventCollector) : Intake where
  transactionBuffers := c.transactionBuffers
  pendingCookieByTxid := c.pendingCookieByTxid
  legacyCookieZeroSyncEmit := c.legacyCookieZeroSyncEmit
  routed := c.routed

/-- The intake, and the stacks that wait for their event. -/
def upstream (c : EventCollector) : Intake × Table UInt64 PendingStackEntry := (c.intake, c.pendingStack)

@[simp] theorem upstream_emit (c : EventCollector) (ev : MainEvent) : (c.emit ev).upstream = c.upstream := rfl

@[simp] theorem upstream_checkCookieDuplicate (c : EventCollector) (cookie : UInt64) :
    (c.checkCookieDuplicate cookie).upstream = c.upstream := by
  unfold checkCookieDuplicate
  split <;> rfl

@[simp] theorem upstream_recordRecentOnewayEmit (c : EventCollector) (cookie : UInt64) (nowNs : Int) :
    (c.recordRecentOnewayEmit cookie nowNs).upstream = c.upstream := by
  unfold recordRecentOnewayEmit
  split <;> rfl

@[simp] theorem upstream_parkPendingMain (c : EventCollector) (cookie : UInt64) (pe : PendingMainEntry) :
    (c.parkPendingMain cookie pe).upstream = c.upstream := rfl

@[simp] theorem upstream_parkPendingMainByTxid (c : EventCollector) (transactionId : UInt64)
    (pe : PendingMainEntry) : (c.parkPendingMainByTxid transactionId pe).upstream = c.upstream := rfl

@[simp] theorem upstream_demotePendingMain (c : EventCollector) (cookie : UInt64) :
    (c.demotePendingMain cookie).upstream = c.upstream := by
  unfold demotePendingMain
  split <;> rfl

@[simp] theorem upstream_demotePendingMainByTxid (c : EventCollector) (transactionId : UInt64) :
    (c.demotePendingMainByTxid transactionId).upstream = c.upstream := by
  unfold demotePendingMainByTxid
  split <;> rfl

@[simp] theorem upstream_emitOneway (c : EventCollector) (ev : MainEvent) (cookie : UInt64) (nowNs : Int) :
    (c.emitOneway ev cookie nowNs).upstream = c.upstream := by
  unfold emitOneway
  split
  · rw [upstream_emit, upstream_recordRecentOnewayEmit]
    rfl
  · rw [upstream_emit, upstream_recordRecentOnewayEmit]

/-- Routing an event changes neither the buffers nor the cookies and stacks that wait for one. -/
theorem upstream_dispatchMainEvent (c : EventCollector) (ev : MainEvent)
    (cookie transactionId : UInt64) (nowNs : Int) :
    (c.dispatchMainEvent ev cookie transactionId nowNs).upstream = c.upstream := by
  unfold dispatchMainEvent
  split
  · rfl
  · split
    · split <;> simp
    · split <;> simp

theorem upstream_handleSideband (c : EventCollector) (nowNs : Int) (sb : BinderSidebandEvent) :
    (c.handleSideband nowNs sb).upstream = c.upstream := by
  unfold handleSideband
  split
  · rfl
  · split
    · rfl
    · split <;> rfl

@[simp] theorem intake_parkPendingMain (c : EventCollector) (cookie : UInt64) (pe : PendingMainEntry) :
    (c.parkPendingMain cookie pe).intake = c.intake := rfl

@[simp] theorem intake_dispatchMainEvent (c : EventCollector) (ev : MainEvent)
    (cookie transactionId : UInt64) (nowNs : Int) :
    (c.dispatchMainEvent ev cookie transactionId nowNs).intake = c.intake :=
  congrArg Prod.fst (c.upstream_dispatchMainEvent ev cookie transactionId nowNs)

@[simp] theorem intake_handleSideband (c : EventCollector) (nowNs : Int) (sb : BinderSidebandEvent) :
    (c.handleSideband nowNs sb).intake = c.intake :=
  congrArg Prod.fst (c.upstream_handleSideband nowNs sb)

@[simp] theorem intake_runSweep (c : EventCollector) (now : Int)
    (mainOrder txidOrder : RangeOrder MainEvent) :
    (c.runSweep now mainOrder txidOrder).intake = c.intake := rfl

/-- A cookie that no open buffer takes changes the cookies that wait at most. -/
theorem upstream_offerCookie (c : EventCollector) (transactionId cookie : UInt64) (receivedNs staleNs : Int) :
    ∃ pendingCookieByTxid, (c.offerCookie transactionId cookie receivedNs staleNs).upstream =
      { c with pendingCookieByTxid }.upstream := by
  unfold offerCookie
  split
  · exact ⟨c.pendingCookieByTxid, upstream_demotePendingMain _ cookie⟩
  · exact ⟨_, rfl⟩

/-- A cookie sideband changes the open buffers at most, or is offered to the events that wait for it. -/
theorem handleCookieSideband_cases (c : EventCollector) (receivedNs staleNs : Int)
    (cs : BinderCookieSideband) :
    (∃ transactionBuffers, c.handleCookieSideband receivedNs staleNs cs = { c with transactionBuffers }) ∨
      c.handleCookieSideband receivedNs staleNs cs =
        c.offerCookie cs.transactionIdHint cs.cookie receivedNs staleNs := by
  unfold handleCookieSideband
  split
  · exact .inl ⟨c.transactionBuffers, rfl⟩
  split
  · split
    · exact .inl ⟨_, rfl⟩
    · exact .inr rfl
  · exact .inr rfl

/-- A cookie sideband changes the buffers and the cookies that wait at most. -/
theorem upstream_handleCookieSideband (c : EventCollector) (receivedNs staleNs : Int)
    (cs : BinderCookieSideband) : ∃ transactionBuffers pendingCookieByTxid,
      (c.handleCookieSideband receivedNs staleNs cs).upstream =
        { c with transactionBuffers, pendingCookieByTxid }.upstream := by
  obtain ⟨transactionBuffers, hbuffers⟩ | hoffer := c.handleCookieSideband_cases receivedNs staleNs cs
  · exact ⟨transactionBuffers, c.pendingCookieByTxid, congrArg upstream hbuffers⟩
  · obtain ⟨pendingCookieByTxid, hframe⟩ := c.upstream_offerCookie cs.transactionIdHint cs.cookie receivedNs staleNs
    exact ⟨c.transactionBuffers, pendingCookieByTxid, (congrArg upstream hoffer).trans hframe⟩

/-- A cookie sideband routes nothing. -/
theorem routed_handleCookieSideband (c : EventCollector) (receivedNs staleNs : Int)
    (cs : BinderCookieSideband) : (c.handleCookieSideband receivedNs staleNs cs).routed = c.routed := by
  obtain ⟨_, _, hframe⟩ := c.upstream_handleCookieSideband receivedNs staleNs cs
  exact congrArg (fun u => u.1.routed) hframe

end EventCollector

end BinderTracer.Daemon
