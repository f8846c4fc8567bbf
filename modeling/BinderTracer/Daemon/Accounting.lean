import BinderTracer.Daemon.Conservation
import BinderTracer.Daemon.Pairing

/-!
# The accounts behind the failure counters

Two equations hold of the collector after every call. A sideband that `handleSideband` was given has
been merged into an event, waits in `pendingOneway`, or was counted as an orphan or as late, with one
more for each sideband that was sent twice. And `entryEarlyReturn` is the number of SYNC requests that
could have been paired and were emitted without a sideband: each of them had waited in one of the two
maps, and everything that leaves those maps unpaired is counted.
-/

namespace BinderTracer.Daemon

open BinderTracer.Kernel BinderTracer.Lib

/-- A SYNC request that comes with a transaction id or a cookie. -/
def Routing.IsPairable (r : Routing) : Prop :=
  r.event.payload.isReply = 0 ∧ r.event.payload.isOneway = false ∧ (r.transactionId ≠ 0 ∨ r.cookie ≠ 0)

instance : DecidablePred Routing.IsPairable := fun _ => inferInstanceAs (Decidable (_ ∧ _))

/-- The event was routed as a SYNC request with a transaction id or a cookie. -/
def EventCollector.Pairable (c : EventCollector) (ev : MainEvent) : Prop :=
  ∃ r ∈ c.routed, r.event.ref = ev.ref ∧ r.IsPairable

instance (c : EventCollector) : DecidablePred c.Pairable :=
  fun ev => inferInstanceAs (Decidable (∃ r ∈ c.routed, r.event.ref = ev.ref ∧ r.IsPairable))

def Call.isSideband : Call → Bool
  | .handleSideband .. => true
  | _ => false

/-- The call is a `handleSideband` that finds its cookie in `pendingOneway`. -/
def Call.IsDuplicate (c : EventCollector) : Call → Prop
  | .handleSideband _ sb =>
    c.pendingMain.lookup sb.cookie = none ∧ c.pendingOneway.lookup sb.cookie ≠ none
  | _ => False

instance (c : EventCollector) : (call : Call) → Decidable (call.IsDuplicate c)
  | .handleSideband _ _ => inferInstanceAs (Decidable (_ ∧ _))
  | .handleEvent .. | .handleStackRecord .. | .handleCookieSideband .. | .runSweep .. | .evictStale .. =>
    inferInstanceAs (Decidable False)

/-- The calls of a run that were given a sideband for the second time. -/
def duplicates (calls : List Call) : List Call :=
  observations step (fun c call _ => if call.IsDuplicate c then [call] else []) newEventCollector calls

/-- The events emitted in a run without a sideband. A call that merges a sideband emits the event it
is merged into and no other (`step_merging`), so they are what the other calls emit. -/
def emittedUnmerged (calls : List Call) : List MainEvent :=
  observations step (fun c _ c' => if c'.merged = c.merged then c'.emitted.drop c.emitted.length else [])
    newEventCollector calls

namespace EventCollector

/-- The sidebands that were merged, that wait, or that were counted as orphans or as late. -/
def sidebandSum (c : EventCollector) : Nat :=
  c.merged.length + c.pendingOneway.size + c.failures.sidebandOrphan + c.failures.onewaySidebandLate

/-- What the two equations depend on. -/
structure Books where
  pairing : Pairing
  routed : List Routing
  legacyCookieZeroSyncEmit : Bool

def books (c : EventCollector) : Books where
  pairing := c.pairing
  routed := c.routed
  legacyCookieZeroSyncEmit := c.legacyCookieZeroSyncEmit

theorem SameMachine.books {c c' : EventCollector} (h : SameMachine c c') : c'.books = c.books := by
  rw [h]
  rfl

@[simp] theorem books_checkCookieDuplicate (c : EventCollector) (cookie : UInt64) :
    (c.checkCookieDuplicate cookie).books = c.books := by
  unfold checkCookieDuplicate
  split <;> rfl

/-! ### Sidebands -/

theorem sidebandSum_of_books {c c' : EventCollector} (h : c'.books = c.books) :
    c'.sidebandSum = c.sidebandSum :=
  congrArg (fun b : Books => b.pairing.merged.length + b.pairing.pendingOneway.size +
    b.pairing.sidebandOrphan + b.pairing.onewaySidebandLate) h

theorem recordRecentOnewayEmit_eq (c : EventCollector) (cookie : UInt64) (nowNs : Int) :
    ∃ recentOneway, c.recordRecentOnewayEmit cookie nowNs = { c with recentOneway } := by
  unfold recordRecentOnewayEmit
  split <;> exact ⟨_, rfl⟩

theorem sidebandSum_demotePendingMain (c : EventCollector) (cookie : UInt64) :
    (c.demotePendingMain cookie).sidebandSum = c.sidebandSum := by
  unfold demotePendingMain
  split <;> rfl

theorem sidebandSum_demotePendingMainByTxid (c : EventCollector) (transactionId : UInt64) :
    (c.demotePendingMainByTxid transactionId).sidebandSum = c.sidebandSum := by
  unfold demotePendingMainByTxid
  split <;> rfl

/-- A sideband that is merged late leaves `pendingOneway` for it. -/
theorem sidebandSum_emitOneway (c : EventCollector) (ev : MainEvent) (cookie : UInt64) (nowNs : Int) :
    (c.emitOneway ev cookie nowNs).sidebandSum = c.sidebandSum := by
  unfold emitOneway
  split
  · next pe h =>
    obtain ⟨recentOneway, hrecord⟩ := recordRecentOnewayEmit_eq
      { c with pendingOneway := c.pendingOneway.drop cookie, merged := c.merged ++ [cookie] } cookie nowNs
    have hdrop := LruMap.size_drop h
    simp only [hrecord, sidebandSum, emit, flushEmissions, List.length_append, List.length_singleton]
    omega
  · obtain ⟨recentOneway, hrecord⟩ := recordRecentOnewayEmit_eq c cookie nowNs
    rw [hrecord]
    rfl

theorem sidebandSum_dispatchMainEvent (c : EventCollector) (ev : MainEvent)
    (cookie transactionId : UInt64) (nowNs : Int) :
    (c.dispatchMainEvent ev cookie transactionId nowNs).sidebandSum = c.sidebandSum := by
  have hchecked := sidebandSum_of_books (books_checkCookieDuplicate c cookie)
  unfold dispatchMainEvent
  split
  · rfl
  split
  · split
    · rfl
    · exact sidebandSum_demotePendingMainByTxid c transactionId
  split
  · exact (sidebandSum_emitOneway _ ev cookie nowNs).trans hchecked
  · exact hchecked

/-- Every sideband shows up in the sum once, except that one sent twice also takes back the first. -/
theorem sidebandSum_handleSideband (c : EventCollector) (nowNs : Int) (sb : BinderSidebandEvent) :
    (c.handleSideband nowNs sb).sidebandSum +
        (if (Call.handleSideband nowNs sb).IsDuplicate c then 1 else 0) = c.sidebandSum + 1 := by
  simp only [Call.IsDuplicate]
  unfold handleSideband
  split
  · next pm hmain =>
    simp only [hmain, reduceCtorEq, false_and, if_false, sidebandSum, emit, flushEmissions,
      List.length_append, List.length_singleton]
    omega
  next hmain =>
  split
  · next pe honeway =>
    have hdrop := LruMap.size_drop honeway
    simp only [hmain, honeway, ne_eq, reduceCtorEq, not_false_eq_true, and_self, if_true, sidebandSum,
      addSidebandOrphan]
    omega
  next honeway =>
  simp only [honeway, ne_eq, not_true_eq_false, and_false, if_false, Nat.add_zero]
  split
  · simp only [sidebandSum]
    omega
  · simp only [parkPendingOneway, sidebandSum, addSidebandOrphan]
    generalize hpe : PendingOnewayEntry.mk nowNs sb.kernelDebugId sb.toPid sb.toUid sb.toUidUnsupported = pe
    have hpush := LruMap.size_push_fresh pe honeway
    have hevict := LruMap.size_evict pendingOnewayCapacity (c.pendingOneway.push sb.cookie pe)
    omega

theorem sidebandSum_handleCookieSideband (c : EventCollector) (receivedNs staleNs : Int)
    (cs : BinderCookieSideband) :
    (c.handleCookieSideband receivedNs staleNs cs).sidebandSum = c.sidebandSum := by
  obtain ⟨_, hbuffers⟩ | hoffer := c.handleCookieSideband_cases receivedNs staleNs cs
  · rw [hbuffers]
    rfl
  · rw [hoffer]
    unfold offerCookie
    split
    · exact sidebandSum_demotePendingMain _ cs.cookie
    · rfl

theorem sidebandSum_runSweep (c : EventCollector) (now : Int) (mainOrder txidOrder : RangeOrder MainEvent) :
    (c.runSweep now mainOrder txidOrder).sidebandSum = c.sidebandSum := by
  have hsweep := LruMap.size_sweep
    (fun pe : PendingOnewayEntry => decide (pe.enqueuedNs < now - pendingOnewayTTL)) c.pendingOneway
  simp only [sidebandSum, runSweep, flushEmissions, addSidebandOrphan, addEntryEarlyReturn]
  omega

end EventCollector

/-- **One call and the sidebands**: the sum grows by one for a `handleSideband`, unless it is the
second with its cookie. -/
theorem step_sidebandSum {c c' : EventCollector} {call : Call} (h : step c call = .ok c') :
    c'.sidebandSum + (if call.IsDuplicate c then 1 else 0) =
      c.sidebandSum + (if call.isSideband then 1 else 0) := by
  cases call with
  | handleStackRecord receivedNs staleNs st => cases h; rfl
  | evictStale stackNs cookieNs => cases h; rfl
  | handleSideband nowNs sb =>
    cases h
    exact c.sidebandSum_handleSideband nowNs sb
  | handleCookieSideband receivedNs staleNs cs =>
    cases h
    exact c.sidebandSum_handleCookieSideband receivedNs staleNs cs
  | runSweep now mainOrder txidOrder =>
    cases h
    exact c.sidebandSum_runSweep now mainOrder txidOrder
  | handleEvent env event =>
    show c'.sidebandSum = c.sidebandSum
    rcases EventCollector.handleEvent_routes h with hsame | ⟨c₁, r, hc₁, -, -, hroute⟩
    · exact EventCollector.sidebandSum_of_books hsame.books
    · rw [EventCollector.sidebandSum_of_books hroute.books, ← EventCollector.sidebandSum_of_books hc₁.books]
      exact EventCollector.sidebandSum_dispatchMainEvent { c₁ with routed := c₁.routed ++ [r] } ..

/-! ### Early returns -/

/-- The events that a map holds. -/
def events (m : LruMap UInt64 PendingMainEntry) : List MainEvent := m.values.map PendingMainEntry.event

/-- The events that wait to be paired. -/
def Pairing.waiting (p : Pairing) : List MainEvent := events p.pendingMain ++ events p.pendingMainByTxid

/-- Without a merge, the events `given` are given up and counted, and the events `passed` pass
through. What is given up or waits in the end had been waiting, or is among `arrived`. -/
structure Releases (p p' : Pairing) (arrived given passed : List MainEvent) : Prop where
  merged : p'.merged = p.merged
  emitted : p'.emitted = p.emitted ++ (given ++ passed)
  counted : p'.entryEarlyReturn = p.entryEarlyReturn + given.length
  held : given ++ p'.waiting ⊆ arrived ++ p.waiting

/-- A sideband is merged into the one event that is emitted. -/
structure Merges (p p' : Pairing) : Prop where
  merged : p'.merged ≠ p.merged
  emitted : ∃ ev, p'.emitted = p.emitted ++ [ev]
  counted : p'.entryEarlyReturn = p.entryEarlyReturn
  held : p'.waiting ⊆ p.waiting

namespace Releases

theorem refl (p : Pairing) : Releases p p [] [] [] :=
  ⟨rfl, (List.append_nil _).symm, rfl, List.Subset.refl _⟩

theorem trans {p q t : Pairing} {arrived arrived' given given' : List MainEvent}
    (first : Releases p q arrived given []) (second : Releases q t arrived' given' []) :
    Releases p t (arrived ++ arrived') (given ++ given') [] where
  merged := second.merged.trans first.merged
  emitted := by rw [second.emitted, first.emitted]; simp
  counted := by rw [second.counted, first.counted, List.length_append, Nat.add_assoc]
  held := by
    intro ev hev
    have hfirst := @first.held ev
    have hsecond := @second.held ev
    simp only [List.mem_append] at hev hfirst hsecond ⊢
    tauto

/-- An event that had been waiting does not arrive. -/
theorem absorb {p q : Pairing} {ev : MainEvent} {given passed : List MainEvent}
    (h : Releases p q [ev] given passed) (hev : ev ∈ p.waiting) : Releases p q [] given passed where
  merged := h.merged
  emitted := h.emitted
  counted := h.counted
  held := List.Subset.trans h.held (List.cons_subset.2 ⟨hev, List.Subset.refl _⟩)

end Releases

theorem mem_events {m : LruMap UInt64 PendingMainEntry} {k : UInt64} {pe : PendingMainEntry}
    (h : m.lookup k = some pe) : pe.event ∈ events m :=
  List.mem_map_of_mem (LruMap.mem_values_iff.2 ⟨k, h⟩)

theorem events_drop (m : LruMap UInt64 PendingMainEntry) (k : UInt64) : events (m.drop k) ⊆ events m :=
  List.map_subset _ (LruMap.values_drop_subset m k)

theorem events_sweep (m : LruMap UInt64 PendingMainEntry) (p : PendingMainEntry → Bool) :
    (m.swept p).map PendingMainEntry.event ++ events (m.sweep p) ⊆ events m := by
  rw [events, ← List.map_append]
  exact List.map_subset _ (LruMap.values_sweep p m).symm.subset

theorem Pairing.waiting_subset {p p' : Pairing} (hmain : events p.pendingMain ⊆ events p'.pendingMain)
    (htxid : events p.pendingMainByTxid ⊆ events p'.pendingMainByTxid) : p.waiting ⊆ p'.waiting :=
  List.append_subset.2 ⟨List.subset_append_of_subset_left _ hmain, List.subset_append_of_subset_right _ htxid⟩

/-- What a map gives up or holds after an entry and an eviction. -/
theorem events_push_evict (m : LruMap UInt64 PendingMainEntry) (k : UInt64) (pe : PendingMainEntry)
    (cap : Nat) :
    ((m.push k pe).evict cap).2.map PendingMainEntry.event ++ events ((m.push k pe).evict cap).1 ⊆
      pe.event :: events m := by
  rw [events, ← List.map_append]
  refine List.Subset.trans (List.map_subset _ (LruMap.values_evict cap (m.push k pe)).symm.subset) ?_
  rw [LruMap.values_push, List.map_cons]
  exact List.cons_subset_cons _ (events_drop m k)

namespace EventCollector

theorem releases_emit (c : EventCollector) (ev : MainEvent) :
    Releases c.pairing (c.emit ev).pairing [] [] [ev] :=
  ⟨rfl, rfl, rfl, List.Subset.refl _⟩

theorem releases_demotePendingMain (c : EventCollector) (cookie : UInt64) :
    ∃ given, Releases c.pairing (c.demotePendingMain cookie).pairing [] given [] := by
  unfold demotePendingMain
  split
  · exact ⟨[], Releases.refl _⟩
  · next old h =>
    have hheld : old.event ∈ c.pairing.waiting := List.mem_append_left _ (mem_events h)
    refine ⟨[old.event], rfl, rfl, rfl, List.cons_subset.2 ⟨hheld, ?_⟩⟩
    exact Pairing.waiting_subset (events_drop c.pendingMain cookie) (List.Subset.refl _)

theorem releases_demotePendingMainByTxid (c : EventCollector) (transactionId : UInt64) :
    ∃ given, Releases c.pairing (c.demotePendingMainByTxid transactionId).pairing [] given [] := by
  unfold demotePendingMainByTxid
  split
  · exact ⟨[], Releases.refl _⟩
  · next old h =>
    have hheld : old.event ∈ c.pairing.waiting := List.mem_append_right _ (mem_events h)
    refine ⟨[old.event], rfl, rfl, rfl, List.cons_subset.2 ⟨hheld, ?_⟩⟩
    exact Pairing.waiting_subset (List.Subset.refl _) (events_drop c.pendingMainByTxid transactionId)

theorem releases_parkPendingMain (c : EventCollector) (cookie : UInt64) (pe : PendingMainEntry) :
    ∃ given, Releases c.pairing (c.parkPendingMain cookie pe).pairing [pe.event] given [] := by
  refine ⟨_, rfl, by rw [List.append_nil]; rfl, by rw [List.length_map]; rfl, ?_⟩
  intro ev hev
  have hpush := @events_push_evict c.pendingMain cookie pe pendingMainCapacity ev
  simp only [Pairing.waiting, pairing, parkPendingMain, addEntryEarlyReturn, flushEmissions,
    List.mem_append, List.mem_cons, List.not_mem_nil, or_false] at hev hpush ⊢
  tauto

theorem releases_parkPendingMainByTxid (c : EventCollector) (transactionId : UInt64)
    (pe : PendingMainEntry) :
    ∃ given, Releases c.pairing (c.parkPendingMainByTxid transactionId pe).pairing [pe.event] given [] := by
  refine ⟨_, rfl, by rw [List.append_nil]; rfl, by rw [List.length_map]; rfl, ?_⟩
  intro ev hev
  have hpush := @events_push_evict c.pendingMainByTxid transactionId pe pendingMainCapacity ev
  simp only [Pairing.waiting, pairing, parkPendingMainByTxid, addEntryEarlyReturn, flushEmissions,
    List.mem_append, List.mem_cons, List.not_mem_nil, or_false] at hev hpush ⊢
  tauto

/-- A oneway event passes through, alone or with the sideband that came first. -/
theorem releases_emitOneway (c : EventCollector) (ev : MainEvent) (cookie : UInt64) (nowNs : Int) :
    Releases c.pairing (c.emitOneway ev cookie nowNs).pairing [] [] [ev] ∨
      Merges c.pairing (c.emitOneway ev cookie nowNs).pairing := by
  unfold emitOneway
  split
  · right
    obtain ⟨recentOneway, hrecord⟩ := recordRecentOnewayEmit_eq
      { c with pendingOneway := c.pendingOneway.drop cookie, merged := c.merged ++ [cookie] } cookie nowNs
    rw [hrecord]
    exact ⟨by simp [pairing, emit, flushEmissions], ⟨_, rfl⟩, rfl, List.Subset.refl _⟩
  · left
    obtain ⟨recentOneway, hrecord⟩ := recordRecentOnewayEmit_eq c cookie nowNs
    rw [hrecord]
    exact ⟨rfl, rfl, rfl, List.Subset.refl _⟩

/-- In production a SYNC request with an id waits, and every other event passes through. -/
theorem releases_dispatchMainEvent {c : EventCollector} (hprod : c.legacyCookieZeroSyncEmit = false)
    (r : Routing) :
    let c' := c.dispatchMainEvent r.event r.cookie r.transactionId r.nowNs
    (r.IsPairable ∧ ∃ given, Releases c.pairing c'.pairing [r.event] given []) ∨
    (¬ r.IsPairable ∧
      (Releases c.pairing c'.pairing [] [] [r.event] ∨ Merges c.pairing c'.pairing)) := by
  have hchecked := pairing_checkCookieDuplicate c r.cookie
  intro c'
  unfold c' dispatchMainEvent
  split
  · next hreply => exact .inr ⟨fun h => hreply h.1, .inl (releases_emit c r.event)⟩
  next hreply =>
  split
  · next hcookie =>
    split
    · next hpass =>
      refine .inr ⟨?_, .inl (releases_emit c r.event)⟩
      rintro ⟨-, hsync, hid⟩
      rcases hpass with honeway | htxid | hlegacy
      · rw [hsync] at honeway; cases honeway
      · exact hid.elim (fun h => h htxid) (fun h => h hcookie)
      · rw [hprod] at hlegacy; cases hlegacy
    · next hwait =>
      left
      obtain ⟨given, hdemote⟩ := releases_demotePendingMainByTxid c r.transactionId
      obtain ⟨given', hpark⟩ := releases_parkPendingMainByTxid
        (c.demotePendingMainByTxid r.transactionId) r.transactionId { enqueuedNs := r.nowNs, event := r.event }
      have hsync : r.event.payload.isOneway = false :=
        Bool.eq_false_iff.2 fun h => hwait (.inl h)
      exact ⟨⟨Decidable.not_not.1 hreply, hsync, .inl fun h => hwait (.inr (.inl h))⟩, _, hdemote.trans hpark⟩
  next hcookie =>
  split
  · next honeway =>
    refine .inr ⟨fun h => ?_, ?_⟩
    · rw [h.2.1] at honeway; cases honeway
    · rw [← hchecked]
      exact releases_emitOneway _ r.event r.cookie r.nowNs
  · next hsync =>
    refine .inl ⟨⟨Decidable.not_not.1 hreply, Bool.eq_false_iff.2 hsync, .inr hcookie⟩, ?_⟩
    rw [← hchecked]
    exact releases_parkPendingMain _ r.cookie { enqueuedNs := r.nowNs, event := r.event }

theorem releases_handleSideband (c : EventCollector) (nowNs : Int) (sb : BinderSidebandEvent) :
    Releases c.pairing (c.handleSideband nowNs sb).pairing [] [] [] ∨
      Merges c.pairing (c.handleSideband nowNs sb).pairing := by
  have same : ∀ p : Pairing, p.merged = c.merged → p.emitted = c.emitted →
      p.entryEarlyReturn = c.failures.entryEarlyReturn → p.waiting = c.pairing.waiting →
      Releases c.pairing p [] [] [] :=
    fun p hm he hc hw => ⟨hm, by rw [he]; exact (List.append_nil _).symm, hc, by rw [hw]; exact List.Subset.refl _⟩
  unfold handleSideband
  split
  · refine .inr ⟨by simp [pairing, emit, flushEmissions], ⟨_, rfl⟩, rfl, ?_⟩
    exact Pairing.waiting_subset (events_drop c.pendingMain sb.cookie) (List.Subset.refl _)
  left
  split
  · exact same _ rfl rfl rfl rfl
  split
  · exact same _ rfl rfl rfl rfl
  · exact same _ rfl rfl rfl rfl

theorem releases_offerCookie (c : EventCollector) (transactionId cookie : UInt64) (receivedNs staleNs : Int) :
    ∃ given, Releases c.pairing (c.offerCookie transactionId cookie receivedNs staleNs).pairing [] given [] := by
  unfold offerCookie
  split
  · next pe h =>
    let taken : EventCollector := { c with pendingMainByTxid := c.pendingMainByTxid.drop transactionId }
    have htaken : Releases c.pairing taken.pairing [] [] [] :=
      ⟨rfl, (List.append_nil _).symm, rfl,
        Pairing.waiting_subset (List.Subset.refl _) (events_drop c.pendingMainByTxid transactionId)⟩
    obtain ⟨given, hdemote⟩ := releases_demotePendingMain taken cookie
    obtain ⟨given', hpark⟩ := releases_parkPendingMain (taken.demotePendingMain cookie) cookie
      { pe with cookie := cookie }
    have hheld : pe.event ∈ c.pairing.waiting := List.mem_append_right _ (mem_events h)
    exact ⟨_, ((htaken.trans hdemote).trans hpark).absorb hheld⟩
  · exact ⟨[], Releases.refl _⟩

theorem legacy_handleCookieSideband (c : EventCollector) (receivedNs staleNs : Int)
    (cs : BinderCookieSideband) :
    (c.handleCookieSideband receivedNs staleNs cs).legacyCookieZeroSyncEmit = c.legacyCookieZeroSyncEmit := by
  obtain ⟨_, _, hframe⟩ := c.upstream_handleCookieSideband receivedNs staleNs cs
  exact congrArg (fun u => u.1.legacyCookieZeroSyncEmit) hframe

theorem releases_handleCookieSideband (c : EventCollector) (receivedNs staleNs : Int)
    (cs : BinderCookieSideband) :
    ∃ given, Releases c.pairing (c.handleCookieSideband receivedNs staleNs cs).pairing [] given [] := by
  obtain ⟨_, hbuffers⟩ | hoffer := c.handleCookieSideband_cases receivedNs staleNs cs
  · rw [hbuffers]
    exact ⟨[], Releases.refl _⟩
  · rw [hoffer]
    exact releases_offerCookie ..

theorem releases_runSweep (c : EventCollector) (now : Int) (mainOrder txidOrder : RangeOrder MainEvent) :
    ∃ given, Releases c.pairing (c.runSweep now mainOrder txidOrder).pairing [] given [] := by
  let stale := fun pm : PendingMainEntry => decide (pm.enqueuedNs < now - pendingMainTTL)
  let fromMain := (c.pendingMain.swept stale).map PendingMainEntry.event
  let fromTxid := (c.pendingMainByTxid.swept stale).map PendingMainEntry.event
  refine ⟨mainOrder.visit fromMain ++ txidOrder.visit fromTxid, rfl, by rw [List.append_nil]; rfl, ?_, ?_⟩
  · rw [List.length_append, (mainOrder.perm fromMain).length_eq, (txidOrder.perm fromTxid).length_eq,
      List.length_map, List.length_map]
    rfl
  · intro ev hev
    have hmain := @events_sweep c.pendingMain stale ev
    have htxid := @events_sweep c.pendingMainByTxid stale ev
    have hvisit : ev ∈ (mainOrder.visit fromMain ++ txidOrder.visit fromTxid) ++
        (events (c.pendingMain.sweep stale) ++ events (c.pendingMainByTxid.sweep stale)) := hev
    simp only [List.mem_append, (mainOrder.perm fromMain).mem_iff, (txidOrder.perm fromTxid).mem_iff]
      at hvisit hmain htxid
    show ev ∈ events c.pendingMain ++ events c.pendingMainByTxid
    rw [List.mem_append]
    tauto

end EventCollector

/-- What a call that routes `news` does with the events: it merges a sideband into one, or it gives
events up and lets an event pass that could not have been paired. -/
structure CallOutcome (c c' : EventCollector) (news : Option Routing) : Prop where
  routed : c'.routed = c.routed ++ news.toList
  numbered : ∀ r ∈ news, r.event.ref = c.routed.length
  production : c'.legacyCookieZeroSyncEmit = false
  events : Merges c.pairing c'.pairing ∨
    ∃ arrived given passed, Releases c.pairing c'.pairing arrived given passed ∧
      (∀ ev ∈ arrived, ∃ r ∈ news, r.event = ev ∧ r.IsPairable) ∧
      (∀ ev ∈ passed, ∃ r ∈ news, r.event = ev ∧ ¬ r.IsPairable)

/-- A call that routes nothing and gives up what waited. -/
theorem CallOutcome.of_releases {c c' : EventCollector} {given : List MainEvent} (hrouted : c'.routed = c.routed)
    (hprod : c'.legacyCookieZeroSyncEmit = false) (h : Releases c.pairing c'.pairing [] given []) :
    CallOutcome c c' none where
  routed := by rw [hrouted, Option.toList_none, List.append_nil]
  numbered := by simp
  production := hprod
  events := .inr ⟨[], given, [], h, by simp, by simp⟩

/-- **One call and the events.** -/
theorem step_outcome {c c' : EventCollector} {call : Call} (hprod : c.legacyCookieZeroSyncEmit = false)
    (h : step c call = .ok c') : ∃ news, CallOutcome c c' news := by
  cases call with
  | handleStackRecord receivedNs staleNs st =>
    cases h
    exact ⟨none, .of_releases rfl hprod (Releases.refl _)⟩
  | evictStale stackNs cookieNs =>
    cases h
    exact ⟨none, .of_releases rfl hprod (Releases.refl _)⟩
  | handleSideband nowNs sb =>
    cases h
    have hframe := c.intake_handleSideband nowNs sb
    have hrouted : (c.handleSideband nowNs sb).routed = c.routed := congrArg Intake.routed hframe
    have hlegacy : (c.handleSideband nowNs sb).legacyCookieZeroSyncEmit = false :=
      (congrArg Intake.legacyCookieZeroSyncEmit hframe).trans hprod
    rcases c.releases_handleSideband nowNs sb with hkept | hmerged
    · exact ⟨none, .of_releases hrouted hlegacy hkept⟩
    · exact ⟨none, by simpa using hrouted, by simp, hlegacy, .inl hmerged⟩
  | handleCookieSideband receivedNs staleNs cs =>
    cases h
    obtain ⟨given, hgiven⟩ := c.releases_handleCookieSideband receivedNs staleNs cs
    refine ⟨none, .of_releases (c.routed_handleCookieSideband receivedNs staleNs cs) ?_ hgiven⟩
    rw [c.legacy_handleCookieSideband, hprod]
  | runSweep now mainOrder txidOrder =>
    cases h
    obtain ⟨given, hgiven⟩ := c.releases_runSweep now mainOrder txidOrder
    exact ⟨none, .of_releases rfl hprod hgiven⟩
  | handleEvent env event =>
    rcases EventCollector.handleEvent_routes h with hsame | ⟨c₁, r, hstarted, href, -, hended⟩
    · have hbooks := hsame.books
      have hpairing : Releases c.pairing c'.pairing [] [] [] := by
        rw [show c'.pairing = c.pairing from congrArg EventCollector.Books.pairing hbooks]
        exact Releases.refl _
      exact ⟨none, .of_releases (congrArg EventCollector.Books.routed hbooks)
        ((congrArg EventCollector.Books.legacyCookieZeroSyncEmit hbooks).trans hprod) hpairing⟩
    · have hc₁ := hstarted.books
      have hroute := hended.books
      let c₂ : EventCollector := { c₁ with routed := c₁.routed ++ [r] }
      have hprod₂ : c₂.legacyCookieZeroSyncEmit = false :=
        (congrArg EventCollector.Books.legacyCookieZeroSyncEmit hc₁).trans hprod
      have hframe := c₂.intake_dispatchMainEvent r.event r.cookie r.transactionId r.nowNs
      have hpairing : c'.pairing = (c₂.dispatchMainEvent r.event r.cookie r.transactionId r.nowNs).pairing :=
        congrArg EventCollector.Books.pairing hroute
      have hstart : c₂.pairing = c.pairing := congrArg EventCollector.Books.pairing hc₁
      refine ⟨some r, ?_, by simpa using href, ?_, ?_⟩
      · rw [show c'.routed = _ from congrArg EventCollector.Books.routed hroute]
        refine (congrArg Intake.routed hframe).trans ?_
        show c₁.routed ++ [r] = c.routed ++ [r]
        rw [show c₁.routed = c.routed from congrArg EventCollector.Books.routed hc₁]
      · rw [show c'.legacyCookieZeroSyncEmit = _ from
          congrArg EventCollector.Books.legacyCookieZeroSyncEmit hroute]
        exact (congrArg Intake.legacyCookieZeroSyncEmit hframe).trans hprod₂
      · rw [hpairing, ← hstart]
        rcases EventCollector.releases_dispatchMainEvent hprod₂ r with
          ⟨hpairable, given, hgiven⟩ | ⟨hother, hpassed | hmerged⟩
        · exact .inr ⟨_, _, _, hgiven, by simpa using hpairable, by simp⟩
        · exact .inr ⟨_, _, _, hpassed, by simp, by simpa using hother⟩
        · exact .inl hmerged

/-- A call that merges a sideband emits the event it is merged into and no other. -/
theorem step_merging {c c' : EventCollector} {call : Call} (hprod : c.legacyCookieZeroSyncEmit = false)
    (h : step c call = .ok c') (hmerged : c'.merged ≠ c.merged) : ∃ ev, c'.emitted = c.emitted ++ [ev] := by
  obtain ⟨news, hout⟩ := step_outcome hprod h
  rcases hout.events with hmerge | ⟨arrived, given, passed, hrel, -⟩
  · exact hmerge.emitted
  · exact absurd hrel.merged hmerged

/-! ### Whole runs -/

/-- The state of the books after `calls`. -/
structure Balanced (calls : List Call) (c : EventCollector) : Prop where
  sidebands : calls.countP Call.isSideband = c.sidebandSum + (duplicates calls).length
  earlyReturns : c.failures.entryEarlyReturn = (emittedUnmerged calls).countP fun ev => c.Pairable ev
  waiting : ∀ ev ∈ c.pairing.waiting, c.Pairable ev
  numbered : ∀ r ∈ c.routed, r.event.ref < c.routed.length
  unmerged : ∀ ev ∈ emittedUnmerged calls, ev.ref < c.routed.length
  production : c.legacyCookieZeroSyncEmit = false

theorem Balanced.initial : Balanced [] newEventCollector where
  sidebands := rfl
  earlyReturns := rfl
  waiting := by intro ev hev; cases hev
  numbered := by intro r hr; cases hr
  unmerged := by intro ev hev; cases hev
  production := rfl

/-- An event routed before `news` is as pairable as it was. -/
theorem CallOutcome.pairable_iff {c c' : EventCollector} {news : Option Routing} (h : CallOutcome c c' news)
    {ev : MainEvent} (hev : ev.ref < c.routed.length) : c'.Pairable ev ↔ c.Pairable ev := by
  constructor
  · rintro ⟨r, hr, href, hpair⟩
    rw [h.routed, List.mem_append, Option.mem_toList] at hr
    rcases hr with hold | hnew
    · exact ⟨r, hold, href, hpair⟩
    · have := h.numbered r hnew
      omega
  · rintro ⟨r, hr, hrest⟩
    exact ⟨r, by rw [h.routed]; exact List.mem_append_left _ hr, hrest⟩

/-- The event of `news` is pairable exactly when `news` is. -/
theorem CallOutcome.pairable_news {c c' : EventCollector} {r : Routing} (h : CallOutcome c c' (some r))
    (hnumbered : ∀ r ∈ c.routed, r.event.ref < c.routed.length) : c'.Pairable r.event ↔ r.IsPairable := by
  have href := h.numbered r rfl
  constructor
  · rintro ⟨r', hr', heq, hpair⟩
    rw [h.routed, List.mem_append, Option.mem_toList] at hr'
    rcases hr' with hold | hnew
    · have := hnumbered r' hold
      omega
    · cases hnew
      exact hpair
  · intro hpair
    exact ⟨r, by rw [h.routed]; simp, rfl, hpair⟩

theorem Balanced.numbered_next {calls : List Call} {c c' : EventCollector} {news : Option Routing}
    (h : Balanced calls c) (hout : CallOutcome c c' news) : ∀ r ∈ c'.routed, r.event.ref < c'.routed.length := by
  intro r hr
  have hlen : c'.routed.length = c.routed.length + news.toList.length := by rw [hout.routed, List.length_append]
  rw [hout.routed, List.mem_append] at hr
  rcases hr with hold | hnew
  · have := h.numbered r hold
    omega
  · have := hout.numbered r (Option.mem_toList.1 hnew)
    have := List.length_pos_of_mem hnew
    omega

/-- What a call emits without a sideband: as many pairable events as it counts as early returns. -/
theorem Balanced.emission {calls : List Call} {c c' : EventCollector} {news : Option Routing}
    (h : Balanced calls c) (hout : CallOutcome c c' news) :
    let emission := if c'.merged = c.merged then c'.emitted.drop c.emitted.length else []
    c'.failures.entryEarlyReturn =
        c.failures.entryEarlyReturn + emission.countP (fun ev => c'.Pairable ev) ∧
      (∀ ev ∈ emission, ev.ref < c'.routed.length) ∧ ∀ ev ∈ c'.pairing.waiting, c'.Pairable ev := by
  have hkept : ∀ ev ∈ c.pairing.waiting, c'.Pairable ev := by
    intro ev hev
    obtain ⟨r, hr, hrest⟩ := h.waiting ev hev
    exact ⟨r, by rw [hout.routed]; exact List.mem_append_left _ hr, hrest⟩
  have hbound : ∀ ev, c'.Pairable ev → ev.ref < c'.routed.length := by
    rintro ev ⟨r, hr, href, -⟩
    rw [← href]
    exact h.numbered_next hout r hr
  rcases hout.events with hmerge | ⟨arrived, given, passed, hrel, harrived, hpassed⟩
  · rw [if_neg (show ¬ c'.merged = c.merged from hmerge.merged)]
    exact ⟨hmerge.counted, by simp, fun ev hev => hkept ev (hmerge.held hev)⟩
  have hemission : c'.emitted.drop c.emitted.length = given ++ passed := by
    rw [show c'.emitted = c.emitted ++ (given ++ passed) from hrel.emitted, List.drop_left]
  have hheld : ∀ ev ∈ given ++ c'.pairing.waiting, c'.Pairable ev := by
    intro ev hev
    rcases List.mem_append.1 (hrel.held hev) with hnew | hold
    · obtain ⟨r, hr, rfl, hpair⟩ := harrived ev hnew
      cases hr
      exact (hout.pairable_news h.numbered).2 hpair
    · exact hkept ev hold
  have hnot : ∀ ev ∈ passed, ¬ c'.Pairable ev ∧ ev.ref < c'.routed.length := by
    intro ev hev
    obtain ⟨r, hr, rfl, hpair⟩ := hpassed ev hev
    cases hr
    refine ⟨fun hp => hpair ((hout.pairable_news h.numbered).1 hp), h.numbered_next hout r ?_⟩
    rw [hout.routed]
    simp
  have hgiven : ∀ ev ∈ given, c'.Pairable ev := fun ev hev => hheld ev (List.mem_append_left _ hev)
  rw [if_pos (show c'.merged = c.merged from hrel.merged), hemission]
  refine ⟨?_, ?_, fun ev hev => hheld ev (List.mem_append_right _ hev)⟩
  · have hall : given.countP (fun ev => c'.Pairable ev) = given.length :=
      List.countP_eq_length.2 fun ev hev => decide_eq_true (hgiven ev hev)
    have hnone : passed.countP (fun ev => c'.Pairable ev) = 0 :=
      List.countP_eq_zero.2 fun ev hev => by simpa using (hnot ev hev).1
    rw [List.countP_append, hall, hnone]
    exact hrel.counted
  · intro ev hev
    rcases List.mem_append.1 hev with hg | hp
    · exact hbound ev (hgiven ev hg)
    · exact (hnot ev hp).2

theorem Balanced.step {calls : List Call} {c c' : EventCollector} {call : Call} (h : Balanced calls c)
    (hrun : run Daemon.step newEventCollector calls = .ok c) (hstep : Daemon.step c call = .ok c') :
    Balanced (calls ++ [call]) c' := by
  obtain ⟨news, hout⟩ := step_outcome h.production hstep
  obtain ⟨hcount, hbounds, hwaiting⟩ := h.emission hout
  have hunmerged : emittedUnmerged (calls ++ [call]) = emittedUnmerged calls ++
      if c'.merged = c.merged then c'.emitted.drop c.emitted.length else [] := observations_snoc hrun hstep
  have hdup : duplicates (calls ++ [call]) = duplicates calls ++ if call.IsDuplicate c then [call] else [] :=
    observations_snoc hrun hstep
  have hlen : c.routed.length ≤ c'.routed.length := by
    rw [hout.routed, List.length_append]
    omega
  refine ⟨?_, ?_, hwaiting, h.numbered_next hout, ?_, hout.production⟩
  · have hsum := step_sidebandSum hstep
    have hbefore := h.sidebands
    have hones : (if call.IsDuplicate c then [call] else []).length = if call.IsDuplicate c then 1 else 0 := by
      split <;> rfl
    rw [List.countP_append, List.countP_singleton, hdup, List.length_append, hones]
    omega
  · have hold : (emittedUnmerged calls).countP (fun ev => c'.Pairable ev) =
        (emittedUnmerged calls).countP fun ev => c.Pairable ev := by
      apply List.countP_congr
      intro ev hev
      simp only [decide_eq_true_eq]
      exact hout.pairable_iff (h.unmerged ev hev)
    rw [hunmerged, List.countP_append, hold, ← h.earlyReturns]
    exact hcount
  · intro ev hev
    rw [hunmerged, List.mem_append] at hev
    rcases hev with hold | hnew
    · exact Nat.lt_of_lt_of_le (h.unmerged ev hold) hlen
    · exact hbounds ev hnew

/-- **The failure counters account for every sideband and every unpaired request**, after any calls. -/
theorem failure_counters_balance (calls : List Call) (c : EventCollector)
    (h : run step newEventCollector calls = .ok c) :
    calls.countP Call.isSideband = c.merged.length + c.pendingOneway.size + c.failures.sidebandOrphan +
        c.failures.onewaySidebandLate + (duplicates calls).length ∧
      c.failures.entryEarlyReturn = (emittedUnmerged calls).countP fun ev => c.Pairable ev := by
  have hbalanced : Balanced calls c :=
    run_history Balanced.initial (fun _ _ _ _ hrun hb hstep => hb.step hrun hstep) h
  exact ⟨hbalanced.sidebands, hbalanced.earlyReturns⟩

/-- A sideband sent twice, and a SYNC request that is swept before its own arrives. -/
def unpairedCalls : List Call :=
  let sideband (cookie : UInt64) : BinderSidebandEvent :=
    { cookie, kernelDebugId := 0, toPid := 0, toUid := 0, toUidUnsupported := 0 }
  let anyOrder : RangeOrder MainEvent := ⟨id, fun l => List.Perm.refl l⟩
  [Call.handleSideband 0 (sideband 70), Call.handleSideband 0 (sideband 70),
    Call.handleEvent idleEnv (syncRecord 1 9), Call.runSweep (2 * pendingMainTTL) anyOrder anyOrder]

theorem failure_counters_balance_unpairedCalls :
    ∃ c, run step newEventCollector unpairedCalls = .ok c ∧
      (c.failures.sidebandOrphan = 1 ∧ c.failures.entryEarlyReturn = 1) ∧
      unpairedCalls.countP Call.isSideband = c.merged.length + c.pendingOneway.size +
        c.failures.sidebandOrphan + c.failures.onewaySidebandLate + (duplicates unpairedCalls).length ∧
      c.failures.entryEarlyReturn = (emittedUnmerged unpairedCalls).countP fun ev => c.Pairable ev := by
  have hrun : ∃ c, run step newEventCollector unpairedCalls = .ok c ∧
      c.failures.sidebandOrphan = 1 ∧ c.failures.entryEarlyReturn = 1 := by
    apply exists_of_endsIn
    decide +kernel
  obtain ⟨c, hc, hcounts⟩ := hrun
  exact ⟨c, hc, hcounts, failure_counters_balance unpairedCalls c hc⟩

end BinderTracer.Daemon
