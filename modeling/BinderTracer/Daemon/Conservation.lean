import BinderTracer.Daemon.HandleEvent

/-!
# Conservation of completed events

Every event that `handleEvent` completes should be emitted once, and until then be held in exactly
one of `pendingMain` and `pendingMainByTxid`. Events are counted by identity (`copies`): one step
adds a copy of the event it routes and otherwise moves copies around, except where the SYNC branch
of `routeMainEvent` assigns a key of `pendingMain` that is in use. That step loses the event held
there, and an event once lost stays lost, so a run conserves its events exactly when it has no
such step (`conserved_iff_noOverwrite`).
-/

namespace BinderTracer.Daemon

open BinderTracer.Kernel BinderTracer.Lib

/-- The part of the collector that completed events live in. -/
structure Custody where
  pendingMain : LruMap UInt64 PendingMainEntry
  pendingMainByTxid : LruMap UInt64 PendingMainEntry
  emitted : List MainEvent
  routed : List Routing

/-- How often `events` has the event `x`. -/
def occurrences (events : List MainEvent) (x : Nat) : Nat := (events.map MainEvent.ref).count x

/-- How often the map holds the event `x`. -/
def heldIn (m : LruMap UInt64 PendingMainEntry) (x : Nat) : Nat :=
  occurrences (m.values.map PendingMainEntry.event) x

/-- How often the map holds the event `x` under the key `k`. -/
def heldAt (m : LruMap UInt64 PendingMainEntry) (k : UInt64) (x : Nat) : Nat :=
  occurrences ((m.lookup k).toList.map PendingMainEntry.event) x

/-- The copies of the event `x`: emitted or held. -/
def Custody.copies (s : Custody) (x : Nat) : Nat :=
  occurrences s.emitted x + heldIn s.pendingMain x + heldIn s.pendingMainByTxid x

namespace EventCollector

def custody (c : EventCollector) : Custody where
  pendingMain := c.pendingMain
  pendingMainByTxid := c.pendingMainByTxid
  emitted := c.emitted
  routed := c.routed

/-- The event `x` was emitted once and is held nowhere, or not yet and is held in one place. -/
def Settled (c : EventCollector) (x : Nat) : Prop :=
  (occurrences c.emitted x = 1 ∧ heldIn c.pendingMain x = 0 ∧ heldIn c.pendingMainByTxid x = 0) ∨
  (occurrences c.emitted x = 0 ∧
    ((heldIn c.pendingMain x = 1 ∧ heldIn c.pendingMainByTxid x = 0) ∨
     (heldIn c.pendingMain x = 0 ∧ heldIn c.pendingMainByTxid x = 1)))

instance (c : EventCollector) (x : Nat) : Decidable (c.Settled x) :=
  inferInstanceAs (Decidable (_ ∨ _))

/-- Every event passed to `routeMainEvent` is settled. -/
def Conserved (c : EventCollector) : Prop := ∀ r ∈ c.routed, c.Settled r.event.ref

instance (c : EventCollector) : Decidable c.Conserved :=
  inferInstanceAs (Decidable (∀ r ∈ c.routed, c.Settled r.event.ref))

end EventCollector

/-- The routed event is a SYNC request with a cookie that `pendingMain` already holds. -/
def Routing.Overwrites (r : Routing) (c : EventCollector) : Prop :=
  r.event.payload.isReply = 0 ∧ r.event.payload.isOneway = false ∧ r.cookie ≠ 0 ∧
    c.pendingMain.lookup r.cookie ≠ none

/-- The step from `c` to `c'` completes such a request. -/
def Overwrites (c c' : EventCollector) : Prop := ∃ r, c'.routed = c.routed ++ [r] ∧ r.Overwrites c

/-- No step of the run of `calls` routes a SYNC request whose cookie is in use. -/
def NoOverwrite (calls : List Call) : Prop :=
  ∀ done call, done ++ [call] <+: calls →
    ∀ c c', run step newEventCollector done = .ok c → step c call = .ok c' → ¬ Overwrites c c'

/-! ### Counting events in lists and maps -/

@[simp] theorem occurrences_nil (x : Nat) : occurrences [] x = 0 := rfl

@[simp] theorem occurrences_append (l l' : List MainEvent) (x : Nat) :
    occurrences (l ++ l') x = occurrences l x + occurrences l' x := by
  simp [occurrences]

theorem occurrences_cons (ev : MainEvent) (l : List MainEvent) (x : Nat) :
    occurrences (ev :: l) x = occurrences [ev] x + occurrences l x :=
  occurrences_append [ev] l x

theorem occurrences_perm {l l' : List MainEvent} (h : l.Perm l') (x : Nat) :
    occurrences l x = occurrences l' x :=
  (h.map MainEvent.ref).count_eq x

/-- Merging a sideband into an event does not change which event it is. -/
@[simp] theorem occurrences_applySideband (ev : MainEvent) (d : UInt64) (p u : UInt32) (f : UInt8)
    (x : Nat) : occurrences [ev.applySideband d p u f] x = occurrences [ev] x := rfl

theorem heldAt_some {m : LruMap UInt64 PendingMainEntry} {k : UInt64} {pe : PendingMainEntry}
    (h : m.lookup k = some pe) (x : Nat) : heldAt m k x = occurrences [pe.event] x := by
  simp [heldAt, h]

theorem heldAt_none {m : LruMap UInt64 PendingMainEntry} {k : UInt64} (h : m.lookup k = none)
    (x : Nat) : heldAt m k x = 0 := by
  simp [heldAt, h]

theorem heldIn_drop (m : LruMap UInt64 PendingMainEntry) (k : UInt64) (x : Nat) :
    heldIn (m.drop k) x + heldAt m k x = heldIn m x := by
  cases h : m.lookup k with
  | none => rw [heldAt_none h, LruMap.drop_of_lookup_none h, Nat.add_zero]
  | some pe =>
    have hperm := (LruMap.values_drop h).map PendingMainEntry.event
    rw [heldAt_some h, heldIn, heldIn, occurrences_perm hperm, List.map_cons,
      occurrences_cons _ (List.map _ _)]
    exact Nat.add_comm _ _

theorem heldIn_push (m : LruMap UInt64 PendingMainEntry) (k : UInt64) (pe : PendingMainEntry) (x : Nat) :
    heldIn (m.push k pe) x + heldAt m k x = heldIn m x + occurrences [pe.event] x := by
  have hdrop := heldIn_drop m k x
  have hpush : heldIn (m.push k pe) x = occurrences [pe.event] x + heldIn (m.drop k) x := by
    rw [heldIn, LruMap.values_push, List.map_cons, occurrences_cons]
    rfl
  omega

theorem heldIn_evict (m : LruMap UInt64 PendingMainEntry) (cap x : Nat) :
    occurrences ((m.evict cap).2.map PendingMainEntry.event) x + heldIn (m.evict cap).1 x = heldIn m x := by
  have hperm := (LruMap.values_evict cap m).map PendingMainEntry.event
  rw [heldIn, heldIn, occurrences_perm hperm, List.map_append, occurrences_append]

theorem heldIn_sweep (m : LruMap UInt64 PendingMainEntry) (p : PendingMainEntry → Bool) (x : Nat) :
    occurrences ((m.swept p).map PendingMainEntry.event) x + heldIn (m.sweep p) x = heldIn m x := by
  have hperm := (LruMap.values_sweep p m).map PendingMainEntry.event
  rw [heldIn, heldIn, occurrences_perm hperm, List.map_append, occurrences_append]

/-! ### What each call does to the copies of an event -/

namespace EventCollector

/-- Copies of the event `x` in the collector. -/
def copies (c : EventCollector) (x : Nat) : Nat := c.custody.copies x

theorem copies_eq (c : EventCollector) (x : Nat) :
    c.copies x = occurrences c.emitted x + heldIn c.pendingMain x + heldIn c.pendingMainByTxid x := rfl

theorem conserved_iff (c : EventCollector) : c.Conserved ↔ ∀ r ∈ c.routed, c.copies r.event.ref = 1 := by
  refine forall₂_congr fun r _ => ?_
  rw [Settled, copies_eq]
  omega

theorem SameMachine.custody {c c' : EventCollector} (h : SameMachine c c') : c'.custody = c.custody := by
  rw [h]
  rfl

@[simp] theorem custody_checkCookieDuplicate (c : EventCollector) (cookie : UInt64) :
    (c.checkCookieDuplicate cookie).custody = c.custody := by
  unfold checkCookieDuplicate
  split <;> rfl

@[simp] theorem custody_recordRecentOnewayEmit (c : EventCollector) (cookie : UInt64) (nowNs : Int) :
    (c.recordRecentOnewayEmit cookie nowNs).custody = c.custody := by
  unfold recordRecentOnewayEmit
  split <;> rfl

theorem copies_of_custody {c c' : EventCollector} (h : c'.custody = c.custody) (x : Nat) :
    c'.copies x = c.copies x := by
  rw [copies, copies, h]

@[simp] theorem copies_emit (c : EventCollector) (ev : MainEvent) (x : Nat) :
    (c.emit ev).copies x = c.copies x + occurrences [ev] x := by
  simp only [copies_eq, emit, flushEmissions, occurrences_append]
  omega

theorem copies_parkPendingMain (c : EventCollector) (cookie : UInt64) (pe : PendingMainEntry) (x : Nat) :
    (c.parkPendingMain cookie pe).copies x + heldAt c.pendingMain cookie x =
      c.copies x + occurrences [pe.event] x := by
  have hpush := heldIn_push c.pendingMain cookie pe x
  have hevict := heldIn_evict (c.pendingMain.push cookie pe) pendingMainCapacity x
  simp only [copies_eq, parkPendingMain, flushEmissions, addEntryEarlyReturn, occurrences_append]
  omega

theorem copies_parkPendingMainByTxid (c : EventCollector) (transactionId : UInt64)
    (pe : PendingMainEntry) (x : Nat) :
    (c.parkPendingMainByTxid transactionId pe).copies x + heldAt c.pendingMainByTxid transactionId x =
      c.copies x + occurrences [pe.event] x := by
  have hpush := heldIn_push c.pendingMainByTxid transactionId pe x
  have hevict := heldIn_evict (c.pendingMainByTxid.push transactionId pe) pendingMainCapacity x
  simp only [copies_eq, parkPendingMainByTxid, flushEmissions, addEntryEarlyReturn, occurrences_append]
  omega

/-- Giving up on an event frees its key and moves the event to the emitted ones. -/
theorem demotePendingMain_spec (c : EventCollector) (cookie : UInt64) (x : Nat) :
    (c.demotePendingMain cookie).copies x = c.copies x ∧
      (c.demotePendingMain cookie).pendingMain.lookup cookie = none ∧
      (c.demotePendingMain cookie).routed = c.routed := by
  unfold demotePendingMain
  split
  · next h => exact ⟨rfl, h, rfl⟩
  · next old h =>
    refine ⟨?_, LruMap.lookup_drop_self _ _, rfl⟩
    have hdrop := heldIn_drop c.pendingMain cookie x
    rw [heldAt_some h] at hdrop
    simp only [copies_eq, emit, flushEmissions, addEntryEarlyReturn, occurrences_append]
    omega

theorem demotePendingMainByTxid_spec (c : EventCollector) (transactionId : UInt64) (x : Nat) :
    (c.demotePendingMainByTxid transactionId).copies x = c.copies x ∧
      (c.demotePendingMainByTxid transactionId).pendingMainByTxid.lookup transactionId = none ∧
      (c.demotePendingMainByTxid transactionId).routed = c.routed := by
  unfold demotePendingMainByTxid
  split
  · next h => exact ⟨rfl, h, rfl⟩
  · next old h =>
    refine ⟨?_, LruMap.lookup_drop_self _ _, rfl⟩
    have hdrop := heldIn_drop c.pendingMainByTxid transactionId x
    rw [heldAt_some h] at hdrop
    simp only [copies_eq, emit, flushEmissions, addEntryEarlyReturn, occurrences_append]
    omega

theorem emitOneway_spec (c : EventCollector) (ev : MainEvent) (cookie : UInt64) (nowNs : Int) (x : Nat) :
    (c.emitOneway ev cookie nowNs).copies x = c.copies x + occurrences [ev] x ∧
      (c.emitOneway ev cookie nowNs).routed = c.routed := by
  unfold emitOneway
  split
  · refine ⟨?_, congrArg Custody.routed (custody_recordRecentOnewayEmit _ cookie nowNs)⟩
    rw [copies_emit, copies_of_custody (custody_recordRecentOnewayEmit _ cookie nowNs)]
    rfl
  · refine ⟨?_, congrArg Custody.routed (custody_recordRecentOnewayEmit _ cookie nowNs)⟩
    rw [copies_emit, copies_of_custody (custody_recordRecentOnewayEmit _ cookie nowNs)]

/-- What routing `r` loses of the event `x`: the copy held under the key it assigns. -/
def lostBy (c : EventCollector) (r : Routing) (x : Nat) : Nat :=
  if r.event.payload.isReply = 0 ∧ r.event.payload.isOneway = false ∧ r.cookie ≠ 0 then
    heldAt c.pendingMain r.cookie x
  else 0

theorem dispatchMainEvent_spec (c : EventCollector) (r : Routing) (x : Nat) :
    (c.dispatchMainEvent r.event r.cookie r.transactionId r.nowNs).copies x + c.lostBy r x =
        c.copies x + occurrences [r.event] x ∧
      (c.dispatchMainEvent r.event r.cookie r.transactionId r.nowNs).routed = c.routed := by
  unfold dispatchMainEvent lostBy
  by_cases hreply : r.event.payload.isReply ≠ 0
  · simp [hreply, emit, flushEmissions, copies_eq]
    omega
  simp only [ne_eq, Decidable.not_not] at hreply
  by_cases hcookie : r.cookie = 0
  · simp only [hreply, hcookie, ne_eq, not_true_eq_false, if_false, if_true, and_false, Nat.add_zero]
    split
    · exact ⟨copies_emit .., rfl⟩
    · obtain ⟨hcopies, hfree, hrouted⟩ := demotePendingMainByTxid_spec c r.transactionId x
      have hpark := copies_parkPendingMainByTxid (c.demotePendingMainByTxid r.transactionId)
        r.transactionId { enqueuedNs := r.nowNs, event := r.event } x
      rw [heldAt_none hfree] at hpark
      exact ⟨by simpa [hcopies] using hpark, hrouted⟩
  by_cases honeway : r.event.payload.isOneway = true
  · obtain ⟨hcopies, hrouted⟩ :=
      emitOneway_spec (c.checkCookieDuplicate r.cookie) r.event r.cookie r.nowNs x
    have hframe := custody_checkCookieDuplicate c r.cookie
    simp only [hreply, hcookie, honeway, ne_eq, not_true_eq_false, if_false, if_true, and_false,
      false_and, Bool.true_eq_false, Nat.add_zero]
    exact ⟨hcopies.trans (by rw [copies_of_custody hframe]),
      hrouted.trans (congrArg Custody.routed hframe)⟩
  · have hframe := custody_checkCookieDuplicate c r.cookie
    have hpark := copies_parkPendingMain (c.checkCookieDuplicate r.cookie) r.cookie
      { enqueuedNs := r.nowNs, event := r.event } x
    rw [copies_of_custody hframe,
      show (c.checkCookieDuplicate r.cookie).pendingMain = c.pendingMain from
        congrArg Custody.pendingMain hframe] at hpark
    simp only [hreply, hcookie, honeway, ne_eq, not_true_eq_false, not_false_eq_true, if_false, and_true,
      if_true]
    exact ⟨hpark, congrArg Custody.routed hframe⟩

theorem handleSideband_spec (c : EventCollector) (nowNs : Int) (sb : BinderSidebandEvent) (x : Nat) :
    (c.handleSideband nowNs sb).copies x = c.copies x ∧ (c.handleSideband nowNs sb).routed = c.routed := by
  unfold handleSideband
  split
  · next pm h =>
    refine ⟨?_, rfl⟩
    have hdrop := heldIn_drop c.pendingMain sb.cookie x
    rw [heldAt_some h] at hdrop
    simp only [copies_eq, emit, flushEmissions, occurrences_append, occurrences_applySideband]
    omega
  · split
    · exact ⟨rfl, rfl⟩
    · split <;> exact ⟨rfl, rfl⟩

theorem offerCookie_spec (c : EventCollector) (transactionId cookie : UInt64) (receivedNs staleNs : Int)
    (x : Nat) :
    (c.offerCookie transactionId cookie receivedNs staleNs).copies x = c.copies x ∧
      (c.offerCookie transactionId cookie receivedNs staleNs).routed = c.routed := by
  unfold offerCookie
  split
  · next pe h =>
    let taken : EventCollector := { c with pendingMainByTxid := c.pendingMainByTxid.drop transactionId }
    obtain ⟨hcopies, hfree, hrouted⟩ := demotePendingMain_spec taken cookie x
    have hpark := copies_parkPendingMain (taken.demotePendingMain cookie) cookie
      { pe with cookie := cookie } x
    rw [heldAt_none hfree, Nat.add_zero, hcopies] at hpark
    have hdrop := heldIn_drop c.pendingMainByTxid transactionId x
    rw [heldAt_some h] at hdrop
    refine ⟨?_, hrouted⟩
    have htaken : taken.copies x + occurrences [pe.event] x = c.copies x := by
      simp only [copies_eq, taken]
      omega
    exact hpark.trans htaken
  · exact ⟨rfl, rfl⟩

theorem handleCookieSideband_spec (c : EventCollector) (receivedNs staleNs : Int)
    (cs : BinderCookieSideband) (x : Nat) :
    (c.handleCookieSideband receivedNs staleNs cs).copies x = c.copies x ∧
      (c.handleCookieSideband receivedNs staleNs cs).routed = c.routed := by
  obtain ⟨_, hbuffers⟩ | hoffer := c.handleCookieSideband_cases receivedNs staleNs cs
  · rw [hbuffers]
    exact ⟨rfl, rfl⟩
  · rw [hoffer]
    exact offerCookie_spec ..

theorem runSweep_spec (c : EventCollector) (now : Int) (mainOrder txidOrder : RangeOrder MainEvent)
    (x : Nat) :
    (c.runSweep now mainOrder txidOrder).copies x = c.copies x ∧
      (c.runSweep now mainOrder txidOrder).routed = c.routed := by
  refine ⟨?_, rfl⟩
  have hsweep := fun m => heldIn_sweep m (fun pm => decide (pm.enqueuedNs < now - pendingMainTTL)) x
  have hmain := hsweep c.pendingMain
  have htxid := hsweep c.pendingMainByTxid
  simp only [copies_eq, runSweep, flushEmissions, addSidebandOrphan, addEntryEarlyReturn,
    occurrences_append, occurrences_perm (mainOrder.perm _), occurrences_perm (txidOrder.perm _)]
  omega

theorem routeMainEvent_spec (c : EventCollector) (r : Routing) (x : Nat) :
    (c.routeMainEvent r.event r.cookie r.transactionId r.nowNs).copies x + c.lostBy r x =
        c.copies x + occurrences [r.event] x ∧
      (c.routeMainEvent r.event r.cookie r.transactionId r.nowNs).routed = c.routed ++ [r] :=
  dispatchMainEvent_spec { c with routed := c.routed ++ [r] } r x

theorem lostBy_of_custody {c c' : EventCollector} (h : c'.custody = c.custody) (r : Routing) (x : Nat) :
    c'.lostBy r x = c.lostBy r x := by
  rw [lostBy, lostBy, show c'.pendingMain = c.pendingMain from congrArg Custody.pendingMain h]

end EventCollector

/-- **One call**: it routes nothing and keeps the copies of every event, or it routes one new event,
adds one copy of it, and loses what was held under the key it assigns. -/
theorem step_copies {c c' : EventCollector} {call : Call} (h : step c call = .ok c') :
    (c'.routed = c.routed ∧ ∀ x, c'.copies x = c.copies x) ∨
    ∃ r, c'.routed = c.routed ++ [r] ∧ r.event.ref = c.routed.length ∧
      ∀ x, c'.copies x + c.lostBy r x = c.copies x + occurrences [r.event] x := by
  cases call with
  | handleStackRecord receivedNs staleNs st => cases h; exact .inl ⟨rfl, fun _ => rfl⟩
  | evictStale stackNs cookieNs => cases h; exact .inl ⟨rfl, fun _ => rfl⟩
  | handleSideband nowNs sb =>
    cases h
    exact .inl ⟨(c.handleSideband_spec nowNs sb 0).2, fun x => (c.handleSideband_spec nowNs sb x).1⟩
  | handleCookieSideband receivedNs staleNs cs =>
    cases h
    exact .inl ⟨(c.handleCookieSideband_spec receivedNs staleNs cs 0).2,
      fun x => (c.handleCookieSideband_spec receivedNs staleNs cs x).1⟩
  | runSweep now mainOrder txidOrder =>
    cases h
    exact .inl ⟨rfl, fun x => (c.runSweep_spec now mainOrder txidOrder x).1⟩
  | handleEvent env event =>
    rcases EventCollector.handleEvent_routes h with hsame | ⟨c₁, r, hstart, href, -, hend⟩
    · exact .inl ⟨congrArg Custody.routed hsame.custody, EventCollector.copies_of_custody hsame.custody⟩
    have hc₁ := hstart.custody
    have hroute := hend.custody
    refine .inr ⟨r, ?_, href, fun x => ?_⟩
    · rw [show c'.routed = _ from congrArg Custody.routed hroute]
      refine (c₁.routeMainEvent_spec r 0).2.trans ?_
      rw [show c₁.routed = c.routed from congrArg Custody.routed hc₁]
    · have hspec := (c₁.routeMainEvent_spec r x).1
      rw [EventCollector.copies_of_custody hc₁, EventCollector.lostBy_of_custody hc₁] at hspec
      rw [EventCollector.copies_of_custody hroute]
      exact hspec

/-! ### Whole runs -/

/-- The routed events are numbered in order, and of each there is at most one copy. -/
structure Accounted (c : EventCollector) : Prop where
  refs : c.routed.map (fun r => r.event.ref) = List.range c.routed.length
  atMostOnce : ∀ x, c.copies x ≤ 1
  onlyRouted : ∀ x, c.routed.length ≤ x → c.copies x = 0

theorem Accounted.initial : Accounted newEventCollector := ⟨rfl, fun _ => Nat.zero_le 1, fun _ _ => rfl⟩

theorem Accounted.mem_routed_iff {c : EventCollector} (h : Accounted c) (x : Nat) :
    (∃ r ∈ c.routed, r.event.ref = x) ↔ x < c.routed.length := by
  rw [← List.mem_range, ← h.refs, List.mem_map]

theorem lostBy_le (c : EventCollector) (r : Routing) (x : Nat) : c.lostBy r x ≤ c.copies x := by
  unfold EventCollector.lostBy
  split
  · have hdrop := heldIn_drop c.pendingMain r.cookie x
    rw [EventCollector.copies_eq]
    omega
  · exact Nat.zero_le _

/-- Routing `r` loses an event exactly when it assigns a key in use. -/
theorem overwrites_iff_lostBy (c : EventCollector) (r : Routing) :
    r.Overwrites c ↔ ∃ x, c.lostBy r x ≠ 0 := by
  unfold Routing.Overwrites EventCollector.lostBy
  constructor
  · rintro ⟨hreply, honeway, hcookie, hheld⟩
    obtain ⟨pe, hpe⟩ := Option.ne_none_iff_exists'.1 hheld
    refine ⟨pe.event.ref, ?_⟩
    rw [if_pos ⟨hreply, honeway, hcookie⟩, heldAt_some hpe]
    simp [occurrences]
  · rintro ⟨x, hx⟩
    split at hx
    · next hsync =>
      refine ⟨hsync.1, hsync.2.1, hsync.2.2, fun hnone => hx ?_⟩
      exact heldAt_none hnone x
    · exact absurd rfl hx

theorem occurrences_singleton (ev : MainEvent) (x : Nat) :
    occurrences [ev] x = if ev.ref = x then 1 else 0 := by
  simp [occurrences, List.count_singleton]

/-- A call keeps the account, and conserves the events exactly when it does not overwrite one. -/
theorem Accounted.step {c c' : EventCollector} {call : Call} (h : Accounted c)
    (hstep : Daemon.step c call = .ok c') :
    Accounted c' ∧ (c'.Conserved ↔ c.Conserved ∧ ¬ Overwrites c c') := by
  rcases step_copies hstep with ⟨hrouted, hcopies⟩ | ⟨r, hrouted, href, hcopies⟩
  · refine ⟨⟨hrouted ▸ h.refs, fun x => hcopies x ▸ h.atMostOnce x,
      fun x hx => hcopies x ▸ h.onlyRouted x (hrouted ▸ hx)⟩, ?_⟩
    have hnot : ¬ Overwrites c c' := by
      rintro ⟨r, hr, -⟩
      simpa using congrArg List.length (hrouted.symm.trans hr)
    simp only [EventCollector.conserved_iff, hrouted, hcopies, hnot, not_false_eq_true, and_true]
  -- the new event has one copy; an older one keeps its copy unless this call loses it
  have hlost := fun x => lostBy_le c r x
  have hnew : c'.copies c.routed.length = 1 := by
    have hx := hcopies c.routed.length
    have hfresh := h.onlyRouted _ (Nat.le_refl c.routed.length)
    have := hlost c.routed.length
    rw [occurrences_singleton, if_pos href] at hx
    omega
  have hold : ∀ x, x ≠ c.routed.length → c'.copies x + c.lostBy r x = c.copies x := by
    intro x hx
    have hc := hcopies x
    rw [occurrences_singleton, if_neg (href ▸ Ne.symm hx)] at hc
    exact hc
  have hlen : c'.routed.length = c.routed.length + 1 := by simp [hrouted]
  refine ⟨⟨?_, fun x => ?_, fun x hx => ?_⟩, ?_⟩
  · rw [hlen, hrouted, List.map_append, h.refs, List.range_succ]
    simp [href]
  · by_cases hx : x = c.routed.length
    · rw [hx, hnew]
    · have := hold x hx
      have := h.atMostOnce x
      omega
  · have := hold x (by omega)
    have := h.onlyRouted x (by omega)
    omega
  · have hover : Overwrites c c' ↔ ∃ x, c.lostBy r x ≠ 0 := by
      rw [← overwrites_iff_lostBy]
      refine ⟨?_, fun hr => ⟨r, hrouted, hr⟩⟩
      rintro ⟨r', hr', hr'over⟩
      have heq : r' = r := by simpa using hr'.symm.trans hrouted
      exact heq ▸ hr'over
    rw [hover, EventCollector.conserved_iff, EventCollector.conserved_iff, hrouted]
    push Not
    constructor
    · intro hall
      have hkept : ∀ r' ∈ c.routed, c.copies r'.event.ref = 1 ∧ c.lostBy r r'.event.ref = 0 := by
        intro r' hr'
        have hlt := (h.mem_routed_iff r'.event.ref).1 ⟨r', hr', rfl⟩
        have := hold r'.event.ref (Nat.ne_of_lt hlt)
        have := hall r' (List.mem_append_left _ hr')
        have := h.atMostOnce r'.event.ref
        omega
      refine ⟨fun r' hr' => (hkept r' hr').1, fun x => ?_⟩
      by_cases hx : x < c.routed.length
      · obtain ⟨r', hr', rfl⟩ := (h.mem_routed_iff x).2 hx
        exact (hkept r' hr').2
      · have := h.onlyRouted x (by omega)
        have := hlost x
        omega
    · rintro ⟨hall, hnone⟩ r' hr'
      rcases List.mem_append.1 hr' with hr' | hr'
      · have hlt := (h.mem_routed_iff r'.event.ref).1 ⟨r', hr', rfl⟩
        have := hold r'.event.ref (Nat.ne_of_lt hlt)
        have := hall r' hr'
        have := hnone r'.event.ref
        omega
      · rw [List.mem_singleton.1 hr', href, hnew]

theorem noOverwrite_snoc {calls : List Call} {call : Call} {c c' : EventCollector}
    (hrun : run step newEventCollector calls = .ok c) (hstep : step c call = .ok c') :
    NoOverwrite (calls ++ [call]) ↔ NoOverwrite calls ∧ ¬ Overwrites c c' := by
  constructor
  · intro h
    refine ⟨fun done o hpre => h done o (hpre.trans (List.prefix_append _ _)), ?_⟩
    exact h calls call List.prefix_rfl c c' hrun hstep
  · rintro ⟨h, hlast⟩ done o hpre m m' hm hm'
    rcases List.prefix_concat_iff.1 hpre with heq | hpre
    · obtain ⟨rfl, hlast'⟩ := List.append_inj' heq rfl
      obtain rfl := List.singleton_inj.1 hlast'
      cases hm.symm.trans hrun
      cases hm'.symm.trans hstep
      exact hlast
    · exact h done o hpre m m' hm hm'

theorem run_conserved_iff {calls : List Call} {c : EventCollector}
    (hrun : run step newEventCollector calls = .ok c) :
    Accounted c ∧ (c.Conserved ↔ NoOverwrite calls) := by
  refine run_history (P := fun ops m => Accounted m ∧ (m.Conserved ↔ NoOverwrite ops)) ?_ ?_ hrun
  · refine ⟨Accounted.initial, iff_of_true (fun r hr => nomatch hr) fun done o hpre => ?_⟩
    simpa using hpre.length_le
  · rintro ops m o t hm ⟨hacc, hiff⟩ hstep
    obtain ⟨hacc', hiff'⟩ := hacc.step hstep
    exact ⟨hacc', by rw [hiff', hiff, noOverwrite_snoc hm hstep]⟩

/-- **Conservation**: at every point of a run each completed event has been emitted exactly once,
or not yet and is held in exactly one pending map, if and only if no call of the run completes a
SYNC request whose cookie `pendingMain` already holds. -/
theorem conserved_iff_noOverwrite (calls : List Call) :
    (∀ done, done <+: calls → ∀ c, run step newEventCollector done = .ok c → c.Conserved) ↔
      NoOverwrite calls := by
  constructor
  · intro h done call hpre c c' hrun hstep
    have hrun' : run step newEventCollector (done ++ [call]) = .ok c' := by
      rw [run_snoc, hrun]
      exact hstep
    have hno := (run_conserved_iff hrun').2.1 (h _ hpre c' hrun')
    exact ((noOverwrite_snoc hrun hstep).1 hno).2
  · intro h done hpre c hrun
    exact (run_conserved_iff hrun).2.2 fun d o hd => h d o (hd.trans hpre)

/-- A one-chunk SYNC request that carries its cookie. -/
def syncRecord (transactionId cookie : UInt64) : BinderTraceEvent :=
  { isReply := 0, binderDev := 1, targetKind := 0, pid := 100, uid := 10000, code := 1, flags := 0,
    dataSize := 20, transactionId, chunkIndex := 0, cookie, toPid := 0, toUid := 0, targetRef := 0,
    pairId := 0, chunkData := List.Vector.replicate chunkSize 0 }

/-- Two SYNC requests with the cookie 7: the first is neither emitted nor held any more. -/
theorem sameCookieTwice_loses_event :
    ∃ c, run step newEventCollector
        [.handleEvent idleEnv (syncRecord 1 7), .handleEvent idleEnv (syncRecord 2 7)] = .ok c ∧
      ¬ c.Conserved := by
  apply exists_of_endsIn
  decide +kernel

end BinderTracer.Daemon
