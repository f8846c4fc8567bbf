import BinderTracer.Daemon.Conservation
import BinderTracer.Lib.Ring

/-!
# Duplicate cookies

`checkCookieDuplicate` keeps the cookies it accepted last in a ring, and in a set to look them up. A cookie counts as
a duplicate exactly if it is one of the last `recentCookieRingSize` that were accepted. The calls of a run are those
for the events that `routeMainEvent` was given with a cookie (`ChecksRouted`), so this is what
`cookieMonotonicViolation` counts in the daemon.
-/

namespace BinderTracer.Daemon

open BinderTracer.Kernel BinderTracer.Lib

namespace EventCollector

/-- The calls for these cookies, one after another. -/
def checkCookieDuplicates (c : EventCollector) (cookies : List UInt64) : EventCollector :=
  cookies.foldl checkCookieDuplicate c

theorem checkCookieDuplicates_snoc (c : EventCollector) (cookies : List UInt64) (cookie : UInt64) :
    c.checkCookieDuplicates (cookies ++ [cookie]) = (c.checkCookieDuplicates cookies).checkCookieDuplicate cookie := by
  rw [checkCookieDuplicates, List.foldl_append]
  rfl

/-- The cookies that were not counted as duplicates. -/
def acceptedCookies (c : EventCollector) : List UInt64 → List UInt64
  | [] => []
  | cookie :: rest =>
    let c' := c.checkCookieDuplicate cookie
    if c'.failures.cookieMonotonicViolation = c.failures.cookieMonotonicViolation then
      cookie :: c'.acceptedCookies rest
    else c'.acceptedCookies rest

theorem acceptedCookies_snoc (c : EventCollector) (cookies : List UInt64) (cookie : UInt64) :
    c.acceptedCookies (cookies ++ [cookie]) =
      c.acceptedCookies cookies ++ (c.checkCookieDuplicates cookies).acceptedCookies [cookie] := by
  induction cookies generalizing c with
  | nil => rfl
  | cons first cookies ih =>
    rw [List.cons_append, acceptedCookies, acceptedCookies]
    rw [ih]
    split <;> rfl

/-! ### The window -/

/-- The ring and the set hold the cookies accepted last. -/
def Remembers (c : EventCollector) (accepted : List UInt64) : Prop :=
  Ring.Tracks 0 c.recentCookieRing c.recentCookieHead c.recentCookieSet accepted

theorem remembers_start : newEventCollector.Remembers [] := .start 0 0

namespace Remembers

variable {c : EventCollector} {accepted : List UInt64}

theorem mem_recentCookieSet (h : c.Remembers accepted) {cookie : UInt64} :
    cookie ∈ c.recentCookieSet ↔ cookie ∈ accepted.rtake recentCookieRingSize := by
  rw [h.recent, List.mem_toFinset]

/-- A cookie is counted if it is one of those accepted last. -/
theorem violation (h : c.Remembers accepted) (cookie : UInt64) :
    (c.checkCookieDuplicate cookie).failures.cookieMonotonicViolation =
      c.failures.cookieMonotonicViolation + if cookie ∈ accepted.rtake recentCookieRingSize then 1 else 0 := by
  unfold checkCookieDuplicate
  split
  · next hdup => rw [if_pos (h.mem_recentCookieSet.1 hdup)]
  · next hnew => rw [if_neg fun hmem => hnew (h.mem_recentCookieSet.2 hmem), Nat.add_zero]

/-- Otherwise it is accepted. -/
theorem acceptedCookies_singleton (h : c.Remembers accepted) (cookie : UInt64) :
    c.acceptedCookies [cookie] = if cookie ∈ accepted.rtake recentCookieRingSize then [] else [cookie] := by
  rw [acceptedCookies, h.violation cookie]
  split
  · rw [if_neg (Nat.succ_ne_self _)]
    rfl
  · rw [if_pos (Nat.add_zero _)]
    rfl

theorem checkCookieDuplicate (h : c.Remembers accepted) {cookie : UInt64} (hcookie : cookie ≠ 0) :
    (c.checkCookieDuplicate cookie).Remembers (accepted ++ c.acceptedCookies [cookie]) := by
  rw [h.acceptedCookies_singleton]
  unfold EventCollector.checkCookieDuplicate
  split
  · next hdup =>
    rw [if_pos (h.mem_recentCookieSet.1 hdup), List.append_nil]
    exact h
  · next hnew =>
    rw [if_neg fun hmem => hnew (h.mem_recentCookieSet.2 hmem)]
    exact h.write hcookie hnew

end Remembers

theorem remembers_acceptedCookies (cookies : List UInt64) (h : 0 ∉ cookies) :
    (newEventCollector.checkCookieDuplicates cookies).Remembers (newEventCollector.acceptedCookies cookies) := by
  induction cookies using List.reverseRecOn with
  | nil => exact remembers_start
  | append_singleton cookies cookie ih =>
    rw [List.mem_append, List.mem_singleton, not_or] at h
    rw [checkCookieDuplicates_snoc, acceptedCookies_snoc]
    exact (ih h.1).checkCookieDuplicate (Ne.symm h.2)

/-- The slots of the ring that hold a cookie. -/
def cookieSlots (c : EventCollector) : List UInt64 := c.recentCookieRing.toList.filter fun slot => slot ≠ 0

/-- **A cookie is counted exactly if it is one of those accepted last**, and the set is that of the ring's slots. -/
theorem duplicates_detected {cookies : List UInt64} {c : EventCollector} (h : 0 ∉ cookies)
    (hc : newEventCollector.checkCookieDuplicates cookies = c) :
    c.recentCookieSet = c.cookieSlots.toFinset ∧ c.cookieSlots.Nodup ∧
      ∀ cookie, cookie ≠ 0 →
        (c.checkCookieDuplicate cookie).failures.cookieMonotonicViolation =
          c.failures.cookieMonotonicViolation +
            if cookie ∈ (newEventCollector.acceptedCookies cookies).rtake recentCookieRingSize then 1 else 0 := by
  have hremembers : c.Remembers (newEventCollector.acceptedCookies cookies) := hc ▸ remembers_acceptedCookies cookies h
  have hslots : c.cookieSlots.Perm ((newEventCollector.acceptedCookies cookies).rtake recentCookieRingSize) :=
    hremembers.filter_perm
  refine ⟨?_, hslots.nodup_iff.2 hremembers.distinct, fun cookie _ => hremembers.violation cookie⟩
  rw [hremembers.recent]
  exact (List.toFinset_eq_of_perm _ _ hslots).symm

theorem duplicates_detected_threeCookies :
    ∃ c, newEventCollector.checkCookieDuplicates [7, 8, 7] = c ∧ c.failures.cookieMonotonicViolation = 1 ∧
      c.recentCookieSet = c.cookieSlots.toFinset ∧ c.cookieSlots.Nodup ∧
        ∀ cookie, cookie ≠ 0 →
          (c.checkCookieDuplicate cookie).failures.cookieMonotonicViolation =
            c.failures.cookieMonotonicViolation +
              if cookie ∈ (newEventCollector.acceptedCookies [7, 8, 7]).rtake recentCookieRingSize then 1 else 0 :=
  ⟨_, rfl, by decide +kernel, duplicates_detected (by decide) rfl⟩

/-! ### The calls of a run -/

/-- What `checkCookieDuplicate` works on. -/
structure CookieWindow where
  recentCookieSet : Finset UInt64
  recentCookieRing : List.Vector UInt64 recentCookieRingSize
  recentCookieHead : Fin recentCookieRingSize
  cookieMonotonicViolation : Nat

def cookieWindow (c : EventCollector) : CookieWindow where
  recentCookieSet := c.recentCookieSet
  recentCookieRing := c.recentCookieRing
  recentCookieHead := c.recentCookieHead
  cookieMonotonicViolation := c.failures.cookieMonotonicViolation

/-- The cookies of the events that were routed with one and are not replies. -/
def checkedCookies (routed : List Routing) : List UInt64 :=
  (routed.filter fun r => r.event.payload.isReply = 0 && r.cookie ≠ 0).map Routing.cookie

theorem zero_notMem_checkedCookies (routed : List Routing) : 0 ∉ checkedCookies routed := by
  intro hmem
  obtain ⟨r, hr, hzero⟩ := List.mem_map.1 hmem
  simp [hzero] at hr

theorem cookieWindow_checkCookieDuplicate {c d : EventCollector} (h : c.cookieWindow = d.cookieWindow)
    (cookie : UInt64) :
    (c.checkCookieDuplicate cookie).cookieWindow = (d.checkCookieDuplicate cookie).cookieWindow := by
  obtain ⟨hset, hring, hhead, hviolation⟩ := CookieWindow.mk.inj h
  unfold checkCookieDuplicate
  rw [hset, hring, hhead]
  split
  all_goals simp only [cookieWindow, hviolation]

theorem cookieWindow_demotePendingMain (c : EventCollector) (cookie : UInt64) :
    (c.demotePendingMain cookie).cookieWindow = c.cookieWindow := by
  unfold demotePendingMain
  split <;> rfl

theorem cookieWindow_demotePendingMainByTxid (c : EventCollector) (transactionId : UInt64) :
    (c.demotePendingMainByTxid transactionId).cookieWindow = c.cookieWindow := by
  unfold demotePendingMainByTxid
  split <;> rfl

theorem cookieWindow_recordRecentOnewayEmit (c : EventCollector) (cookie : UInt64) (nowNs : Int) :
    (c.recordRecentOnewayEmit cookie nowNs).cookieWindow = c.cookieWindow := by
  unfold recordRecentOnewayEmit
  split <;> rfl

theorem cookieWindow_emit (c : EventCollector) (ev : MainEvent) : (c.emit ev).cookieWindow = c.cookieWindow := rfl

theorem cookieWindow_emitOneway (c : EventCollector) (ev : MainEvent) (cookie : UInt64) (nowNs : Int) :
    (c.emitOneway ev cookie nowNs).cookieWindow = c.cookieWindow := by
  unfold emitOneway
  split
  · rw [cookieWindow_emit, cookieWindow_recordRecentOnewayEmit]
    rfl
  · rw [cookieWindow_emit, cookieWindow_recordRecentOnewayEmit]

/-- Routing an event makes one call, if the event has a cookie and is not a reply. -/
theorem cookieWindow_dispatchMainEvent {c d : EventCollector} (h : c.cookieWindow = d.cookieWindow) (r : Routing) :
    (c.dispatchMainEvent r.event r.cookie r.transactionId r.nowNs).cookieWindow =
      (d.checkCookieDuplicates (checkedCookies [r])).cookieWindow := by
  unfold dispatchMainEvent
  by_cases hreply : r.event.payload.isReply = 0
  · rw [if_neg (not_not.2 hreply)]
    by_cases hcookie : r.cookie = 0
    · have hnone : checkedCookies [r] = [] := by simp [checkedCookies, hcookie]
      rw [if_pos hcookie, hnone]
      split
      · exact h
      · exact (cookieWindow_demotePendingMainByTxid _ r.transactionId).trans h
    · have hone : checkedCookies [r] = [r.cookie] := by simp [checkedCookies, hreply, hcookie]
      rw [if_neg hcookie, hone]
      split
      · exact (cookieWindow_emitOneway _ _ _ _).trans (cookieWindow_checkCookieDuplicate h r.cookie)
      · exact cookieWindow_checkCookieDuplicate h r.cookie
  · have hnone : checkedCookies [r] = [] := by simp [checkedCookies, hreply]
    rw [if_pos hreply, hnone]
    exact h

theorem cookieWindow_handleSideband (c : EventCollector) (nowNs : Int) (sb : BinderSidebandEvent) :
    (c.handleSideband nowNs sb).cookieWindow = c.cookieWindow := by
  unfold handleSideband
  split
  · rfl
  · split
    · rfl
    · split <;> rfl

theorem cookieWindow_handleCookieSideband (c : EventCollector) (receivedNs staleNs : Int)
    (cs : BinderCookieSideband) : (c.handleCookieSideband receivedNs staleNs cs).cookieWindow = c.cookieWindow := by
  obtain ⟨_, hbuffers⟩ | hoffer := c.handleCookieSideband_cases receivedNs staleNs cs
  · rw [hbuffers]
    rfl
  · rw [hoffer]
    unfold offerCookie
    split
    · exact cookieWindow_demotePendingMain _ cs.cookie
    · rfl

theorem routed_dispatchMainEvent (c : EventCollector) (ev : MainEvent) (cookie transactionId : UInt64)
    (nowNs : Int) : (c.dispatchMainEvent ev cookie transactionId nowNs).routed = c.routed :=
  congrArg Intake.routed (c.intake_dispatchMainEvent ev cookie transactionId nowNs)

/-- The window is what the calls for the events routed so far have made of it. -/
def ChecksRouted (c : EventCollector) : Prop :=
  c.cookieWindow = (newEventCollector.checkCookieDuplicates (checkedCookies c.routed)).cookieWindow

theorem SameMachine.checksRouted {c c' : EventCollector} (hsame : SameMachine c c') (h : c.ChecksRouted) :
    c'.ChecksRouted := by
  rw [hsame]
  exact h

theorem ChecksRouted.routeMainEvent {c : EventCollector} (h : c.ChecksRouted) (r : Routing) :
    (c.routeMainEvent r.event r.cookie r.transactionId r.nowNs).ChecksRouted := by
  have hlogged : ({ c with routed := c.routed ++ [r] }).cookieWindow =
      (newEventCollector.checkCookieDuplicates (checkedCookies c.routed)).cookieWindow := h
  unfold ChecksRouted EventCollector.routeMainEvent
  rw [cookieWindow_dispatchMainEvent hlogged r, routed_dispatchMainEvent, checkedCookies, checkedCookies,
    checkedCookies, List.filter_append, List.map_append]
  unfold checkCookieDuplicates
  rw [List.foldl_append]

theorem ChecksRouted.step {c c' : EventCollector} {call : Call} (h : c.ChecksRouted)
    (hstep : Daemon.step c call = .ok c') : c'.ChecksRouted := by
  cases call with
  | handleEvent env event =>
    rcases handleEvent_routes hstep with hsame | ⟨c₁, r, hbefore, -, -, hafter⟩
    · exact hsame.checksRouted h
    · exact hafter.checksRouted ((hbefore.checksRouted h).routeMainEvent r)
  | handleStackRecord receivedNs staleNs st =>
    cases hstep
    exact h
  | handleSideband nowNs sb =>
    cases hstep
    unfold ChecksRouted
    have hrouted : (c.handleSideband nowNs sb).routed = c.routed :=
      congrArg Intake.routed (c.intake_handleSideband nowNs sb)
    rw [hrouted, cookieWindow_handleSideband]
    exact h
  | handleCookieSideband receivedNs staleNs cs =>
    cases hstep
    unfold ChecksRouted
    rw [c.routed_handleCookieSideband, cookieWindow_handleCookieSideband]
    exact h
  | runSweep now mainOrder txidOrder =>
    cases hstep
    exact h
  | evictStale stackNs cookieNs =>
    cases hstep
    exact h

theorem checksRouted_of_run {calls : List Call} {c : EventCollector}
    (h : run Daemon.step newEventCollector calls = .ok c) : c.ChecksRouted := by
  have hstart : newEventCollector.ChecksRouted := rfl
  exact run_invariant (fun _ _ _ hc hstep => hc.step hstep) hstart h

/-- Every cookie is accepted or counted. -/
theorem violation_add_accepted (cookies : List UInt64) (h : 0 ∉ cookies) :
    (newEventCollector.checkCookieDuplicates cookies).failures.cookieMonotonicViolation +
      (newEventCollector.acceptedCookies cookies).length = cookies.length := by
  induction cookies using List.reverseRecOn with
  | nil => rfl
  | append_singleton cookies cookie ih =>
    rw [List.mem_append, not_or] at h
    have hremembers := remembers_acceptedCookies cookies h.1
    have hbefore := ih h.1
    rw [checkCookieDuplicates_snoc, acceptedCookies_snoc, hremembers.violation, hremembers.acceptedCookies_singleton,
      List.length_append, List.length_append, List.length_singleton]
    split
    · rw [List.length_nil]
      omega
    · rw [List.length_singleton]
      omega

/-- **In every run** the collector remembers the cookies accepted last of the events that were routed with one, and
`cookieMonotonicViolation` counts the others. -/
theorem duplicates_counted {calls : List Call} {c : EventCollector}
    (h : run Daemon.step newEventCollector calls = .ok c) :
    c.Remembers (newEventCollector.acceptedCookies (checkedCookies c.routed)) ∧
      c.failures.cookieMonotonicViolation + (newEventCollector.acceptedCookies (checkedCookies c.routed)).length =
        (checkedCookies c.routed).length := by
  have hcookies := zero_notMem_checkedCookies c.routed
  have hremembers := remembers_acceptedCookies (checkedCookies c.routed) hcookies
  obtain ⟨hset, hring, hhead, hviolation⟩ := CookieWindow.mk.inj (checksRouted_of_run h)
  unfold Remembers
  rw [hset, hring, hhead, hviolation]
  exact ⟨hremembers, violation_add_accepted _ hcookies⟩

theorem duplicates_counted_sameCookieTwice :
    ∃ c, run Daemon.step newEventCollector
        [.handleEvent idleEnv (syncRecord 1 7), .handleEvent idleEnv (syncRecord 2 7)] = .ok c ∧
      c.failures.cookieMonotonicViolation = 1 ∧
      c.Remembers (newEventCollector.acceptedCookies (checkedCookies c.routed)) := by
  obtain ⟨c, hrun, hviolation⟩ : ∃ c, run Daemon.step newEventCollector
      [.handleEvent idleEnv (syncRecord 1 7), .handleEvent idleEnv (syncRecord 2 7)] = .ok c ∧
      c.failures.cookieMonotonicViolation = 1 := exists_of_endsIn (by decide +kernel)
  exact ⟨c, hrun, hviolation, (duplicates_counted hrun).1⟩

end EventCollector

end BinderTracer.Daemon
