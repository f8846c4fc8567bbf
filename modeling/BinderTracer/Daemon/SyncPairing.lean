import BinderTracer.Daemon.Pairing
import BinderTracer.Daemon.Schedule

/-!
# Pairing of synchronous requests

A synchronous request is emitted when its tracepoint sideband arrives, provided the collector has put
its event together and knows its cookie by then. The cookie sideband may come before the first chunk,
between two chunks or after the last one, and is kept in a different place in each case. `Stage` says
where everything about one request is after any part of its records; `SyncState` says so for all
requests at once, and is kept by every call of an interleaving.
-/

namespace BinderTracer.Daemon

open BinderTracer.Kernel BinderTracer.Lib

/-! ### One request -/

/-- What the collector holds about one request. -/
@[ext]
structure View where
  buffer : Option TxBuffer := none
  parked : Option PendingCookieEntry := none
  waiting : Option PendingMainEntry := none
  paired : Option PendingMainEntry := none
  out : List MainEvent := []

def view (i : Intake) (p : Pairing) (q : Request) : View where
  buffer := i.transactionBuffers.lookup q.txid
  parked := i.pendingCookieByTxid.lookup q.txid
  waiting := p.pendingMainByTxid.lookup q.txid
  paired := p.pendingMain.lookup q.cookie
  out := p.emitted.filter fun ev => ev.transactionId = q.txid

theorem of_view_eq {c : EventCollector} {q : Request} {v : View} (h : view c.intake c.pairing q = v) :
    c.transactionBuffers.lookup q.txid = v.buffer ∧ c.pendingCookieByTxid.lookup q.txid = v.parked ∧
    c.pendingMainByTxid.lookup q.txid = v.waiting ∧ c.pendingMain.lookup q.cookie = v.paired ∧
    (c.emitted.filter fun ev => ev.transactionId = q.txid) = v.out := by
  subst h
  exact ⟨rfl, rfl, rfl, rfl, rfl⟩

/-- The cookie of a request, once its cookie sideband has arrived. -/
def Request.knownCookie (q : Request) (h : History) : UInt64 := if h.cookie then q.cookie else 0

/-- What the collector holds about a synchronous request with the history `h`. -/
inductive Stage (q : Request) (h : History) : View → Prop where
  | absent : h.got = [] → h.cookie = false → h.sideband = false → Stage q h {}
  | parked {receivedNs : Int} : h.got = [] → h.cookie = true → h.sideband = false →
      receivedNs ∈ h.times → Stage q h { parked := some ⟨q.cookie, receivedNs⟩ }
  | collecting {firstSeenNs : Int} : h.got ≠ [] → ¬ q.shipment.Complete h.got → h.sideband = false →
      firstSeenNs ∈ h.times →
      Stage q h { buffer := some (q.shipment.buffer h.got firstSeenNs (q.knownCookie h)) }
  | waiting {pe : PendingMainEntry} : q.shipment.Complete h.got → h.cookie = false → h.sideband = false →
      pe.enqueuedNs ∈ h.times → q.IsEvent pe.event → Stage q h { waiting := some pe }
  | paired {pe : PendingMainEntry} : q.shipment.Complete h.got → h.cookie = true → h.sideband = false →
      pe.enqueuedNs ∈ h.times → q.IsEvent pe.event → Stage q h { paired := some pe }
  | emitted {ev : MainEvent} : q.shipment.Complete h.got → h.cookie = true → h.sideband = true →
      q.IsEvent ev →
      Stage q h { out := [ev.applySideband q.kernelDebugId q.toPid q.toUid q.toUidUnsupported] }

namespace Stage

variable {q : Request} {h : History} {v : View}

/-- Whatever is held about a request was entered while it was outstanding. -/
theorem timed (hv : Stage q h v) :
    (∀ buf, v.buffer = some buf → h.Live buf.firstSeenNs) ∧
    (∀ pe, v.parked = some pe → h.Live pe.receivedNs) ∧
    (∀ pe, v.waiting = some pe → h.Live pe.enqueuedNs) ∧
    (∀ pe, v.paired = some pe → h.Live pe.enqueuedNs) := by
  cases hv with
  | absent => simp
  | parked _ _ hside ht => simp [History.Live, hside, ht]
  | collecting _ _ hside ht => simpa [History.Live, hside, Shipment.buffer] using ht
  | waiting _ _ hside ht => simp [History.Live, hside, ht]
  | paired _ _ hside ht => simp [History.Live, hside, ht]
  | emitted => simp

/-- No event of the request has been put together yet. -/
structure Unrouted (q : Request) (h : History) (p : Pairing) : Prop where
  sideband : h.sideband = false
  waiting : p.pendingMainByTxid.lookup q.txid = none
  paired : p.pendingMain.lookup q.cookie = none
  out : (p.emitted.filter fun ev => ev.transactionId = q.txid) = []

/-- The first chunk opens a buffer with the cookie kept for the request, and a later one finds it. -/
theorem openBuffer {c : EventCollector} (hv : Stage q h (view c.intake c.pairing q))
    (hmore : ¬ q.shipment.Complete h.got) (i : Nat) (env : EventEnv) :
    ∃ firstSeenNs, (firstSeenNs = env.nowNs ∨ firstSeenNs ∈ h.times) ∧
      c.openBuffer env (q.shipment.record i) = .ok
        ({ c with pendingCookieByTxid := c.pendingCookieByTxid.drop q.txid },
          q.shipment.buffer h.got firstSeenNs (q.knownCookie h)) ∧
      Unrouted q h c.pairing := by
  generalize hview : view c.intake c.pairing q = v at hv
  obtain ⟨hbuffer, hparked, hwaiting, hpaired, hout⟩ := of_view_eq hview
  cases hv with
  | absent hgot hcookie hside =>
    refine ⟨env.nowNs, .inl rfl, ?_, ⟨hside, hwaiting, hpaired, hout⟩⟩
    have hopen := EventCollector.openBuffer_none i env hbuffer q.unknown.1
    rw [show c.pendingCookieByTxid.lookup q.shipment.txid = none from hparked] at hopen
    simpa [hgot, Request.knownCookie, hcookie] using hopen
  | parked hgot hcookie hside _ =>
    refine ⟨env.nowNs, .inl rfl, ?_, ⟨hside, hwaiting, hpaired, hout⟩⟩
    have hopen := EventCollector.openBuffer_none i env hbuffer q.unknown.1
    rw [show c.pendingCookieByTxid.lookup q.shipment.txid = some _ from hparked] at hopen
    simpa [hgot, Request.knownCookie, hcookie] using hopen
  | @collecting firstSeenNs _ _ hside ht =>
    refine ⟨firstSeenNs, .inr ht, ?_, ⟨hside, hwaiting, hpaired, hout⟩⟩
    rw [LruMap.drop_of_lookup_none hparked]
    exact EventCollector.openBuffer_some env hbuffer
  | waiting hall => exact absurd hall hmore
  | paired hall => exact absurd hall hmore
  | emitted hall => exact absurd hall hmore

end Stage

/-! ### All requests -/

section
variable {ι : Type} [DecidableEq ι]

/-- What the collector holds after the part `done` of a schedule of synchronous requests. -/
structure SyncState (tx : ι → Request) (done : List (Delivery ι)) (i : Intake) (p : Pairing) : Prop where
  stages : ∀ t, Stage (tx t) (history t done) (view i p (tx t))
  /-- Nothing is held under any other transaction id or cookie. -/
  foreignTxid : ∀ k, (∀ t, (tx t).txid ≠ k) → i.transactionBuffers.lookup k = none ∧
    i.pendingCookieByTxid.lookup k = none ∧ p.pendingMainByTxid.lookup k = none ∧
    (p.emitted.filter fun ev => ev.transactionId = k) = []
  foreignCookie : ∀ k, (∀ t, (tx t).cookie ≠ k) → p.pendingMain.lookup k = none
  coherent : i.pendingCookieByTxid.Coherent ∧ p.pendingMainByTxid.Coherent ∧ p.pendingMain.Coherent
  noSideband : p.pendingOneway = {} ∧ p.recentOneway = {}
  noFailure : p.entryEarlyReturn = 0 ∧ p.sidebandOrphan = 0
  production : i.legacyCookieZeroSyncEmit = false

/-- The step from `(i, p)` to `(i', p')` concerns the request `q` alone. -/
structure Concerns (q : Request) (i : Intake) (p : Pairing) (i' : Intake) (p' : Pairing) : Prop where
  txid : ∀ k, k ≠ q.txid →
    i'.transactionBuffers.lookup k = i.transactionBuffers.lookup k ∧
    i'.pendingCookieByTxid.lookup k = i.pendingCookieByTxid.lookup k ∧
    p'.pendingMainByTxid.lookup k = p.pendingMainByTxid.lookup k ∧
    (p'.emitted.filter fun ev => ev.transactionId = k) = p.emitted.filter fun ev => ev.transactionId = k
  cookie : ∀ k, k ≠ q.cookie → p'.pendingMain.lookup k = p.pendingMain.lookup k
  coherent : i'.pendingCookieByTxid.Coherent ∧ p'.pendingMainByTxid.Coherent ∧ p'.pendingMain.Coherent
  rest : p'.pendingOneway = p.pendingOneway ∧ p'.recentOneway = p.recentOneway ∧
    p'.entryEarlyReturn = p.entryEarlyReturn ∧ p'.sidebandOrphan = p.sidebandOrphan ∧
    i'.legacyCookieZeroSyncEmit = i.legacyCookieZeroSyncEmit

namespace SyncState

variable {tx : ι → Request} {sched done : List (Delivery ι)} {i i' : Intake} {p p' : Pairing}

theorem initial (tx : ι → Request) :
    SyncState tx [] newEventCollector.intake newEventCollector.pairing where
  stages _ := .absent rfl rfl rfl
  foreignTxid _ _ := ⟨rfl, rfl, rfl, rfl⟩
  foreignCookie _ _ := rfl
  coherent := ⟨.empty, .empty, .empty⟩
  noSideband := ⟨rfl, rfl⟩
  noFailure := ⟨rfl, rfl⟩
  production := rfl

/-- **A record of one request** moves that request to its next stage and leaves the others. -/
theorem record (h : SyncState tx done i p) (hsched : Interleaving tx sched pendingMainTTL) {r : Record ι}
    (env : EventEnv) (hstep : Concerns (tx r.owner) i p i' p')
    (hstage : Stage (tx r.owner) (history r.owner (done ++ [Delivery.record r env])) (view i' p' (tx r.owner))) :
    SyncState tx (done ++ [Delivery.record r env]) i' p' where
  stages t := by
    by_cases ht : r.owner = t
    · exact ht ▸ hstage
    · have hhist : history t (done ++ [Delivery.record r env]) = history t done :=
        history_snoc_of_ne (d := .record r env) (fun heq => ht (Option.some.inj heq)) done
      obtain ⟨hb, hc, hw, ho⟩ := hstep.txid (tx t).txid fun heq => ht (hsched.txids heq).symm
      have hp := hstep.cookie (tx t).cookie fun heq => ht (hsched.cookies heq).symm
      have hview : view i' p' (tx t) = view i p (tx t) := View.ext hb hc hw hp ho
      rw [hhist, hview]
      exact h.stages t
  foreignTxid k hk := by
    obtain ⟨hb, hc, hw, ho⟩ := hstep.txid k (hk r.owner).symm
    rw [hb, hc, hw, ho]
    exact h.foreignTxid k hk
  foreignCookie k hk := by
    rw [hstep.cookie k (hk r.owner).symm]
    exact h.foreignCookie k hk
  coherent := hstep.coherent
  noSideband := by
    rw [hstep.rest.1, hstep.rest.2.1]
    exact h.noSideband
  noFailure := by
    rw [hstep.rest.2.2.1, hstep.rest.2.2.2.1]
    exact h.noFailure
  production := hstep.rest.2.2.2.2.trans h.production

/-- A call that delivers no record of the requests is no part of any history. -/
theorem background (h : SyncState tx done i p) {d : Delivery ι} (hd : d.record? = none) :
    SyncState tx (done ++ [d]) i p :=
  { h with
    stages := fun t => by
      rw [history_snoc_of_ne (by simp [hd]) done]
      exact h.stages t }

/-- Whatever is held is held for an outstanding request. -/
theorem owned (h : SyncState tx done i p) :
    (∀ k buf, i.transactionBuffers.lookup k = some buf →
      ∃ t, (tx t).txid = k ∧ (history t done).Live buf.firstSeenNs) ∧
    (∀ k pe, i.pendingCookieByTxid.lookup k = some pe →
      ∃ t, (tx t).txid = k ∧ (history t done).Live pe.receivedNs) ∧
    (∀ k pe, p.pendingMainByTxid.lookup k = some pe →
      ∃ t, (tx t).txid = k ∧ (history t done).Live pe.enqueuedNs) ∧
    (∀ k pe, p.pendingMain.lookup k = some pe →
      ∃ t, (tx t).cookie = k ∧ (history t done).Live pe.enqueuedNs) := by
  refine ⟨fun k buf hbuf => ?_, fun k pe hpe => ?_, fun k pe hpe => ?_, fun k pe hpe => ?_⟩
  · by_cases hk : ∃ t, (tx t).txid = k
    · obtain ⟨t, rfl⟩ := hk
      exact ⟨t, rfl, (h.stages t).timed.1 buf hbuf⟩
    · exact nomatch (h.foreignTxid k (not_exists.1 hk)).1.symm.trans hbuf
  · by_cases hk : ∃ t, (tx t).txid = k
    · obtain ⟨t, rfl⟩ := hk
      exact ⟨t, rfl, (h.stages t).timed.2.1 pe hpe⟩
    · exact nomatch (h.foreignTxid k (not_exists.1 hk)).2.1.symm.trans hpe
  · by_cases hk : ∃ t, (tx t).txid = k
    · obtain ⟨t, rfl⟩ := hk
      exact ⟨t, rfl, (h.stages t).timed.2.2.1 pe hpe⟩
    · exact nomatch (h.foreignTxid k (not_exists.1 hk)).2.2.1.symm.trans hpe
  · by_cases hk : ∃ t, (tx t).cookie = k
    · obtain ⟨t, rfl⟩ := hk
      exact ⟨t, rfl, (h.stages t).timed.2.2.2 pe hpe⟩
    · exact nomatch (h.foreignCookie k (not_exists.1 hk)).symm.trans hpe

/-- Everything held is fresh at every reading made so far. -/
theorem fresh (h : SyncState tx done i p) (hsched : Interleaving tx sched pendingMainTTL)
    (hdone : done <+: sched) {now : Int} (hnow : now ∈ done.flatMap Delivery.readings) :
    (∀ k buf, i.transactionBuffers.lookup k = some buf → now ≤ buf.firstSeenNs + staleBufferTTL) ∧
    (∀ k pe, i.pendingCookieByTxid.lookup k = some pe → now ≤ pe.receivedNs + pendingCookieTTL) ∧
    (∀ k pe, p.pendingMainByTxid.lookup k = some pe → now ≤ pe.enqueuedNs + pendingMainTTL) ∧
    (∀ k pe, p.pendingMain.lookup k = some pe → now ≤ pe.enqueuedNs + pendingMainTTL) := by
  obtain ⟨hbuffers, hcookies, hwaiting, hpaired⟩ := h.owned
  refine ⟨fun k buf hbuf => ?_, fun k pe hpe => ?_, fun k pe hpe => ?_, fun k pe hpe => ?_⟩
  · obtain ⟨t, -, hlive⟩ := hbuffers k buf hbuf
    exact hsched.fresh hdone hlive hnow
  · obtain ⟨t, -, hlive⟩ := hcookies k pe hpe
    exact hsched.fresh hdone hlive hnow
  · obtain ⟨t, -, hlive⟩ := hwaiting k pe hpe
    exact hsched.fresh hdone hlive hnow
  · obtain ⟨t, -, hlive⟩ := hpaired k pe hpe
    exact hsched.fresh hdone hlive hnow

/-- Cleaning up after a chunk record removes nothing. -/
theorem maybeCleanup {c : EventCollector} {r : Record ι} {env : EventEnv}
    (h : SyncState tx (done ++ [Delivery.record r env]) c.intake c.pairing)
    (hsched : Interleaving tx sched pendingMainTTL) (hnext : done ++ [Delivery.record r env] <+: sched) :
    SyncState tx (done ++ [Delivery.record r env]) (c.maybeCleanup env).intake (c.maybeCleanup env).pairing := by
  have hnow : env.nowNs ∈ (Delivery.record r env).readings := by simp [Delivery.readings]
  have hcookieNs : env.cookieNs ∈ (Delivery.record r env).readings := by simp [Delivery.readings]
  have hintake : (c.maybeCleanup env).intake = c.intake :=
    EventCollector.intake_maybeCleanup (h.fresh hsched hnext (mem_readings_snoc done hnow)).1
      (h.fresh hsched hnext (mem_readings_snoc done hcookieNs)).2.1
  rw [hintake, (EventCollector.sameMachine_maybeCleanup _ env).pairing]
  exact h

end SyncState

/-- The buffer of the request `q` has been taken out of `c`, with the cookie kept for it. -/
structure Taken (q : Request) (c m : EventCollector) : Prop where
  pairing : m.pairing = c.pairing
  buffer : m.transactionBuffers.lookup q.txid = none
  buffers : ∀ k, k ≠ q.txid → m.transactionBuffers.lookup k = c.transactionBuffers.lookup k
  cookies : m.pendingCookieByTxid = c.pendingCookieByTxid.drop q.txid
  legacy : m.legacyCookieZeroSyncEmit = c.legacyCookieZeroSyncEmit

namespace Taken

variable {q : Request} {c m : EventCollector}

theorem parked (h : Taken q c m) : m.pendingCookieByTxid.lookup q.txid = none := by
  rw [h.cookies, LruMap.lookup_drop_self]

theorem others (h : Taken q c m) {k : UInt64} (hk : k ≠ q.txid) :
    m.pendingCookieByTxid.lookup k = c.pendingCookieByTxid.lookup k := by
  rw [h.cookies, LruMap.lookup_drop_ne _ hk]

theorem coherent (h : Taken q c m) (hc : c.pendingCookieByTxid.Coherent) : m.pendingCookieByTxid.Coherent := by
  rw [h.cookies]
  exact hc.drop _

end Taken

/-- A request without its sideband is outstanding once one of its chunks has arrived. -/
theorem live_of_chunk {t : ι} {done : List (Delivery ι)} (i : Nat) (env : EventEnv)
    (h : (history t done).sideband = false) :
    (history t (done ++ [Delivery.record (.chunk t i) env])).Live env.nowNs := by
  rw [history_snoc_chunk]
  exact ⟨h, by simp⟩

/-- An interleaving of synchronous requests in which each sideband comes after the other records of
its request, with no more requests outstanding than the maps hold. -/
structure SyncSchedule (tx : ι → Request) (sched : List (Delivery ι)) : Prop
    extends Interleaving tx sched pendingMainTTL where
  sync : ∀ t, ¬ (tx t).oneway
  identified : ∀ t, (tx t).kernelDebugId ≠ 0
  last : ∀ done t env, done ++ [Delivery.record (.sideband t) env] <+: sched →
    .cookie t ∈ records done ∧ ∀ i < (tx t).shipment.count, .chunk t i ∈ records done
  room : ∀ done, done <+: sched →
    (outstanding done).length ≤ pendingMainCapacity ∧ (outstanding done).length ≤ pendingCookieCapacity

namespace SyncSchedule

variable {tx : ι → Request} {sched done : List (Delivery ι)} {c : EventCollector} {t : ι} {env : EventEnv}

theorem isOneway_eq_false (hs : SyncSchedule tx sched) {ev : MainEvent} (hev : (tx t).IsEvent ev) :
    ev.payload.isOneway = false := by
  rw [Bool.eq_false_iff]
  exact fun htrue => hs.sync t (hev.isOneway.1 htrue)

section
variable (hs : SyncSchedule tx sched) (h : SyncState tx done c.intake c.pairing)
include hs h

/-- A chunk that is not the last one goes to the buffer. -/
theorem chunk_more {i : Nat}
    {firstSeenNs : Int} (hfirst : firstSeenNs = env.nowNs ∨ firstSeenNs ∈ (history t done).times)
    (hun : Stage.Unrouted (tx t) (history t done) c.pairing)
    (hmore : ¬ (tx t).shipment.Complete ((history t done).got ++ [i])) :
    SyncState tx (done ++ [Delivery.record (.chunk t i) env])
      { c.intake with
        transactionBuffers := c.transactionBuffers.insert (tx t).txid ((tx t).shipment.buffer
          ((history t done).got ++ [i]) firstSeenNs ((tx t).knownCookie (history t done)))
        pendingCookieByTxid := c.pendingCookieByTxid.drop (tx t).txid } c.pairing := by
  refine h.record (r := .chunk t i) hs.toInterleaving env ?_ ?_
  · exact {
      txid := fun k hk => ⟨AList.lookup_insert_ne hk, LruMap.lookup_drop_ne _ hk, rfl, rfl⟩
      cookie := fun k _ => rfl
      coherent := ⟨h.coherent.1.drop _, h.coherent.2⟩
      rest := ⟨rfl, rfl, rfl, rfl, rfl⟩ }
  · have hview : view { c.intake with
        transactionBuffers := c.transactionBuffers.insert (tx t).txid ((tx t).shipment.buffer
          ((history t done).got ++ [i]) firstSeenNs ((tx t).knownCookie (history t done)))
        pendingCookieByTxid := c.pendingCookieByTxid.drop (tx t).txid } c.pairing (tx t) =
        { buffer := some ((tx t).shipment.buffer ((history t done).got ++ [i]) firstSeenNs
            ((tx t).knownCookie (history t done))) } :=
      View.ext (AList.lookup_insert _) (LruMap.lookup_drop_self _ _) hun.waiting hun.paired hun.out
    rw [Record.owner, history_snoc_chunk, hview]
    refine Stage.collecting (by simp) hmore hun.sideband ?_
    rcases hfirst with rfl | hmem
    · simp
    · exact List.mem_append_left _ hmem

section
variable {i : Nat} (hnext : done ++ [Delivery.record (.chunk t i) env] <+: sched) {m : EventCollector}
  (htaken : Taken (tx t) c m) {ev : MainEvent} (hev : (tx t).IsEvent ev)
  (hun : Stage.Unrouted (tx t) (history t done) c.pairing)
  (hall : (tx t).shipment.Complete ((history t done).got ++ [i]))
include hnext htaken hev hun hall

/-- The last chunk completes the event; without a cookie it waits for that. -/
theorem chunk_waits (hcookie : (history t done).cookie = false) :
    SyncState tx (done ++ [Delivery.record (.chunk t i) env]) m.intake
      (m.dispatchMainEvent ev 0 (tx t).txid env.nowNs).pairing := by
  let pe : PendingMainEntry := { enqueuedNs := env.nowNs, event := ev }
  have hlive := live_of_chunk i env hun.sideband
  have hroom := len_push_le (hs.room _ hnext).1 (outstanding_subset env (by simp)) hlive.outstanding h.coherent.2.1
    h.owned.2.2.1 hun.waiting pe
  have hm' : (m.dispatchMainEvent ev 0 (tx t).txid env.nowNs).pairing = { c.pairing with
      pendingMainByTxid := c.pairing.pendingMainByTxid.push (tx t).txid pe } := by
    have hfree : m.pairing.pendingMainByTxid.lookup (tx t).txid = none := by
      rw [htaken.pairing]
      exact hun.waiting
    rw [← htaken.pairing] at hroom ⊢
    exact EventCollector.pairing_dispatch_waiting hev.isReply (hs.isOneway_eq_false hev) (tx t).txid_ne_zero
      (htaken.legacy.trans h.production) hfree hroom
  rw [hm']
  refine h.record (r := .chunk t i) hs.toInterleaving env ?_ ?_
  · exact {
      txid := fun k hk => ⟨htaken.buffers k hk, htaken.others hk, LruMap.lookup_push_ne _ _ hk, rfl⟩
      cookie := fun k _ => rfl
      coherent := ⟨htaken.coherent h.coherent.1, h.coherent.2.1.push pe hun.waiting, h.coherent.2.2⟩
      rest := ⟨rfl, rfl, rfl, rfl, htaken.legacy⟩ }
  · have hview : view m.intake { c.pairing with
        pendingMainByTxid := c.pairing.pendingMainByTxid.push (tx t).txid pe } (tx t) =
        { waiting := some pe } :=
      View.ext htaken.buffer htaken.parked (LruMap.lookup_push_self _ _ _) hun.paired hun.out
    rw [Record.owner, hview]
    refine .waiting ?_ ?_ hlive.1 hlive.2 hev
    · simpa using hall
    · simpa using hcookie

/-- With a cookie, the event of the last chunk waits for the sideband. -/
theorem chunk_pairs (hcookie : (history t done).cookie = true) :
    SyncState tx (done ++ [Delivery.record (.chunk t i) env]) m.intake
      (m.dispatchMainEvent ev (tx t).cookie (tx t).txid env.nowNs).pairing := by
  let pe : PendingMainEntry := { enqueuedNs := env.nowNs, event := ev }
  have hlive := live_of_chunk i env hun.sideband
  have hroom := len_push_le (hs.room _ hnext).1 (outstanding_subset env (by simp)) hlive.outstanding h.coherent.2.2
    h.owned.2.2.2 hun.paired pe
  have hm' : (m.dispatchMainEvent ev (tx t).cookie (tx t).txid env.nowNs).pairing = { c.pairing with
      pendingMain := c.pairing.pendingMain.push (tx t).cookie pe } := by
    rw [← htaken.pairing] at hroom ⊢
    exact EventCollector.pairing_dispatch_paired hev.isReply (hs.isOneway_eq_false hev) (tx t).cookie_ne_zero hroom
  rw [hm']
  refine h.record (r := .chunk t i) hs.toInterleaving env ?_ ?_
  · exact {
      txid := fun k hk => ⟨htaken.buffers k hk, htaken.others hk, rfl, rfl⟩
      cookie := fun k hk => LruMap.lookup_push_ne _ _ hk
      coherent := ⟨htaken.coherent h.coherent.1, h.coherent.2.1, h.coherent.2.2.push pe hun.paired⟩
      rest := ⟨rfl, rfl, rfl, rfl, htaken.legacy⟩ }
  · have hview : view m.intake { c.pairing with
        pendingMain := c.pairing.pendingMain.push (tx t).cookie pe } (tx t) = { paired := some pe } :=
      View.ext htaken.buffer htaken.parked hun.waiting (LruMap.lookup_push_self _ _ _) hun.out
    rw [Record.owner, hview]
    refine .paired ?_ ?_ hlive.1 hlive.2 hev
    · simpa using hall
    · simpa using hcookie

/-- The last chunk completes the event, which then waits for the cookie or for the sideband. -/
theorem chunk_last :
    let m' := m.dispatchMainEvent ev ((tx t).knownCookie (history t done)) (tx t).txid env.nowNs
    SyncState tx (done ++ [Delivery.record (.chunk t i) env]) m'.intake m'.pairing := by
  intro m'
  have hintake : m'.intake = m.intake := EventCollector.intake_dispatchMainEvent _ _ _ _ _
  rw [hintake]
  cases hcookie : (history t done).cookie with
  | false =>
    have hknown : (tx t).knownCookie (history t done) = 0 := by simp [Request.knownCookie, hcookie]
    simp only [m', hknown]
    exact hs.chunk_waits h hnext htaken hev hun hall hcookie
  | true =>
    have hknown : (tx t).knownCookie (history t done) = (tx t).cookie := by simp [Request.knownCookie, hcookie]
    simp only [m', hknown]
    exact hs.chunk_pairs h hnext htaken hev hun hall hcookie

end

/-- **A chunk record.** -/
theorem step_chunk {i : Nat}
    (hnext : done ++ [Delivery.record (.chunk t i) env] <+: sched) :
    ∃ c', c.handleEvent env ((tx t).shipment.record i) = .ok c' ∧
      SyncState tx (done ++ [Delivery.record (.chunk t i) env]) c'.intake c'.pairing := by
  obtain ⟨hi, hmore⟩ := hs.chunk_due hnext
  obtain ⟨firstSeenNs, hfirst, hopen, hun⟩ := (h.stages t).openBuffer hmore i env
  have hmem : ∀ j, j ∈ i :: (history t done).got ↔ j ∈ (history t done).got ++ [i] :=
    fun j => by simp [or_comm]
  refine ⟨_, EventCollector.handleEvent_record hi hopen, ?_⟩
  simp only [Shipment.complete_congr _ hmem, Shipment.buffer_congr _ hmem]
  split
  · next hall =>
    apply SyncState.maybeCleanup (r := .chunk t i) _ hs.toInterleaving hnext
    obtain ⟨m, stackTrace, hpairing, hintake, heq⟩ := EventCollector.routeShipment_eq
      (EventCollector.putBuffer { c with pendingCookieByTxid := c.pendingCookieByTxid.drop (tx t).txid }
        (tx t).txid ((tx t).shipment.buffer ((history t done).got ++ [i]) firstSeenNs
          ((tx t).knownCookie (history t done)))) env (tx t).shipment ((tx t).knownCookie (history t done))
    have hbuffers : m.transactionBuffers = AList.erase (tx t).txid (c.transactionBuffers.insert (tx t).txid _) :=
      congrArg Intake.transactionBuffers hintake
    rw [heq]
    refine hs.chunk_last h hnext ⟨hpairing, ?_, fun k hk => ?_, congrArg Intake.pendingCookieByTxid hintake,
      congrArg Intake.legacyCookieZeroSyncEmit hintake⟩ ⟨_, _, _, rfl⟩ hun hall
    · rw [hbuffers, AList.lookup_erase]
    · rw [hbuffers, AList.lookup_erase_ne hk, AList.lookup_insert_ne hk]
  · next hmore' =>
    apply SyncState.maybeCleanup (r := .chunk t i) _ hs.toInterleaving hnext
    exact hs.chunk_more h hfirst hun hmore'

/-- A cookie that arrives before the first chunk is kept. -/
theorem cookie_parked
    (hnext : done ++ [Delivery.record (.cookie t) env] <+: sched) (hgot : (history t done).got = [])
    (hside : (history t done).sideband = false) (hview : view c.intake c.pairing (tx t) = {}) :
    let c' := c.handleCookieSideband env.nowNs env.cookieNs (tx t).cookieSideband
    SyncState tx (done ++ [Delivery.record (.cookie t) env]) c'.intake c'.pairing := by
  intro c'
  obtain ⟨hbuffer, hparked, hwaiting, hpaired, hout⟩ := of_view_eq hview
  let pe : PendingCookieEntry := ⟨(tx t).cookie, env.nowNs⟩
  let m : EventCollector :=
    { c with pendingCookieByTxid := c.pendingCookieByTxid.push (tx t).txid pe }
  have hlive : (history t (done ++ [Delivery.record (.cookie t) env])).Live env.nowNs := by
    rw [history_snoc_cookie]
    exact ⟨hside, by simp⟩
  have hroom : (c.pendingCookieByTxid.push (tx t).txid pe).lru.len ≤ pendingCookieCapacity :=
    len_push_le (hs.room _ hnext).2 (outstanding_subset env (by simp)) hlive.outstanding h.coherent.1 h.owned.2.1
      hparked pe
  have hc' : c' = m.evictStalePendingCookies env.cookieNs := by
    simp only [c', EventCollector.handleCookieSideband, Request.cookieSideband, (tx t).txid_ne_zero,
      (tx t).cookie_ne_zero, or_self, if_false, hbuffer, EventCollector.offerCookie, hwaiting,
      EventCollector.parkPendingCookie, hparked, LruMap.evict_of_len_le hroom, m, pe]
  have hm : SyncState tx (done ++ [Delivery.record (.cookie t) env]) m.intake m.pairing := by
    refine h.record (r := .cookie t) hs.toInterleaving env ?_ ?_
    · exact {
        txid := fun k hk => ⟨rfl, LruMap.lookup_push_ne _ _ hk, rfl, rfl⟩
        cookie := fun k _ => rfl
        coherent := ⟨h.coherent.1.push pe hparked, h.coherent.2⟩
        rest := ⟨rfl, rfl, rfl, rfl, rfl⟩ }
    · have hview' : view m.intake m.pairing (tx t) = { parked := some pe } :=
        View.ext hbuffer (LruMap.lookup_push_self _ _ _) hwaiting hpaired hout
      rw [Record.owner, hview']
      exact .parked (by simpa using hgot) (by simp) hlive.1 hlive.2
  have hreading : env.cookieNs ∈ (Delivery.record (.cookie t) env).readings := by simp [Delivery.readings]
  have hsame : m.evictStalePendingCookies env.cookieNs = m :=
    EventCollector.evictStalePendingCookies_fresh
      (hm.fresh hs.toInterleaving hnext (mem_readings_snoc done hreading)).2.1
  rw [hc', hsame]
  exact hm

/-- A cookie that arrives between two chunks goes to the buffer. -/
theorem cookie_collecting
    {firstSeenNs : Int} (hgot : (history t done).got ≠ [])
    (hmore : ¬ (tx t).shipment.Complete (history t done).got) (hside : (history t done).sideband = false)
    (hfirst : firstSeenNs ∈ (history t done).times)
    (hview : view c.intake c.pairing (tx t) =
      { buffer := some ((tx t).shipment.buffer (history t done).got firstSeenNs 0) }) :
    let c' := c.handleCookieSideband env.nowNs env.cookieNs (tx t).cookieSideband
    SyncState tx (done ++ [Delivery.record (.cookie t) env]) c'.intake c'.pairing := by
  intro c'
  obtain ⟨hbuffer, hparked, hwaiting, hpaired, hout⟩ := of_view_eq hview
  let buf := (tx t).shipment.buffer (history t done).got firstSeenNs (tx t).cookie
  have hc' : c' = c.putBuffer (tx t).txid buf := by
    simp only [c', EventCollector.handleCookieSideband, Request.cookieSideband, (tx t).txid_ne_zero,
      (tx t).cookie_ne_zero, or_self, if_false, hbuffer]
    rfl
  rw [hc']
  refine h.record (r := .cookie t) hs.toInterleaving env ?_ ?_
  · exact {
      txid := fun k hk => ⟨AList.lookup_insert_ne hk, rfl, rfl, rfl⟩
      cookie := fun k _ => rfl
      coherent := h.coherent
      rest := ⟨rfl, rfl, rfl, rfl, rfl⟩ }
  · have hview' : view (c.putBuffer (tx t).txid buf).intake (c.putBuffer (tx t).txid buf).pairing (tx t) =
        { buffer := some buf } :=
      View.ext (AList.lookup_insert _) hparked hwaiting hpaired hout
    rw [Record.owner, history_snoc_cookie, hview']
    exact .collecting hgot hmore hside (List.mem_append_left _ hfirst)

/-- A cookie that arrives after the last chunk lets the event wait for the sideband. -/
theorem cookie_waiting
    (hnext : done ++ [Delivery.record (.cookie t) env] <+: sched) {pe : PendingMainEntry}
    (hall : (tx t).shipment.Complete (history t done).got) (hside : (history t done).sideband = false)
    (henq : pe.enqueuedNs ∈ (history t done).times) (hev : (tx t).IsEvent pe.event)
    (hview : view c.intake c.pairing (tx t) = { waiting := some pe }) :
    let c' := c.handleCookieSideband env.nowNs env.cookieNs (tx t).cookieSideband
    SyncState tx (done ++ [Delivery.record (.cookie t) env]) c'.intake c'.pairing := by
  intro c'
  obtain ⟨hbuffer, hparked, hwaiting, hpaired, hout⟩ := of_view_eq hview
  let pe' : PendingMainEntry := { pe with cookie := (tx t).cookie }
  let m : EventCollector := { c with pendingMainByTxid := c.pendingMainByTxid.drop (tx t).txid }
  have hlive : (history t (done ++ [Delivery.record (.cookie t) env])).Live pe'.enqueuedNs := by
    rw [history_snoc_cookie]
    exact ⟨hside, List.mem_append_left _ henq⟩
  have hroom : (c.pendingMain.push (tx t).cookie pe').lru.len ≤ pendingMainCapacity :=
    len_push_le (hs.room _ hnext).1 (outstanding_subset env (by simp)) hlive.outstanding h.coherent.2.2
      h.owned.2.2.2 hpaired pe'
  have hc' : c' = m.parkPendingMain (tx t).cookie pe' := by
    simp only [c', EventCollector.handleCookieSideband, Request.cookieSideband, (tx t).txid_ne_zero,
      (tx t).cookie_ne_zero, or_self, if_false, hbuffer, EventCollector.offerCookie, hwaiting,
      EventCollector.demotePendingMain, hpaired, m, pe']
  have hpairing : c'.pairing = { m.pairing with pendingMain := c.pendingMain.push (tx t).cookie pe' } := by
    rw [hc']
    exact EventCollector.pairing_parkPendingMain hroom
  have hintake : c'.intake = c.intake := by
    rw [hc']
    exact m.intake_parkPendingMain _ _
  rw [hintake, hpairing]
  refine h.record (r := .cookie t) hs.toInterleaving env ?_ ?_
  · exact {
      txid := fun k hk => ⟨rfl, rfl, LruMap.lookup_drop_ne _ hk, rfl⟩
      cookie := fun k hk => LruMap.lookup_push_ne _ _ hk
      coherent := ⟨h.coherent.1, h.coherent.2.1.drop _, h.coherent.2.2.push pe' hpaired⟩
      rest := ⟨rfl, rfl, rfl, rfl, rfl⟩ }
  · have hview' : view c.intake { m.pairing with pendingMain := c.pendingMain.push (tx t).cookie pe' }
        (tx t) = { paired := some pe' } :=
      View.ext hbuffer hparked (LruMap.lookup_drop_self _ _) (LruMap.lookup_push_self _ _ _) hout
    rw [Record.owner, hview']
    exact .paired (by simpa using hall) (by simp) hlive.1 hlive.2 hev

/-- **A cookie sideband**, wherever it falls. -/
theorem step_cookie
    (hnext : done ++ [Delivery.record (.cookie t) env] <+: sched) :
    let c' := c.handleCookieSideband env.nowNs env.cookieNs (tx t).cookieSideband
    SyncState tx (done ++ [Delivery.record (.cookie t) env]) c'.intake c'.pairing := by
  have hfirst : (history t done).cookie = false := decide_eq_false (hs.not_mem hnext)
  have hstage := h.stages t
  generalize hview : view c.intake c.pairing (tx t) = v at hstage
  cases hstage with
  | absent hgot _ hside => exact hs.cookie_parked h hnext hgot hside hview
  | collecting hgot hmore hside hseen =>
    rw [Request.knownCookie, hfirst] at hview
    exact hs.cookie_collecting h hgot hmore hside hseen hview
  | waiting hall _ hside henq hev => exact hs.cookie_waiting h hnext hall hside henq hev hview
  | parked _ hcookie => exact nomatch hfirst.symm.trans hcookie
  | paired _ hcookie => exact nomatch hfirst.symm.trans hcookie
  | emitted _ hcookie => exact nomatch hfirst.symm.trans hcookie

/-- **A tracepoint sideband** is merged into the event that waits for it, which is emitted. -/
theorem step_sideband
    (hnext : done ++ [Delivery.record (.sideband t) env] <+: sched) :
    let c' := c.handleSideband env.nowNs (tx t).sideband
    SyncState tx (done ++ [Delivery.record (.sideband t) env]) c'.intake c'.pairing := by
  intro c'
  obtain ⟨hcookie, hchunks⟩ := hs.last done t env hnext
  have hknown : (history t done).cookie = true := decide_eq_true hcookie
  have hall : (tx t).shipment.Complete (history t done).got := fun i hi => mem_got.2 (hchunks i hi)
  have hfirst : (history t done).sideband = false := decide_eq_false (hs.not_mem hnext)
  have hstage := h.stages t
  generalize hview : view c.intake c.pairing (tx t) = v at hstage
  cases hstage with
  | @paired pe _ _ _ _ hev =>
    obtain ⟨hbuffer, hparked, hwaiting, hpaired, hout⟩ := of_view_eq hview
    let ev := pe.event.applySideband (tx t).kernelDebugId (tx t).toPid (tx t).toUid (tx t).toUidUnsupported
    have htxid : ev.transactionId = (tx t).txid := hev.transactionId
    have hpairing : c'.pairing = { c.pairing with
        pendingMain := c.pendingMain.drop (tx t).cookie
        emitted := c.emitted ++ [ev]
        merged := c.merged ++ [(tx t).cookie] } := by
      simp only [c', EventCollector.handleSideband, Request.sideband, hpaired]
      rfl
    have hintake : c'.intake = c.intake := EventCollector.intake_handleSideband _ _ _
    rw [hintake, hpairing]
    refine h.record (r := .sideband t) hs.toInterleaving env ?_ ?_
    · refine {
        txid := fun k hk => ⟨rfl, rfl, rfl, ?_⟩
        cookie := fun k hk => LruMap.lookup_drop_ne _ hk
        coherent := ⟨h.coherent.1, h.coherent.2.1, h.coherent.2.2.drop _⟩
        rest := ⟨rfl, rfl, rfl, rfl, rfl⟩ }
      have hother : ev.transactionId ≠ k := fun heq => hk (heq.symm.trans htxid)
      simp [hother, EventCollector.pairing]
    · have hview' : view c.intake { c.pairing with
          pendingMain := c.pendingMain.drop (tx t).cookie
          emitted := c.emitted ++ [ev]
          merged := c.merged ++ [(tx t).cookie] } (tx t) = { out := [ev] } := by
        refine View.ext hbuffer hparked hwaiting (LruMap.lookup_drop_self _ _) ?_
        simp [view, hout, htxid]
      rw [Record.owner, hview', history_snoc_sideband]
      exact .emitted hall hknown rfl hev
  | absent _ hcookie' => cases hknown.symm.trans hcookie'
  | parked hgot => exact absurd (hgot ▸ hall) (tx t).shipment.not_complete_nil
  | collecting _ hmore => exact absurd hall hmore
  | waiting _ hcookie' => cases hknown.symm.trans hcookie'
  | emitted _ _ hside => cases hfirst.symm.trans hside

end

/-- **Every call of the schedule** succeeds and keeps the state as described. -/
theorem next (hs : SyncSchedule tx sched) (done : List (Delivery ι)) (d : Delivery ι)
    (hnext : done ++ [d] <+: sched) (c : EventCollector) (h : SyncState tx done c.intake c.pairing) :
    ∃ c', step c (d.call tx) = .ok c' ∧ SyncState tx (done ++ [d]) c'.intake c'.pairing := by
  cases d with
  | record r env =>
    cases r with
    | chunk t i => exact hs.step_chunk h hnext
    | cookie t => exact ⟨_, rfl, hs.step_cookie h hnext⟩
    | sideband t => exact ⟨_, rfl, hs.step_sideband h hnext⟩
  | stack receivedNs staleNs st => exact ⟨_, rfl, h.background rfl⟩
  | sweep now mainOrder txidOrder =>
    have h' := h.background (d := .sweep now mainOrder txidOrder) rfl
    have hreading : now ∈ (Delivery.sweep now mainOrder txidOrder : Delivery ι).readings := by
      simp [Delivery.readings]
    obtain ⟨-, -, hwaiting, hpaired⟩ := h'.fresh hs.toInterleaving hnext (mem_readings_snoc done hreading)
    have hsame : (c.runSweep now mainOrder txidOrder).pairing = c.pairing := by
      have hnone : ∀ stale, c.pairing.pendingOneway.sweep stale = c.pairing.pendingOneway ∧
          c.pairing.pendingOneway.swept stale = [] := fun stale => by
        rw [h.noSideband.1]
        exact ⟨rfl, rfl⟩
      have hrecent : ∀ stale, c.pairing.recentOneway.sweep stale = c.pairing.recentOneway := fun stale => by
        rw [h.noSideband.2]
        rfl
      rw [EventCollector.pairing_runSweep mainOrder txidOrder hpaired hwaiting, (hnone _).1, (hnone _).2,
        hrecent]
      rfl
    refine ⟨c.runSweep now mainOrder txidOrder, rfl, ?_⟩
    rw [EventCollector.intake_runSweep, hsame]
    exact h'
  | evictStale stackNs cookieNs =>
    have h' := h.background (d := .evictStale stackNs cookieNs) rfl
    have hreading : cookieNs ∈ (Delivery.evictStale stackNs cookieNs : Delivery ι).readings := by
      simp [Delivery.readings]
    obtain ⟨-, hparked, -⟩ := h'.fresh hs.toInterleaving hnext (mem_readings_snoc done hreading)
    have hsame : (c.evictStalePendingStack stackNs).evictStalePendingCookies cookieNs =
        c.evictStalePendingStack stackNs := EventCollector.evictStalePendingCookies_fresh hparked
    refine ⟨c.evictStalePendingStack stackNs, congrArg Except.ok hsame, h'⟩

end SyncSchedule

/-- The event of a request, with its sideband merged into it. -/
theorem Request.IsEvent.applySideband {q : Request} {ev : MainEvent} (h : q.IsEvent ev)
    (hid : q.kernelDebugId ≠ 0) :
    let ev' := ev.applySideband q.kernelDebugId q.toPid q.toUid q.toUidUnsupported
    ev'.payload.parcelData = q.shipment.parcel ∧ ev'.payload.pairId = q.kernelDebugId ∧
      ev'.payload.toPid = q.toPid ∧ (q.toUidUnsupported = 0 → ev'.payload.toUid = q.toUid) := by
  obtain ⟨ref, nowNs, stackTrace, rfl⟩ := h
  obtain ⟨-, hpair, hpid, huid⟩ := q.unknown
  have hpair' : (q.shipment.event ref nowNs stackTrace).payload.pairId = 0 := hpair
  have hpid' : (q.shipment.event ref nowNs stackTrace).payload.toPid = 0 := hpid
  have huid' : (q.shipment.event ref nowNs stackTrace).payload.toUid = 0 := huid
  refine ⟨rfl, ?_, ?_, fun hsupported => ?_⟩
  · simp [MainEvent.applySideband, Daemon.applySideband, hpair', hid]
  · by_cases h0 : q.toPid = 0 <;> simp [MainEvent.applySideband, Daemon.applySideband, hpid', h0]
  · by_cases h0 : q.toUid = 0 <;>
      simp [MainEvent.applySideband, Daemon.applySideband, huid', h0, hsupported]

/-- **Pairing does not depend on where the cookie falls**: along every such interleaving the daemon
stays alive and counts no failure, and at its end every request has been emitted once, with the pair id
and the receiver from its own sideband, and nothing else has been emitted. -/
theorem sync_requests_paired (tx : ι → Request) (sched : List (Delivery ι)) (hs : SyncSchedule tx sched) :
    (∀ done, done <+: sched → ∃ c, run step newEventCollector (calls tx done) = .ok c ∧
      c.failures.entryEarlyReturn = 0 ∧ c.failures.sidebandOrphan = 0) ∧
    ∃ c, run step newEventCollector (calls tx sched) = .ok c ∧
      (∀ t, ∃ ev, (c.emitted.filter fun ev => ev.transactionId = (tx t).txid) = [ev] ∧
        ev.payload.parcelData = (tx t).shipment.parcel ∧
        ev.payload.pairId = (tx t).kernelDebugId ∧ ev.payload.toPid = (tx t).toPid ∧
        ((tx t).toUidUnsupported = 0 → ev.payload.toUid = (tx t).toUid)) ∧
      ∀ ev ∈ c.emitted, ∃ t, ev.transactionId = (tx t).txid := by
  have hrun := run_calls (P := fun done c => SyncState tx done c.intake c.pairing) (SyncState.initial tx) hs.next
  refine ⟨fun done hdone => ?_, ?_⟩
  · obtain ⟨c, hc, hstate⟩ := hrun done hdone
    exact ⟨c, hc, hstate.noFailure⟩
  obtain ⟨c, hc, hstate⟩ := hrun sched (List.prefix_refl _)
  refine ⟨c, hc, fun t => ?_, fun ev hev => ?_⟩
  · have hdone : (history t sched).sideband = true := decide_eq_true (hs.sideband t)
    have hstage := hstate.stages t
    generalize hview : view c.intake c.pairing (tx t) = v at hstage
    cases hstage with
    | emitted _ _ _ hev =>
      exact ⟨_, (of_view_eq hview).2.2.2.2, hev.applySideband (hs.identified t)⟩
    | absent _ _ hside => exact nomatch hdone.symm.trans hside
    | parked _ _ hside => exact nomatch hdone.symm.trans hside
    | collecting _ _ hside => exact nomatch hdone.symm.trans hside
    | waiting _ _ hside => exact nomatch hdone.symm.trans hside
    | paired _ _ hside => exact nomatch hdone.symm.trans hside
  · by_contra hforeign
    have hnone := (hstate.foreignTxid ev.transactionId fun t heq => hforeign ⟨t, heq.symm⟩).2.2.2
    exact absurd hnone (by simpa using ⟨ev, hev, rfl⟩)

end

/-- Two requests: the cookie of one comes before its chunk, that of the other one after. -/
def sampleSchedule : List (Delivery Bool) :=
  [.record (.cookie false) idleEnv, .record (.chunk true 0) idleEnv, .record (.chunk false 0) idleEnv,
    .record (.cookie true) idleEnv, .record (.sideband false) idleEnv, .record (.sideband true) idleEnv]

theorem sampleSchedule_paired :
    SyncSchedule (sampleRequest 0) sampleSchedule ∧
      ∃ c, run step newEventCollector (calls (sampleRequest 0) sampleSchedule) = .ok c ∧
        ∀ t, ∃ ev, (c.emitted.filter fun ev => ev.transactionId = (sampleRequest 0 t).txid) = [ev] ∧
          ev.payload.pairId = (sampleRequest 0 t).kernelDebugId := by
  have hs : SyncSchedule (sampleRequest 0) sampleSchedule :=
    { txids := fun t t' => by revert t t'; decide +kernel
      cookies := fun t t' => by revert t t'; decide +kernel
      once := by decide +kernel
      chunks := fun t i => by
        have hcount : (sampleRequest 0 t).shipment.count = 1 := by cases t <;> decide +kernel
        rw [hcount, Nat.lt_one_iff]
        cases t <;> simp [sampleSchedule, records, Delivery.record?]
      cookie := by decide +kernel
      sideband := by decide +kernel
      clock := by decide +kernel
      window := by decide +kernel
      sync := by decide +kernel
      identified := by decide +kernel
      last := by
        intro done t env hnext
        obtain ⟨hdone, hget⟩ := next_in_schedule hnext
        rw [hdone]
        generalize done.length = n at hget
        rcases n with _ | _ | _ | _ | _ | _ | n <;> cases hget <;> decide +kernel
      room := fun done hdone => by
        have hlen : (outstanding done).length ≤ 6 := (length_outstanding_le done).trans hdone.length_le
        exact ⟨hlen.trans (by decide), hlen.trans (by decide)⟩ }
  refine ⟨hs, ?_⟩
  obtain ⟨c, hc, hall, -⟩ := (sync_requests_paired _ _ hs).2
  refine ⟨c, hc, fun t => ?_⟩
  obtain ⟨ev, hev, -, hpair, -⟩ := hall t
  exact ⟨ev, hev, hpair⟩

end BinderTracer.Daemon
