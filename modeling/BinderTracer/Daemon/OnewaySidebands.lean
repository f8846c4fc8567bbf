import BinderTracer.Daemon.Pairing
import BinderTracer.Daemon.Schedule

/-!
# Sidebands of oneway requests

The main program writes the chunks of a oneway request with a cookie of 0, so its event is emitted
as soon as the last chunk arrives and without a trace in `recentOneway`. When the request's sideband
arrives it is therefore neither merged nor counted as late, but kept in `pendingOneway` like a
sideband whose event is still to come, and the sweeper counts it as an orphan a second later.
`OnewayState` describes the collector along every schedule of such requests.
-/

namespace BinderTracer.Daemon

open BinderTracer.Kernel BinderTracer.Lib

/-! ### One request -/

/-- What the collector holds about a oneway request with the history `h`: its buffer, and the events
emitted for it. -/
inductive OnewayStage (q : Request) (h : History) : Option TxBuffer → List MainEvent → Prop where
  | absent : h.got = [] → h.cookie = false → h.sideband = false → OnewayStage q h none []
  | collecting {firstSeenNs : Int} : h.got ≠ [] → ¬ q.shipment.Complete h.got → h.cookie = false →
      h.Live firstSeenNs → OnewayStage q h (some (q.shipment.buffer h.got firstSeenNs 0)) []
  | emitted {ev : MainEvent} : q.shipment.Complete h.got → q.IsEvent ev → OnewayStage q h none [ev]

namespace OnewayStage

variable {q : Request} {h : History} {buffer : Option TxBuffer} {out : List MainEvent}

/-- A buffer is open while the request is outstanding. -/
theorem live (hv : OnewayStage q h buffer out) {buf : TxBuffer} (hbuf : buffer = some buf) :
    h.Live buf.firstSeenNs := by
  cases hv with
  | absent => cases hbuf
  | collecting _ _ _ hlive => cases hbuf; exact hlive
  | emitted => cases hbuf

/-- Once all chunks have arrived the event has been emitted. -/
theorem of_complete (hv : OnewayStage q h buffer out) (hall : q.shipment.Complete h.got) :
    buffer = none ∧ ∃ ev, q.IsEvent ev ∧ out = [ev] := by
  cases hv with
  | absent hgot => exact absurd (hgot ▸ hall) q.shipment.not_complete_nil
  | collecting _ hmore => exact absurd hall hmore
  | emitted _ hev => exact ⟨rfl, _, hev, rfl⟩

/-- Until then nothing but chunks has arrived, and nothing was emitted. -/
theorem of_more (hv : OnewayStage q h buffer out) (hmore : ¬ q.shipment.Complete h.got) :
    h.cookie = false ∧ h.sideband = false ∧ out = [] := by
  cases hv with
  | absent _ hcookie hside => exact ⟨hcookie, hside, rfl⟩
  | collecting _ _ hcookie hlive => exact ⟨hcookie, hlive.1, rfl⟩
  | emitted hall => exact absurd hall hmore

/-- The first chunk opens a buffer without a cookie, and a later one finds it. -/
theorem openBuffer {c : EventCollector} (hv : OnewayStage q h (c.transactionBuffers.lookup q.txid) out)
    (hmore : ¬ q.shipment.Complete h.got) (hparked : c.pendingCookieByTxid.lookup q.txid = none)
    (i : Nat) (env : EventEnv) :
    ∃ firstSeenNs, (firstSeenNs = env.nowNs ∨ firstSeenNs ∈ h.times) ∧
      c.openBuffer env (q.shipment.record i) = .ok (c, q.shipment.buffer h.got firstSeenNs 0) := by
  generalize hbuffer : c.transactionBuffers.lookup q.txid = buffer at hv
  cases hv with
  | absent hgot =>
    have hopen := EventCollector.openBuffer_none i env hbuffer q.unknown.1
    rw [LruMap.drop_of_lookup_none hparked, show c.pendingCookieByTxid.lookup q.shipment.txid = none
      from hparked] at hopen
    exact ⟨env.nowNs, .inl rfl, hgot ▸ hopen⟩
  | collecting _ _ _ hlive =>
    exact ⟨_, .inr hlive.2, EventCollector.openBuffer_some env hbuffer⟩
  | emitted hall => exact absurd hall hmore

end OnewayStage

/-! ### All requests -/

section
variable {ι : Type}

/-- The times at which sidebands were delivered. -/
def sidebandTimes (done : List (Delivery ι)) : List Int :=
  done.filterMap fun
    | .record (.sideband _) env => some env.nowNs
    | _ => none

/-- There is a time for each sideband, and for nothing else. -/
theorem sidebandTimes_eq_nil {done : List (Delivery ι)} :
    sidebandTimes done = [] ↔ ∀ t, .sideband t ∉ records done := by
  rw [sidebandTimes, List.filterMap_eq_nil_iff]
  constructor
  · intro h t hmem
    obtain ⟨d, hd, hrec⟩ := List.mem_filterMap.1 hmem
    cases d with
    | record r env =>
      cases hrec
      cases h _ hd
    | _ => cases hrec
  · intro h d hd
    cases d with
    | record r env =>
      cases r with
      | sideband t =>
        have hmem : .sideband t ∈ records done := List.mem_filterMap.2 ⟨_, hd, rfl⟩
        exact absurd hmem (h t)
      | _ => rfl
    | _ => rfl

/-- No sweep comes more than a second after a sideband that was delivered before it, and the map of
sidebands holds them all. -/
structure Timely (done : List (Delivery ι)) : Prop where
  sweeps : ∀ pre now mainOrder txidOrder, pre ++ [Delivery.sweep now mainOrder txidOrder] <+: done →
    ∀ a ∈ sidebandTimes pre, now ≤ a + pendingOnewayTTL
  room : (sidebandTimes done).length ≤ pendingOnewayCapacity

theorem Timely.nil : Timely ([] : List (Delivery ι)) where
  sweeps pre now mainOrder txidOrder hpre := by simpa using List.prefix_nil.1 hpre
  room := Nat.zero_le _

theorem Timely.mono {done sched : List (Delivery ι)} (h : Timely sched) (hdone : done <+: sched) :
    Timely done where
  sweeps pre now mainOrder txidOrder hpre := h.sweeps pre now mainOrder txidOrder (hpre.trans hdone)
  room := (hdone.filterMap _).length_le.trans h.room

/-- A delivery that is neither a sideband nor a sweep does not matter. -/
theorem timely_snoc_other {done : List (Delivery ι)} {d : Delivery ι} (hside : sidebandTimes [d] = [])
    (hsweep : ∀ now mainOrder txidOrder, d ≠ .sweep now mainOrder txidOrder) :
    Timely (done ++ [d]) ↔ Timely done := by
  have htimes : sidebandTimes (done ++ [d]) = sidebandTimes done := by
    rw [sidebandTimes, List.filterMap_append, ← sidebandTimes, ← sidebandTimes, hside, List.append_nil]
  constructor
  · intro h
    exact ⟨fun pre now o o' hpre => h.sweeps pre now o o' (hpre.trans (List.prefix_append _ _)),
      htimes ▸ h.room⟩
  · intro h
    refine ⟨fun pre now o o' hpre => ?_, htimes.symm ▸ h.room⟩
    rcases List.prefix_concat_iff.1 hpre with heq | hpre'
    · exact absurd (List.append_inj' heq rfl).2 (by simpa using (hsweep now o o').symm)
    · exact h.sweeps pre now o o' hpre'

/-- The entry that keeps the sideband of a request. -/
def Request.sidebandEntry (q : Request) (nowNs : Int) : PendingOnewayEntry :=
  { enqueuedNs := nowNs, kernelDebugId := q.kernelDebugId, toPid := q.toPid, toUid := q.toUid,
    toUidUnsupported := q.toUidUnsupported }

theorem timely_snoc_sideband (done : List (Delivery ι)) (t : ι) (env : EventEnv) :
    Timely (done ++ [Delivery.record (.sideband t) env]) ↔
      Timely done ∧ (sidebandTimes done).length + 1 ≤ pendingOnewayCapacity := by
  have htimes : sidebandTimes (done ++ [Delivery.record (.sideband t) env]) =
      sidebandTimes done ++ [env.nowNs] := by
    simp [sidebandTimes]
  constructor
  · intro h
    have hroom := h.room
    rw [htimes, List.length_append, List.length_singleton] at hroom
    refine ⟨⟨fun pre now o o' hpre => ?_, by omega⟩, hroom⟩
    exact h.sweeps pre now o o' (hpre.trans (List.prefix_append _ _))
  · rintro ⟨h, hroom⟩
    refine ⟨fun pre now o o' hpre => ?_, by rw [htimes, List.length_append]; exact hroom⟩
    rcases List.prefix_concat_iff.1 hpre with heq | hpre'
    · cases (List.cons.inj (List.append_inj' heq rfl).2).1
    · exact h.sweeps pre now o o' hpre'

theorem timely_snoc_sweep (done : List (Delivery ι)) (now : Int) (mainOrder txidOrder : RangeOrder MainEvent) :
    Timely (done ++ [Delivery.sweep now mainOrder txidOrder]) ↔
      Timely done ∧ ∀ a ∈ sidebandTimes done, now ≤ a + pendingOnewayTTL := by
  have htimes : sidebandTimes (done ++ [Delivery.sweep now mainOrder txidOrder]) = sidebandTimes done := by
    simp [sidebandTimes]
  constructor
  · intro h
    refine ⟨⟨fun pre now o o' hpre => ?_, htimes ▸ h.room⟩, ?_⟩
    · exact h.sweeps pre now o o' (hpre.trans (List.prefix_append _ _))
    · exact h.sweeps done now mainOrder txidOrder (List.prefix_refl _)
  · rintro ⟨h, hfresh⟩
    refine ⟨fun pre now' o o' hpre => ?_, htimes.symm ▸ h.room⟩
    rcases List.prefix_concat_iff.1 hpre with heq | hpre'
    · obtain ⟨rfl, hlast⟩ := List.append_inj' heq rfl
      cases (List.cons.inj hlast).1
      exact hfresh
    · exact h.sweeps pre now' o o' hpre'

variable [DecidableEq ι]

/-- What has become of the events, after the part `done` of a schedule. -/
structure OnewayEvents (tx : ι → Request) (done : List (Delivery ι)) (i : Intake)
    (emitted : List MainEvent) : Prop where
  stages : ∀ t, OnewayStage (tx t) (history t done) (i.transactionBuffers.lookup (tx t).txid)
    (emitted.filter fun ev => ev.transactionId = (tx t).txid)
  /-- A cookie is kept only after it has arrived. -/
  parked : ∀ t, i.pendingCookieByTxid.lookup (tx t).txid ≠ none → (history t done).cookie = true

/-- What has become of the sidebands: each one is kept in `pendingOneway` or has been counted as an
orphan. -/
structure OnewayPending (tx : ι → Request) (done : List (Delivery ι)) (p : Pairing) : Prop where
  idle : p.pendingMain = {} ∧ p.pendingMainByTxid = {} ∧ p.recentOneway = {}
  unmerged : p.merged = [] ∧ p.onewaySidebandLate = 0
  coherent : p.pendingOneway.Coherent
  keys : ∀ t, p.pendingOneway.lookup (tx t).cookie ≠ none → (history t done).sideband = true
  accounted : ∃ lost, (sidebandTimes done).Perm
      (lost ++ p.pendingOneway.values.map PendingOnewayEntry.enqueuedNs) ∧
    p.sidebandOrphan = lost.length
  timely : p.sidebandOrphan = 0 ↔ Timely done

/-- An interleaving of oneway requests in ring order: the chunks of a request, then its cookie, then
its sideband. -/
structure OnewaySchedule (tx : ι → Request) (sched : List (Delivery ι)) : Prop
    extends Interleaving tx sched second where
  oneway : ∀ t, (tx t).oneway
  cookieAfter : ∀ done t env, done ++ [Delivery.record (.cookie t) env] <+: sched →
    ∀ i < (tx t).shipment.count, .chunk t i ∈ records done
  sidebandAfter : ∀ done t env, done ++ [Delivery.record (.sideband t) env] <+: sched → .cookie t ∈ records done

variable {tx : ι → Request} {sched done : List (Delivery ι)} {c : EventCollector} {t : ι} {env : EventEnv}

namespace OnewayEvents

variable {i i' : Intake} {emitted emitted' : List MainEvent}

/-- A record of one request moves that request on and leaves the others. -/
theorem record (h : OnewayEvents tx done i emitted) (htxids : Function.Injective fun t => (tx t).txid)
    {r : Record ι} (env : EventEnv)
    (hbuffers : ∀ k, k ≠ (tx r.owner).txid → i'.transactionBuffers.lookup k = i.transactionBuffers.lookup k)
    (hemitted : ∀ k, k ≠ (tx r.owner).txid → (emitted'.filter fun ev => ev.transactionId = k) =
      emitted.filter fun ev => ev.transactionId = k)
    (hparked : ∀ k, k ≠ (tx r.owner).txid → i'.pendingCookieByTxid.lookup k ≠ none →
      i.pendingCookieByTxid.lookup k ≠ none)
    (hstage : OnewayStage (tx r.owner) (history r.owner (done ++ [Delivery.record r env]))
      (i'.transactionBuffers.lookup (tx r.owner).txid)
      (emitted'.filter fun ev => ev.transactionId = (tx r.owner).txid))
    (hcookie : i'.pendingCookieByTxid.lookup (tx r.owner).txid ≠ none →
      (history r.owner (done ++ [Delivery.record r env])).cookie = true) :
    OnewayEvents tx (done ++ [Delivery.record r env]) i' emitted' where
  stages t := by
    by_cases ht : r.owner = t
    · exact ht ▸ hstage
    · have hne : (tx t).txid ≠ (tx r.owner).txid := fun heq => ht (htxids heq).symm
      rw [history_snoc_of_ne (d := .record r env) (fun heq => ht (Option.some.inj heq)) done,
        hbuffers _ hne, hemitted _ hne]
      exact h.stages t
  parked t hkept := by
    by_cases ht : r.owner = t
    · exact ht ▸ hcookie (ht ▸ hkept)
    · have hne : (tx t).txid ≠ (tx r.owner).txid := fun heq => ht (htxids heq).symm
      exact history_cookie_snoc _ (h.parked t (hparked _ hne hkept))

/-- Other calls may only forget cookies. -/
theorem background (h : OnewayEvents tx done i emitted) {d : Delivery ι} (hd : d.record? = none)
    (hbuffers : i'.transactionBuffers = i.transactionBuffers)
    (hparked : ∀ k, i'.pendingCookieByTxid.lookup k ≠ none → i.pendingCookieByTxid.lookup k ≠ none) :
    OnewayEvents tx (done ++ [d]) i' emitted where
  stages t := by
    rw [history_snoc_of_ne (by simp [hd]) done, hbuffers]
    exact h.stages t
  parked t hkept := history_cookie_snoc d (h.parked t (hparked _ hkept))

/-- Cleaning up after a chunk record keeps the open buffers. -/
theorem maybeCleanup {r : Record ι}
    (h : OnewayEvents tx (done ++ [Delivery.record r env]) c.intake c.emitted) (hs : OnewaySchedule tx sched)
    (hnext : done ++ [Delivery.record r env] <+: sched) :
    OnewayEvents tx (done ++ [Delivery.record r env]) (c.maybeCleanup env).intake c.emitted where
  stages t := by
    have hreading : env.nowNs ∈ (Delivery.record r env).readings := by simp [Delivery.readings]
    have hkept : (c.maybeCleanup env).transactionBuffers.lookup (tx t).txid =
        c.transactionBuffers.lookup (tx t).txid := by
      apply EventCollector.lookup_maybeCleanup
      intro buf hbuf
      have hle := hs.fresh hnext ((h.stages t).live hbuf) (mem_readings_snoc done hreading)
      have : second ≤ staleBufferTTL := by decide
      omega
    have hstage := h.stages t
    rw [show c.intake.transactionBuffers = c.transactionBuffers from rfl, ← hkept] at hstage
    exact hstage
  parked t hkept := h.parked t (EventCollector.parked_of_maybeCleanup hkept)

end OnewayEvents

/-- A delivery that is neither a sideband nor a sweep leaves the sidebands alone. -/
theorem OnewayPending.other {p : Pairing} (h : OnewayPending tx done p) {d : Delivery ι}
    (hside : sidebandTimes [d] = []) (hsweep : ∀ now mainOrder txidOrder, d ≠ .sweep now mainOrder txidOrder)
    (emitted : List MainEvent) : OnewayPending tx (done ++ [d]) { p with emitted } :=
  { idle := h.idle
    unmerged := h.unmerged
    coherent := h.coherent
    keys := fun t hkept => history_sideband_snoc d (h.keys t hkept)
    accounted := by
      rw [sidebandTimes, List.filterMap_append, ← sidebandTimes, ← sidebandTimes, hside, List.append_nil]
      exact h.accounted
    timely := h.timely.trans (timely_snoc_other hside hsweep).symm }

namespace OnewaySchedule

/-- A chunk that is not the last one goes to the buffer. -/
theorem chunk_more (hs : OnewaySchedule tx sched) (h : OnewayEvents tx done c.intake c.emitted) {i : Nat}
    {firstSeenNs : Int} (hfirst : firstSeenNs = env.nowNs ∨ firstSeenNs ∈ (history t done).times)
    (hcookie : (history t done).cookie = false) (hside : (history t done).sideband = false)
    (hout : (c.emitted.filter fun ev => ev.transactionId = (tx t).txid) = [])
    (hmore : ¬ (tx t).shipment.Complete ((history t done).got ++ [i])) :
    OnewayEvents tx (done ++ [Delivery.record (.chunk t i) env])
      (c.putBuffer (tx t).txid ((tx t).shipment.buffer ((history t done).got ++ [i]) firstSeenNs 0)).intake
      c.emitted := by
  refine h.record (r := .chunk t i) hs.txids env (fun k hk => AList.lookup_insert_ne hk) (fun _ _ => rfl)
    (fun _ _ hkept => hkept) ?_ (fun hkept => history_cookie_snoc _ (h.parked t hkept))
  have hbuffer : (c.putBuffer (tx t).txid ((tx t).shipment.buffer ((history t done).got ++ [i])
      firstSeenNs 0)).intake.transactionBuffers.lookup (tx t).txid = some ((tx t).shipment.buffer
        ((history t done).got ++ [i]) firstSeenNs 0) := AList.lookup_insert _
  rw [Record.owner, hbuffer, hout, history_snoc_chunk]
  refine .collecting (by simp) hmore hcookie ⟨hside, ?_⟩
  rcases hfirst with rfl | hmem
  · simp
  · exact List.mem_append_left _ hmem

/-- The last chunk has the event emitted at once. -/
theorem chunk_last (hs : OnewaySchedule tx sched) (h : OnewayEvents tx done c.intake c.emitted) {i : Nat}
    (env : EventEnv) (hout : (c.emitted.filter fun ev => ev.transactionId = (tx t).txid) = [])
    (hall : (tx t).shipment.Complete ((history t done).got ++ [i])) (buf : TxBuffer) :
    ∃ m : EventCollector, (c.putBuffer (tx t).txid buf).routeShipment env (tx t).shipment 0 = m ∧
      OnewayEvents tx (done ++ [Delivery.record (.chunk t i) env]) m.intake m.emitted ∧
      m.pairing = { c.pairing with emitted := m.emitted } := by
  obtain ⟨m, stackTrace, hpairing, hintake, heq⟩ :=
    (c.putBuffer (tx t).txid buf).routeShipment_eq env (tx t).shipment 0
  let ev := (tx t).shipment.event c.routed.length env.nowNs stackTrace
  have hev : (tx t).IsEvent ev := ⟨_, _, _, rfl⟩
  have hdispatch : m.dispatchMainEvent ev 0 (tx t).txid env.nowNs = m.emit ev := by
    simp [EventCollector.dispatchMainEvent, hev.isReply, hev.isOneway.2 (hs.oneway t)]
  have hpairing' : (m.emit ev).pairing = { c.pairing with emitted := c.emitted ++ [ev] } :=
    congrArg (fun p => { p with emitted := p.emitted ++ [ev] }) hpairing
  have hemitted : (m.emit ev).emitted = c.emitted ++ [ev] := congrArg Pairing.emitted hpairing'
  have hbuffers : m.transactionBuffers = (c.transactionBuffers.insert (tx t).txid buf).erase (tx t).txid :=
    congrArg Intake.transactionBuffers hintake
  have hcookies : m.pendingCookieByTxid = c.pendingCookieByTxid :=
    congrArg Intake.pendingCookieByTxid hintake
  have hcookies : (m.emit ev).intake.pendingCookieByTxid = c.intake.pendingCookieByTxid := hcookies
  refine ⟨m.emit ev, heq.trans hdispatch, ?_, ?_⟩
  · rw [hemitted]
    refine h.record (r := .chunk t i) hs.txids env ?_ ?_ ?_ ?_ ?_
    · intro k hk
      have hk : k ≠ (tx t).txid := hk
      change m.transactionBuffers.lookup k = _
      rw [hbuffers, AList.lookup_erase_ne hk, AList.lookup_insert_ne hk]
      rfl
    · intro k hk
      have hother : ev.transactionId ≠ k := fun heq => hk heq.symm
      simp [hother]
    · intro k _ hkept
      exact hcookies ▸ hkept
    · have hclosed : (m.emit ev).intake.transactionBuffers.lookup (tx t).txid = none := by
        change m.transactionBuffers.lookup (tx t).txid = _
        rw [hbuffers, AList.lookup_erase]
      have hone : ((c.emitted ++ [ev]).filter fun ev => ev.transactionId = (tx t).txid) = [ev] := by
        rw [List.filter_append, hout, List.nil_append]
        exact List.filter_cons_of_pos (by simp [hev.transactionId])
      rw [Record.owner, hclosed, hone, history_snoc_chunk]
      exact .emitted hall hev
    · intro hkept
      exact history_cookie_snoc _ (h.parked t (hcookies ▸ hkept))
  · rw [hemitted]
    exact hpairing'

/-- **A chunk record.** -/
theorem step_chunk (hs : OnewaySchedule tx sched) (h : OnewayEvents tx done c.intake c.emitted)
    (hp : OnewayPending tx done c.pairing) {i : Nat}
    (hnext : done ++ [Delivery.record (.chunk t i) env] <+: sched) :
    ∃ c', c.handleEvent env ((tx t).shipment.record i) = .ok c' ∧
      OnewayEvents tx (done ++ [Delivery.record (.chunk t i) env]) c'.intake c'.emitted ∧
      OnewayPending tx (done ++ [Delivery.record (.chunk t i) env]) c'.pairing := by
  suffices hm : ∃ m : EventCollector,
      c.handleEvent env ((tx t).shipment.record i) = .ok (m.maybeCleanup env) ∧
      OnewayEvents tx (done ++ [Delivery.record (.chunk t i) env]) m.intake m.emitted ∧
      m.pairing = { c.pairing with emitted := m.emitted } by
    obtain ⟨m, hm, hevents, hpairing⟩ := hm
    have hsame := (m.sameMachine_maybeCleanup env).pairing
    have hemitted : (m.maybeCleanup env).emitted = m.emitted := congrArg Pairing.emitted hsame
    refine ⟨_, hm, ?_, ?_⟩
    · rw [hemitted]
      exact hevents.maybeCleanup hs hnext
    · rw [hsame, hpairing]
      exact hp.other rfl (by simp) _
  obtain ⟨hi, hmore⟩ := hs.chunk_due hnext
  obtain ⟨hcookie, hside, hout⟩ := (h.stages t).of_more hmore
  have hparked : c.pendingCookieByTxid.lookup (tx t).txid = none := by
    by_contra hkept
    exact nomatch hcookie.symm.trans (h.parked t hkept)
  obtain ⟨firstSeenNs, hfirst, hopen⟩ := (h.stages t).openBuffer hmore hparked i env
  have hmem : ∀ j, j ∈ i :: (history t done).got ↔ j ∈ (history t done).got ++ [i] :=
    fun j => by simp [or_comm]
  have hhandle := EventCollector.handleEvent_record hi hopen
  simp only [Shipment.complete_congr _ hmem, Shipment.buffer_congr _ hmem] at hhandle
  by_cases hall : (tx t).shipment.Complete ((history t done).got ++ [i])
  · obtain ⟨m, heq, hm⟩ := hs.chunk_last h env hout hall
      ((tx t).shipment.buffer ((history t done).got ++ [i]) firstSeenNs 0)
    rw [if_pos hall, heq] at hhandle
    exact ⟨m, hhandle, hm⟩
  · rw [if_neg hall] at hhandle
    exact ⟨_, hhandle, hs.chunk_more h hfirst hcookie hside hout hall, rfl⟩

/-- Keeping a cookie keeps no other cookie that was not there. -/
theorem parked_of_parkPendingCookie {transactionId cookie k : UInt64} {receivedNs staleNs : Int}
    (hk : k ≠ transactionId)
    (h : (c.parkPendingCookie transactionId cookie receivedNs staleNs).pendingCookieByTxid.lookup k ≠ none) :
    c.pendingCookieByTxid.lookup k ≠ none := by
  obtain ⟨pe, hpe⟩ := Option.ne_none_iff_exists'.1 h
  change (LruMap.sweep _ _).lookup k = some pe at hpe
  rw [LruMap.lookup_sweep, Option.filter_eq_some_iff] at hpe
  have hstored := LruMap.lookup_of_evict hpe.1
  split at hstored
  · rw [LruMap.lookup_touch, if_neg hk] at hstored
    simp [hstored]
  · rw [LruMap.lookup_push_ne _ _ hk] at hstored
    simp [hstored]

/-- **A cookie sideband** comes too late for its event and is kept for nothing. -/
theorem step_cookie (hs : OnewaySchedule tx sched) (h : OnewayEvents tx done c.intake c.emitted)
    (hp : OnewayPending tx done c.pairing) (hnext : done ++ [Delivery.record (.cookie t) env] <+: sched) :
    let c' := c.handleCookieSideband env.nowNs env.cookieNs (tx t).cookieSideband
    OnewayEvents tx (done ++ [Delivery.record (.cookie t) env]) c'.intake c'.emitted ∧
      OnewayPending tx (done ++ [Delivery.record (.cookie t) env]) c'.pairing := by
  intro c'
  have hall : (tx t).shipment.Complete (history t done).got :=
    fun i hi => mem_got.2 (hs.cookieAfter done t env hnext i hi)
  obtain ⟨hbuffer, ev, hev, hout⟩ := (h.stages t).of_complete hall
  have hwaiting : c.pendingMainByTxid.lookup (tx t).txid = none := by
    rw [show c.pendingMainByTxid = {} from hp.idle.2.1]
    rfl
  have hc' : c' = c.parkPendingCookie (tx t).txid (tx t).cookie env.nowNs env.cookieNs := by
    have hbuffer' : c.transactionBuffers.lookup (tx t).txid = none := hbuffer
    simp only [c', EventCollector.handleCookieSideband, Request.cookieSideband, (tx t).txid_ne_zero,
      (tx t).cookie_ne_zero, or_self, if_false, hbuffer', EventCollector.offerCookie, hwaiting]
  rw [hc']
  refine ⟨?_, hp.other rfl (by simp) c.emitted⟩
  refine h.record (r := .cookie t) hs.txids env (fun _ _ => rfl) (fun _ _ => rfl)
    (fun k hk => parked_of_parkPendingCookie hk) ?_ (fun _ => by simp [Record.owner])
  change OnewayStage _ _ (c.intake.transactionBuffers.lookup (tx t).txid)
    (c.emitted.filter fun ev => ev.transactionId = (tx t).txid)
  rw [hbuffer, hout, Record.owner, history_snoc_cookie]
  exact .emitted hall hev

end OnewaySchedule

namespace OnewayPending

variable {p : Pairing}

/-- While no orphan has been counted, all sidebands delivered are kept. -/
theorem kept (h : OnewayPending tx done p) (hzero : p.sidebandOrphan = 0) :
    (sidebandTimes done).Perm (p.pendingOneway.values.map PendingOnewayEntry.enqueuedNs) := by
  obtain ⟨lost, hperm, hcount⟩ := h.accounted
  obtain rfl : lost = [] := List.length_eq_zero_iff.1 (hcount ▸ hzero)
  exact hperm

/-- Values given up are counted. -/
theorem give_up {times lost : List Int} {values gone rest : List PendingOnewayEntry} {orphans : Nat}
    (hperm : times.Perm (lost ++ values.map PendingOnewayEntry.enqueuedNs)) (hcount : orphans = lost.length)
    (hgone : values.Perm (gone ++ rest)) :
    ∃ lost', times.Perm (lost' ++ rest.map PendingOnewayEntry.enqueuedNs) ∧
      orphans + gone.length = lost'.length := by
  refine ⟨lost ++ gone.map PendingOnewayEntry.enqueuedNs, ?_, by simp [hcount]⟩
  have hmap := (hgone.map PendingOnewayEntry.enqueuedNs).append_left lost
  rw [List.map_append, ← List.append_assoc] at hmap
  exact hperm.trans hmap

/-- A sideband finds no event, and is kept. -/
theorem pairing_handleSideband (h : OnewayPending tx done c.pairing)
    (hfirst : (history t done).sideband = false) (nowNs : Int) :
    c.pairing.pendingOneway.lookup (tx t).cookie = none ∧
    let m := c.pairing.pendingOneway.push (tx t).cookie ((tx t).sidebandEntry nowNs)
    (c.handleSideband nowNs (tx t).sideband).pairing = { c.pairing with
      pendingOneway := (m.evict pendingOnewayCapacity).1
      sidebandOrphan := c.pairing.sidebandOrphan + (m.evict pendingOnewayCapacity).2.length } := by
  have hmain : c.pendingMain.lookup (tx t).cookie = none := by
    rw [show c.pendingMain = {} from h.idle.1, LruMap.lookup_empty]
  have hrecent : c.recentOneway.lookup (tx t).cookie = none := by
    rw [show c.recentOneway = {} from h.idle.2.2, LruMap.lookup_empty]
  have hfree : c.pendingOneway.lookup (tx t).cookie = none := by
    by_contra hkept
    exact nomatch hfirst.symm.trans (h.keys t hkept)
  refine ⟨hfree, ?_⟩
  simp only [EventCollector.handleSideband, Request.sideband, hmain, hfree, hrecent]
  rfl

/-- **A sideband** is kept, and the one kept longest is given up if they are too many. -/
theorem sideband (h : OnewayPending tx done c.pairing) (hcookies : Function.Injective fun t => (tx t).cookie)
    (hfirst : (history t done).sideband = false) (env : EventEnv) :
    OnewayPending tx (done ++ [Delivery.record (.sideband t) env])
      (c.handleSideband env.nowNs (tx t).sideband).pairing := by
  let pe := (tx t).sidebandEntry env.nowNs
  let m := c.pairing.pendingOneway.push (tx t).cookie pe
  obtain ⟨hfree, hpairing⟩ := h.pairing_handleSideband hfirst env.nowNs
  have hcoherent : m.Coherent := h.coherent.push pe hfree
  have htimes : (sidebandTimes (done ++ [Delivery.record (.sideband t) env])).Perm
      (env.nowNs :: sidebandTimes done) := by
    simp only [sidebandTimes, List.filterMap_append]
    exact List.perm_append_singleton _ _
  have hvalues : m.values = pe :: c.pairing.pendingOneway.values := LruMap.values_push_fresh pe hfree
  rw [hpairing]
  refine ⟨h.idle, h.unmerged, hcoherent.evict _, ?_, ?_, ?_⟩
  · intro t' hkept
    obtain ⟨v, hv⟩ := Option.ne_none_iff_exists'.1 hkept
    have hm : m.lookup (tx t').cookie = some v := LruMap.lookup_of_evict hv
    rw [LruMap.lookup_push] at hm
    split at hm
    · next heq =>
      obtain rfl := hcookies heq
      simp
    · exact history_sideband_snoc _ (h.keys t' (by simp [hm]))
  · obtain ⟨lost, hperm, hcount⟩ := h.accounted
    have hpushed : (sidebandTimes (done ++ [Delivery.record (.sideband t) env])).Perm
        (lost ++ m.values.map PendingOnewayEntry.enqueuedNs) := by
      rw [hvalues]
      exact htimes.trans ((hperm.cons _).trans List.perm_middle.symm)
    exact give_up hpushed hcount (LruMap.values_evict _ m)
  · -- while nothing is lost the list is as long as the sidebands are many
    have hlen : c.pairing.sidebandOrphan = 0 → m.lru.len = (sidebandTimes done).length + 1 := by
      intro hzero
      rw [hcoherent.len_eq_size, ← LruMap.length_values, hvalues, List.length_cons,
        (h.kept hzero).length_eq, List.length_map]
    rw [timely_snoc_sideband, ← h.timely, Nat.add_eq_zero_iff, List.length_eq_zero_iff]
    refine and_congr_right fun hzero => ?_
    rw [← hlen hzero]
    constructor
    · intro hnone
      by_contra hfull
      exact hcoherent.evict_ne_nil (Nat.lt_of_not_le hfull) hnone
    · intro hroom
      rw [LruMap.evict_of_len_le hroom]

/-- The sidebands that have been kept for too long. -/
def stale (now : Int) (pe : PendingOnewayEntry) : Bool := pe.enqueuedNs < now - pendingOnewayTTL

/-- A sweep gives up nothing but sidebands. -/
theorem pairing_runSweep (h : OnewayPending tx done c.pairing) (now : Int)
    (mainOrder txidOrder : RangeOrder MainEvent) :
    (c.runSweep now mainOrder txidOrder).pairing = { c.pairing with
      pendingOneway := c.pairing.pendingOneway.sweep (stale now)
      sidebandOrphan := c.pairing.sidebandOrphan + (c.pairing.pendingOneway.swept (stale now)).length } := by
  have empty : ∀ m : LruMap UInt64 PendingMainEntry, m = {} →
      ∀ k pe, m.lookup k = some pe → now ≤ pe.enqueuedNs + pendingMainTTL := by
    rintro m rfl k pe hpe
    cases hpe
  have hrecent : c.pairing.recentOneway.sweep (fun re => re.enqueuedNs < now - recentOnewayEmitTTL) =
      c.pairing.recentOneway := by
    rw [h.idle.2.2]
    rfl
  rw [EventCollector.pairing_runSweep mainOrder txidOrder (empty _ h.idle.1) (empty _ h.idle.2.1), hrecent]
  rfl

/-- **A sweep** gives up the sidebands that were kept for more than a second. -/
theorem sweep (h : OnewayPending tx done c.pairing) (now : Int) (mainOrder txidOrder : RangeOrder MainEvent) :
    OnewayPending tx (done ++ [Delivery.sweep now mainOrder txidOrder])
      (c.runSweep now mainOrder txidOrder).pairing := by
  have htimes : sidebandTimes (done ++ [Delivery.sweep now mainOrder txidOrder]) = sidebandTimes done := by
    simp [sidebandTimes]
  rw [h.pairing_runSweep]
  refine ⟨h.idle, h.unmerged, h.coherent.sweep _, ?_, ?_, ?_⟩
  · intro t hkept
    refine history_sideband_snoc _ (h.keys t fun hnone => hkept ?_)
    rw [LruMap.lookup_sweep, hnone]
    rfl
  · obtain ⟨lost, hperm, hcount⟩ := h.accounted
    rw [htimes]
    exact give_up hperm hcount (LruMap.values_sweep (stale now) _)
  · rw [timely_snoc_sweep, ← h.timely, Nat.add_eq_zero_iff, List.length_eq_zero_iff]
    refine and_congr_right fun hzero => ?_
    have hkept := h.kept hzero
    rw [LruMap.swept, List.filter_eq_nil_iff]
    constructor
    · intro hfresh a ha
      obtain ⟨pe, hpe, rfl⟩ := List.mem_map.1 (hkept.subset ha)
      have hlt : ¬ pe.enqueuedNs < now - pendingOnewayTTL := by simpa [stale] using hfresh pe hpe
      omega
    · intro hfresh pe hpe
      have hle := hfresh pe.enqueuedNs (hkept.symm.subset (List.mem_map_of_mem hpe))
      have hlt : ¬ pe.enqueuedNs < now - pendingOnewayTTL := by omega
      simpa [stale] using hlt

end OnewayPending

namespace OnewaySchedule

/-- **Every call of the schedule** succeeds and keeps the state as described. -/
theorem next (hs : OnewaySchedule tx sched) (done : List (Delivery ι)) (d : Delivery ι)
    (hnext : done ++ [d] <+: sched) (c : EventCollector)
    (h : OnewayEvents tx done c.intake c.emitted ∧ OnewayPending tx done c.pairing) :
    ∃ c', step c (d.call tx) = .ok c' ∧
      OnewayEvents tx (done ++ [d]) c'.intake c'.emitted ∧ OnewayPending tx (done ++ [d]) c'.pairing := by
  obtain ⟨he, hp⟩ := h
  cases d with
  | record r env =>
    cases r with
    | chunk t i => exact hs.step_chunk he hp hnext
    | cookie t => exact ⟨_, rfl, hs.step_cookie he hp hnext⟩
    | sideband t =>
      have hfirst : (history t done).sideband = false := decide_eq_false (hs.not_mem hnext)
      have hcookie : (history t done).cookie = true := decide_eq_true (hs.sidebandAfter done t env hnext)
      have hall : (tx t).shipment.Complete (history t done).got := by
        by_contra hmore
        exact nomatch ((he.stages t).of_more hmore).1.symm.trans hcookie
      obtain ⟨hbuffer, ev, hev, hout⟩ := (he.stages t).of_complete hall
      have hemitted : (c.handleSideband env.nowNs (tx t).sideband).emitted = c.emitted :=
        congrArg Pairing.emitted (hp.pairing_handleSideband hfirst env.nowNs).2
      refine ⟨c.handleSideband env.nowNs (tx t).sideband, rfl, ?_, hp.sideband hs.cookies hfirst env⟩
      rw [hemitted, EventCollector.intake_handleSideband]
      refine he.record (r := .sideband t) hs.txids env (fun _ _ => rfl) (fun _ _ => rfl)
        (fun _ _ hkept => hkept) ?_ (fun hkept => history_cookie_snoc _ (he.parked t hkept))
      rw [Record.owner, hbuffer, hout, history_snoc_sideband]
      exact .emitted hall hev
  | stack receivedNs staleNs st =>
    exact ⟨_, rfl, he.background rfl rfl fun _ hkept => hkept, hp.other rfl (by simp) c.emitted⟩
  | sweep now mainOrder txidOrder =>
    have hemitted : (c.runSweep now mainOrder txidOrder).emitted = c.emitted :=
      congrArg Pairing.emitted (hp.pairing_runSweep now mainOrder txidOrder)
    refine ⟨c.runSweep now mainOrder txidOrder, rfl, ?_, hp.sweep now mainOrder txidOrder⟩
    rw [hemitted, EventCollector.intake_runSweep]
    exact he.background rfl rfl fun _ hkept => hkept
  | evictStale stackNs cookieNs =>
    refine ⟨_, rfl, he.background rfl rfl fun k hkept hnone => hkept ?_, hp.other rfl (by simp) c.emitted⟩
    change (c.pendingCookieByTxid.sweep _).lookup k = none
    rw [LruMap.lookup_sweep, show c.pendingCookieByTxid.lookup k = none from hnone]
    rfl

/-- The state along a schedule of oneway requests. -/
theorem run_state (hs : OnewaySchedule tx sched) (hdone : done <+: sched) :
    ∃ c, run step newEventCollector (calls tx done) = .ok c ∧
      OnewayEvents tx done c.intake c.emitted ∧ OnewayPending tx done c.pairing := by
  have hstart : OnewayEvents tx [] newEventCollector.intake newEventCollector.emitted ∧
      OnewayPending tx [] newEventCollector.pairing := by
    refine ⟨⟨fun _ => .absent rfl rfl rfl, fun _ hkept => absurd rfl hkept⟩, ?_⟩
    exact ⟨⟨rfl, rfl, rfl⟩, ⟨rfl, rfl⟩, .empty, fun _ hkept => absurd rfl hkept,
      ⟨[], .refl _, rfl⟩, ⟨fun _ => .nil, fun _ => rfl⟩⟩
  exact run_calls (P := fun done c => OnewayEvents tx done c.intake c.emitted ∧
    OnewayPending tx done c.pairing) hstart hs.next done hdone

end OnewaySchedule

/-- No sideband is counted as an orphan up to any point of the schedule. -/
def NoOrphans (tx : ι → Request) (sched : List (Delivery ι)) : Prop :=
  ∀ done, done <+: sched → ∃ c, run step newEventCollector (calls tx done) = .ok c ∧
    c.failures.sidebandOrphan = 0

/-- And every sideband delivered is merged into an event or counted as late. -/
def SidebandsResolved (tx : ι → Request) (sched : List (Delivery ι)) : Prop :=
  ∀ done, done <+: sched → ∃ c, run step newEventCollector (calls tx done) = .ok c ∧
    c.failures.sidebandOrphan = 0 ∧
    (sidebandTimes done).length = c.merged.length + c.failures.onewaySidebandLate

/-- **What becomes of the sidebands of oneway requests.** Their events are all emitted, once each;
but no sideband is ever merged or counted as late, and none is counted as an orphan exactly as long as
no sweep comes more than a second after one and they are not more than the map holds. -/
theorem oneway_sidebands (tx : ι → Request) (sched : List (Delivery ι)) (hs : OnewaySchedule tx sched) :
    (∃ c, run step newEventCollector (calls tx sched) = .ok c ∧
      ∀ t, ∃ ev, (tx t).IsEvent ev ∧ (c.emitted.filter fun ev => ev.transactionId = (tx t).txid) = [ev]) ∧
    (SidebandsResolved tx sched ↔ IsEmpty ι) ∧ (NoOrphans tx sched ↔ Timely sched) := by
  refine ⟨?_, ⟨?_, ?_⟩, ?_, ?_⟩
  · obtain ⟨c, hc, he, -⟩ := hs.run_state (List.prefix_refl _)
    refine ⟨c, hc, fun t => ?_⟩
    obtain ⟨-, hev⟩ := (he.stages t).of_complete fun i hi => mem_got.2 ((hs.chunks t i).2 hi)
    exact hev
  · intro hresolved
    obtain ⟨c, hc, -, hp⟩ := hs.run_state (List.prefix_refl _)
    obtain ⟨c', hc', -, hcount⟩ := hresolved sched (List.prefix_refl _)
    cases hc.symm.trans hc'
    have hmerged : c.merged = [] := hp.unmerged.1
    have hlate : c.failures.onewaySidebandLate = 0 := hp.unmerged.2
    rw [hmerged, hlate] at hcount
    have hnone := sidebandTimes_eq_nil.1 (List.length_eq_zero_iff.1 hcount)
    exact ⟨fun t => hnone t (hs.sideband t)⟩
  · intro hempty done hdone
    obtain ⟨c, hc, -, hp⟩ := hs.run_state hdone
    have hnone : sidebandTimes done = [] := sidebandTimes_eq_nil.2 fun t => hempty.elim t
    obtain ⟨lost, hperm, hcount⟩ := hp.accounted
    rw [hnone, List.nil_perm, List.append_eq_nil_iff] at hperm
    have hmerged : c.merged = [] := hp.unmerged.1
    have hlate : c.failures.onewaySidebandLate = 0 := hp.unmerged.2
    refine ⟨c, hc, ?_, by rw [hnone, hmerged, hlate]; rfl⟩
    rw [hperm.1] at hcount
    exact hcount
  · intro hnone
    obtain ⟨c, hc, -, hp⟩ := hs.run_state (List.prefix_refl _)
    obtain ⟨c', hc', hzero⟩ := hnone sched (List.prefix_refl _)
    cases hc.symm.trans hc'
    exact hp.timely.1 hzero
  · intro htimely done hdone
    obtain ⟨c, hc, -, hp⟩ := hs.run_state hdone
    exact ⟨c, hc, hp.timely.2 (htimely.mono hdone)⟩

end

/-- One oneway request, and a sweep two seconds later. -/
def sweptSchedule : List (Delivery (Fin 1)) :=
  [.record (.chunk 0 0) idleEnv, .record (.cookie 0) idleEnv, .record (.sideband 0) idleEnv,
    .sweep (2 * second) ⟨id, fun _ => .refl _⟩ ⟨id, fun _ => .refl _⟩]

theorem sweptSchedule_oneway : OnewaySchedule (fun _ => sampleRequest 1 false) sweptSchedule where
  txids t t' _ := Subsingleton.elim t t'
  cookies t t' _ := Subsingleton.elim t t'
  once := by decide +kernel
  chunks t i := by
    obtain rfl : t = 0 := Subsingleton.elim t 0
    have hcount : (sampleRequest 1 false).shipment.count = 1 := by decide +kernel
    rw [hcount, Nat.lt_one_iff]
    simp [sweptSchedule, records, Delivery.record?]
  cookie := by decide +kernel
  sideband := by decide +kernel
  clock := by decide +kernel
  window := by decide +kernel
  oneway := by decide +kernel
  cookieAfter done t env hnext := by
    obtain rfl : t = 0 := Subsingleton.elim t 0
    obtain ⟨hdone, hget⟩ := next_in_schedule hnext
    rw [hdone]
    generalize done.length = n at hget
    rcases n with _ | _ | _ | _ | n <;> cases hget
    decide +kernel
  sidebandAfter done t env hnext := by
    obtain rfl : t = 0 := Subsingleton.elim t 0
    obtain ⟨hdone, hget⟩ := next_in_schedule hnext
    rw [hdone]
    generalize done.length = n at hget
    rcases n with _ | _ | _ | _ | n <;> cases hget
    decide +kernel

theorem sweptSchedule_not_timely :
    OnewaySchedule (fun _ => sampleRequest 1 false) sweptSchedule ∧
      ¬ NoOrphans (fun _ => sampleRequest 1 false) sweptSchedule := by
  refine ⟨sweptSchedule_oneway, fun hnone => ?_⟩
  have htimely := (oneway_sidebands _ _ sweptSchedule_oneway).2.2.1 hnone
  have hlate := htimely.sweeps (sweptSchedule.take 3) (2 * second) ⟨id, fun _ => .refl _⟩
    ⟨id, fun _ => .refl _⟩ (List.prefix_refl _) 0 (by decide +kernel)
  exact absurd hlate (by decide)

/-- The event is emitted without its sideband, which is counted as an orphan. -/
theorem sweptSchedule_counts_orphan :
    OnewaySchedule (fun _ => sampleRequest 1 false) sweptSchedule ∧
      ∃ c, run step newEventCollector (calls (fun _ => sampleRequest 1 false) sweptSchedule) = .ok c ∧
        c.emitted.length = 1 ∧ c.merged = [] ∧ c.failures.onewaySidebandLate = 0 ∧
        c.failures.sidebandOrphan = 1 := by
  refine ⟨sweptSchedule_oneway, ?_⟩
  apply exists_of_endsIn
  decide +kernel

end BinderTracer.Daemon
