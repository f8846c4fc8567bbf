import BinderTracer.Daemon.Shipment

/-!
# Interleaved transactions

A request is seen by the daemon as three kinds of records: the chunks of the main program, the cookie
sideband and the tracepoint's sideband. A schedule delivers the records of many requests in some
order, with clock readings, and has the daemon's other calls in between. `Interleaving` says that
every record is delivered once, that the clock does not run backwards and that a request's records
arrive within a window; `Interleaving.fresh` is what the time-to-live tests need from it.
-/

namespace BinderTracer.Daemon

open BinderTracer.Kernel BinderTracer.Lib

/-- A request, with the records that the kernel programs write for it. -/
structure Request where
  shipment : Shipment
  cookie : UInt64
  tid : UInt32
  kernelDebugId : UInt64
  toPid : UInt32
  toUid : UInt32
  toUidUnsupported : UInt8
  isRequest : shipment.template.isReply = 0
  /-- What the main program does not know of a request. -/
  unknown : shipment.template.cookie = 0 ∧ shipment.template.pairId = 0 ∧
    shipment.template.toPid = 0 ∧ shipment.template.toUid = 0
  txid_ne_zero : shipment.txid ≠ 0
  cookie_ne_zero : cookie ≠ 0

namespace Request

variable (q : Request)

abbrev txid : UInt64 := q.shipment.txid

def oneway : Prop := (q.shipment.template.flags &&& txFlagOneWay) ≠ 0

instance : Decidable q.oneway := inferInstanceAs (Decidable (_ ≠ _))

def cookieSideband : BinderCookieSideband :=
  { cookie := q.cookie, transactionIdHint := q.txid, tid := q.tid }

def sideband : BinderSidebandEvent :=
  { toUidUnsupported := q.toUidUnsupported, cookie := q.cookie, kernelDebugId := q.kernelDebugId,
    toPid := q.toPid, toUid := q.toUid }

/-- The event of the request, as it is before a sideband is merged into it. -/
def IsEvent (ev : MainEvent) : Prop := ∃ ref nowNs stackTrace, ev = q.shipment.event ref nowNs stackTrace

theorem IsEvent.transactionId {q : Request} {ev : MainEvent} (h : q.IsEvent ev) :
    ev.transactionId = q.txid := by
  obtain ⟨ref, nowNs, stackTrace, rfl⟩ := h
  rfl

theorem IsEvent.isReply {q : Request} {ev : MainEvent} (h : q.IsEvent ev) : ev.payload.isReply = 0 := by
  obtain ⟨ref, nowNs, stackTrace, rfl⟩ := h
  exact q.isRequest

theorem IsEvent.isOneway {q : Request} {ev : MainEvent} (h : q.IsEvent ev) :
    ev.payload.isOneway = true ↔ q.oneway := by
  obtain ⟨ref, nowNs, stackTrace, rfl⟩ := h
  simp [BinderEventPayload.isOneway, Request.oneway, Shipment.event, TxMeta.toPayload, TxMeta.ofRecord]

end Request

/-- The main program writes the records of a request with a cookie of 0 and no receiver. -/
theorem kernelShipment_request (ctx : ProbeContext) (tr : BinderTransactionData) (slot : Nat → ChunkData)
    (nonempty : 1 ≤ tr.dataSize.toNat) (fits : tr.dataSize.toNat ≤ maxChunks * chunkSize)
    (hrequest : ctx.reply = false) :
    let template := (kernelShipment ctx tr slot nonempty fits).template
    template.isReply = 0 ∧
      (template.cookie = 0 ∧ template.pairId = 0 ∧ template.toPid = 0 ∧ template.toUid = 0) := by
  simp [kernelShipment, chunkRecord, hrequest]

/-- Two requests of 20 zero bytes. -/
def sampleRequest (flags : UInt32) (t : Bool) : Request where
  shipment := kernelShipment { sampleContext 20 with ktime := if t then 2 else 1 }
    { sampleData 20 with flags } (fun _ => List.Vector.replicate _ 0)
    (show 1 ≤ (20 : UInt64).toNat by decide) (show (20 : UInt64).toNat ≤ maxChunks * chunkSize by decide)
  cookie := if t then 8 else 7
  tid := 101
  kernelDebugId := if t then 42 else 41
  toPid := 200
  toUid := 1000
  toUidUnsupported := 0
  isRequest := (kernelShipment_request _ _ _ _ _ rfl).1
  unknown := (kernelShipment_request _ _ _ _ _ rfl).2
  txid_ne_zero := by cases t <;> exact of_decide_eq_true rfl
  cookie_ne_zero := by cases t <;> decide

/-- A record of one of the requests. -/
inductive Record (ι : Type) where
  | chunk (t : ι) (i : Nat)
  | cookie (t : ι)
  | sideband (t : ι)
deriving DecidableEq

/-- The request a record belongs to. -/
def Record.owner {ι : Type} : Record ι → ι
  | .chunk t _ => t
  | .cookie t => t
  | .sideband t => t

/-- A call of the schedule: the delivery of a record, or one of the daemon's other calls. -/
inductive Delivery (ι : Type) where
  | record (r : Record ι) (env : EventEnv)
  | stack (receivedNs staleNs : Int) (st : StackTraceEvent)
  | sweep (now : Int) (mainOrder txidOrder : RangeOrder MainEvent)
  | evictStale (stackNs cookieNs : Int)

namespace Delivery

variable {ι : Type}

/-- The call that handles the delivery. -/
def call (tx : ι → Request) : Delivery ι → Call
  | .record (.chunk t i) env => .handleEvent env ((tx t).shipment.record i)
  | .record (.cookie t) env => .handleCookieSideband env.nowNs env.cookieNs (tx t).cookieSideband
  | .record (.sideband t) env => .handleSideband env.nowNs (tx t).sideband
  | .stack receivedNs staleNs st => .handleStackRecord receivedNs staleNs st
  | .sweep now mainOrder txidOrder => .runSweep now mainOrder txidOrder
  | .evictStale stackNs cookieNs => .evictStale stackNs cookieNs

/-- The clock readings of the call, in order. -/
def readings : Delivery ι → List Int
  | .record _ env => [env.nowNs, env.stackNs, env.cookieNs]
  | .stack receivedNs staleNs _ => [receivedNs, staleNs]
  | .sweep now _ _ => [now]
  | .evictStale stackNs cookieNs => [stackNs, cookieNs]

/-- The record delivered, if it is one of the requests'. -/
def record? : Delivery ι → Option (Record ι)
  | .record r _ => some r
  | _ => none

end Delivery

section
variable {ι : Type}

/-- The records delivered. -/
def records (sched : List (Delivery ι)) : List (Record ι) := sched.filterMap Delivery.record?

/-- The calls of a schedule. -/
def calls (tx : ι → Request) (sched : List (Delivery ι)) : List Call := sched.map (Delivery.call tx)

/-- The schedule rule for the calls of a schedule. -/
theorem run_calls {tx : ι → Request} {sched : List (Delivery ι)}
    {P : List (Delivery ι) → EventCollector → Prop} (start : P [] newEventCollector)
    (next : ∀ done d, done ++ [d] <+: sched → ∀ c, P done c →
      ∃ c', step c (d.call tx) = .ok c' ∧ P (done ++ [d]) c')
    (done : List (Delivery ι)) (hdone : done <+: sched) :
    ∃ c, run step newEventCollector (calls tx done) = .ok c ∧ P done c := by
  rw [calls, run_map]
  exact run_schedule start next done hdone

theorem records_append (sched more : List (Delivery ι)) :
    records (sched ++ more) = records sched ++ records more :=
  List.filterMap_append

@[simp] theorem records_snoc_record (sched : List (Delivery ι)) (r : Record ι) (env : EventEnv) :
    records (sched ++ [Delivery.record r env]) = records sched ++ [r] := by
  simp [records, Delivery.record?]

theorem mem_readings_snoc (sched : List (Delivery ι)) {d : Delivery ι} {a : Int} (h : a ∈ d.readings) :
    a ∈ (sched ++ [d]).flatMap Delivery.readings :=
  List.mem_flatMap.2 ⟨d, by simp, h⟩

theorem records_subset {done sched : List (Delivery ι)} (h : done <+: sched) :
    records done ⊆ records sched :=
  (h.filterMap _).subset

variable [DecidableEq ι]

/-- The chunks of request `t` that have arrived. -/
def got (t : ι) (done : List (Delivery ι)) : List Nat :=
  (records done).filterMap fun
    | .chunk t' i => if t' = t then some i else none
    | _ => none

/-- The clock readings of the calls that deliver the records of request `t`. -/
def readingsOf (t : ι) (sched : List (Delivery ι)) : List Int :=
  sched.flatMap fun d => if d.record?.map Record.owner = some t then d.readings else []

/-- What has been delivered of one request, and the clock readings made for it. -/
structure History where
  got : List Nat
  cookie : Bool
  sideband : Bool
  times : List Int

/-- The time `a` was read for the request while it was outstanding. -/
def History.Live (h : History) (a : Int) : Prop := h.sideband = false ∧ a ∈ h.times

def history (t : ι) (done : List (Delivery ι)) : History where
  got := got t done
  cookie := .cookie t ∈ records done
  sideband := .sideband t ∈ records done
  times := readingsOf t done

/-- The requests with records delivered but their sideband still to come. -/
def outstanding (done : List (Delivery ι)) : List ι :=
  (((records done).map Record.owner).dedup).filter fun t => .sideband t ∉ records done

theorem mem_got {t : ι} {i : Nat} {done : List (Delivery ι)} : i ∈ got t done ↔ .chunk t i ∈ records done := by
  simp only [got, List.mem_filterMap]
  constructor
  · rintro ⟨r, hr, heq⟩
    cases r with
    | chunk t' j =>
      simp only [Option.ite_none_right_eq_some, Option.some.injEq] at heq
      obtain ⟨rfl, rfl⟩ := heq
      exact hr
    | cookie t' => cases heq
    | sideband t' => cases heq
  · intro h
    exact ⟨_, h, by simp⟩

@[simp] theorem history_snoc_chunk (t : ι) (i : Nat) (done : List (Delivery ι)) (env : EventEnv) :
    history t (done ++ [Delivery.record (.chunk t i) env]) =
      { history t done with
        got := (history t done).got ++ [i]
        times := (history t done).times ++ [env.nowNs, env.stackNs, env.cookieNs] } := by
  simp [history, got, readingsOf, Delivery.record?, Record.owner, Delivery.readings]

@[simp] theorem history_snoc_cookie (t : ι) (done : List (Delivery ι)) (env : EventEnv) :
    history t (done ++ [Delivery.record (.cookie t) env]) =
      { history t done with
        cookie := true
        times := (history t done).times ++ [env.nowNs, env.stackNs, env.cookieNs] } := by
  simp [history, got, readingsOf, Delivery.record?, Record.owner, Delivery.readings]

@[simp] theorem history_snoc_sideband (t : ι) (done : List (Delivery ι)) (env : EventEnv) :
    history t (done ++ [Delivery.record (.sideband t) env]) =
      { history t done with
        sideband := true
        times := (history t done).times ++ [env.nowNs, env.stackNs, env.cookieNs] } := by
  simp [history, got, readingsOf, Delivery.record?, Record.owner, Delivery.readings]

/-- The records of other requests, and the other calls, are no part of a request's history. -/
theorem history_snoc_of_ne {t : ι} {d : Delivery ι} (h : d.record?.map Record.owner ≠ some t)
    (done : List (Delivery ι)) : history t (done ++ [d]) = history t done := by
  cases d with
  | record r env =>
    cases r with
    | chunk t' i =>
      have hne : t' ≠ t := fun heq => h (congrArg some heq)
      simp [history, got, readingsOf, Delivery.record?, Record.owner, hne]
    | cookie t' =>
      have hne : t' ≠ t := fun heq => h (congrArg some heq)
      simp [history, got, readingsOf, Delivery.record?, Record.owner, hne, Ne.symm hne]
    | sideband t' =>
      have hne : t' ≠ t := fun heq => h (congrArg some heq)
      simp [history, got, readingsOf, Delivery.record?, Record.owner, hne, Ne.symm hne]
  | _ => simp [history, got, readingsOf, records, Delivery.record?]

theorem history_cookie_snoc {t : ι} {done : List (Delivery ι)} (d : Delivery ι)
    (h : (history t done).cookie = true) : (history t (done ++ [d])).cookie = true :=
  decide_eq_true (records_subset (List.prefix_append _ _) (of_decide_eq_true h))

theorem history_sideband_snoc {t : ι} {done : List (Delivery ι)} (d : Delivery ι)
    (h : (history t done).sideband = true) : (history t (done ++ [d])).sideband = true :=
  decide_eq_true (records_subset (List.prefix_append _ _) (of_decide_eq_true h))

theorem readingsOf_subset {t : ι} {done sched : List (Delivery ι)} (h : done <+: sched) :
    readingsOf t done ⊆ readingsOf t sched := by
  obtain ⟨rest, rfl⟩ := h
  simp [readingsOf]

theorem mem_outstanding {t : ι} {done : List (Delivery ι)} :
    t ∈ outstanding done ↔ (∃ r ∈ records done, r.owner = t) ∧ .sideband t ∉ records done := by
  simp [outstanding]

theorem length_outstanding_le (done : List (Delivery ι)) : (outstanding done).length ≤ done.length :=
  calc (outstanding done).length
    _ ≤ ((records done).map Record.owner).dedup.length := List.length_filter_le _ _
    _ ≤ ((records done).map Record.owner).length := (List.dedup_sublist _).length_le
    _ = (records done).length := List.length_map _
    _ ≤ done.length := List.length_filterMap_le _ _

theorem History.Live.outstanding {t : ι} {done : List (Delivery ι)} {a : Int}
    (h : (history t done).Live a) : t ∈ outstanding done := by
  obtain ⟨hside, ha⟩ := h
  obtain ⟨d, hd, hmem⟩ := List.mem_flatMap.1 ha
  split at hmem
  · next howner =>
    obtain ⟨r, hr, howner⟩ := Option.map_eq_some_iff.1 howner
    exact mem_outstanding.2 ⟨⟨r, List.mem_filterMap.2 ⟨d, hd, hr⟩, howner⟩, of_decide_eq_false hside⟩
  · cases hmem

/-- While no more requests are outstanding than a map holds, what is held being held for one of them, another
can be entered. -/
theorem len_push_le {V : Type} {m : LruMap UInt64 V} {key : ι → UInt64} {time : V → Int} {t : ι}
    {done done' : List (Delivery ι)} {cap : Nat} (hcap : (outstanding done').length ≤ cap)
    (hsub : outstanding done ⊆ outstanding done') (ht : t ∈ outstanding done') (hm : m.Coherent)
    (howned : ∀ k v, m.lookup k = some v → ∃ t', key t' = k ∧ (history t' done).Live (time v))
    (hfree : m.lookup (key t) = none) (v : V) : (m.push (key t) v).lru.len ≤ cap := by
  rw [(hm.push v hfree).len_eq_size]
  have hsize : (m.push (key t) v).size ≤ ((outstanding done').map key).length := by
    apply LruMap.size_le_length
    intro k hk
    rw [LruMap.lookup_push] at hk
    split at hk
    · next heq => exact heq ▸ List.mem_map_of_mem ht
    · obtain ⟨old, hold⟩ := Option.ne_none_iff_exists'.1 hk
      obtain ⟨t', ht', hlive⟩ := howned k old hold
      exact List.mem_map.2 ⟨t', hsub hlive.outstanding, ht'⟩
  rw [List.length_map] at hsize
  exact hsize.trans hcap

/-- A request stays outstanding while no sideband is delivered. -/
theorem outstanding_subset {r : Record ι} {done : List (Delivery ι)} (env : EventEnv)
    (hr : ∀ t, r ≠ .sideband t) : outstanding done ⊆ outstanding (done ++ [Delivery.record r env]) := by
  intro t ht
  obtain ⟨⟨r', hr', howner⟩, hside⟩ := mem_outstanding.1 ht
  rw [mem_outstanding, records_snoc_record]
  refine ⟨⟨r', List.mem_append_left _ hr', howner⟩, fun hmem => ?_⟩
  rcases List.mem_append.1 hmem with hold | hnew
  · exact hside hold
  · exact hr t (List.mem_singleton.1 hnew).symm

/-- The schedule delivers each record of the requests once. -/
structure Interleaving (tx : ι → Request) (sched : List (Delivery ι)) (ttl : Int) : Prop where
  txids : Function.Injective fun t => (tx t).txid
  cookies : Function.Injective fun t => (tx t).cookie
  once : (records sched).Nodup
  chunks : ∀ t i, .chunk t i ∈ records sched ↔ i < (tx t).shipment.count
  cookie : ∀ t, .cookie t ∈ records sched
  sideband : ∀ t, .sideband t ∈ records sched
  /-- The clock does not run backwards. -/
  clock : (sched.flatMap Delivery.readings).Pairwise (· ≤ ·)
  /-- The records of one request arrive within the window. -/
  window : ∀ t, ∀ a ∈ readingsOf t sched, ∀ b ∈ readingsOf t sched, b ≤ a + ttl

namespace Interleaving

variable {tx : ι → Request} {sched done : List (Delivery ι)} {ttl : Int}

/-- A record is not delivered a second time. -/
theorem not_mem (h : Interleaving tx sched ttl) {r : Record ι} {env : EventEnv}
    (hnext : done ++ [Delivery.record r env] <+: sched) : r ∉ records done := by
  have hnodup : (records done ++ [r]).Nodup := by
    rw [← records_snoc_record done r env]
    exact (hnext.filterMap _).sublist.nodup h.once
  intro hmem
  exact (List.disjoint_of_nodup_append hnodup) hmem List.mem_cons_self

/-- A chunk that is delivered next is one of the parcel's and was missing. -/
theorem chunk_due (h : Interleaving tx sched ttl) {t : ι} {i : Nat} {env : EventEnv}
    (hnext : done ++ [Delivery.record (.chunk t i) env] <+: sched) :
    i < (tx t).shipment.count ∧ ¬ (tx t).shipment.Complete (history t done).got := by
  have hi : i < (tx t).shipment.count := by
    rw [← h.chunks t i]
    exact records_subset hnext (by simp)
  exact ⟨hi, fun hall => h.not_mem hnext (mem_got.1 (hall i hi))⟩

/-- **Nothing of an outstanding request is stale**: a reading made before its sideband arrives is
within the window of every reading made for it. -/
theorem fresh (h : Interleaving tx sched ttl) (hdone : done <+: sched) {t : ι} {a r : Int}
    (ha : (history t done).Live a) (hr : r ∈ done.flatMap Delivery.readings) : r ≤ a + ttl := by
  have hside : Record.sideband t ∉ records done := of_decide_eq_false ha.1
  have ha' : a ∈ readingsOf t sched := readingsOf_subset hdone ha.2
  obtain ⟨rest, rfl⟩ := hdone
  have hlater : Record.sideband t ∈ records rest := by
    have := h.sideband t
    rw [records_append] at this
    exact (List.mem_append.1 this).resolve_left hside
  obtain ⟨d, hd, hrec⟩ := List.mem_filterMap.1 hlater
  cases d with
  | record r' env =>
    obtain rfl : r' = .sideband t := Option.some.inj hrec
    have hown : env.nowNs ∈ readingsOf t (done ++ rest) := by
      refine List.mem_flatMap.2 ⟨_, List.mem_append_right _ hd, ?_⟩
      simp [Delivery.record?, Record.owner, Delivery.readings]
    have hclock := h.clock
    rw [List.flatMap_append, List.pairwise_append] at hclock
    have hle : r ≤ env.nowNs := hclock.2.2 r hr _ (List.mem_flatMap.2 ⟨_, hd, by simp [Delivery.readings]⟩)
    exact hle.trans (h.window t a ha' _ hown)
  | _ => cases hrec

end Interleaving

end

end BinderTracer.Daemon
