import BinderTracer.Daemon.Buffers
import BinderTracer.Kernel.Parcel

/-!
# Splitting and reassembly

The chunk records that the kernel program writes for a parcel, delivered to the collector once each,
in any order and between any other calls, make `handleEvent` route exactly one event for the
transaction, after its last chunk, with the parcel's bytes. The buffers of the other transactions do
not get in the way (`Progress` is kept by every call); what does is a record of another transaction
that ends the daemon: a negative chunk index, or a data size whose chunk table `make` refuses, which
the kernel program lets through (`reassembled_iff`).
-/

namespace BinderTracer.Daemon

open BinderTracer.Kernel BinderTracer.Lib

/-- The deliveries of one transaction's chunk records. -/
def ownDeliveries (txid : UInt64) (calls : List Call) : List (Int × BinderTraceEvent) :=
  (deliveries calls).filter fun d => d.2.transactionId == txid

/-- The chunks of the transaction that have arrived. -/
def arrivals (txid : UInt64) (calls : List Call) : List Nat :=
  (ownDeliveries txid calls).map fun d => d.2.chunkIndex.toNat

/-- The `routeMainEvent` calls for the transaction. -/
def EventCollector.routedFor (c : EventCollector) (txid : UInt64) : List Routing :=
  c.routed.filter fun r => r.transactionId == txid

theorem ownDeliveries_append (txid : UInt64) (calls more : List Call) :
    ownDeliveries txid (calls ++ more) = ownDeliveries txid calls ++ ownDeliveries txid more := by
  simp [ownDeliveries, deliveries_append]

theorem ownDeliveries_record (s : Shipment) (env : EventEnv) (i : Nat) :
    ownDeliveries s.txid [.handleEvent env (s.record i)] = [(env.nowNs, s.record i)] := by
  have htx : (s.record i).transactionId = s.txid := rfl
  simp [ownDeliveries, deliveries, htx]

/-- A call that delivers no chunk record of the transaction. -/
def Call.Foreign (txid : UInt64) (call : Call) : Prop := ownDeliveries txid [call] = []

theorem foreign_handleEvent {txid : UInt64} {env : EventEnv} {event : BinderTraceEvent} :
    (Call.handleEvent env event).Foreign txid ↔ event.transactionId ≠ txid := by
  simp [Call.Foreign, ownDeliveries, deliveries]

/-! ### One transaction's progress -/

/-- Where a shipment stands after `calls`: while chunks are missing its buffer holds those that have
arrived and nothing is routed; afterwards the buffer is gone and its one event is routed. -/
structure Progress (s : Shipment) (calls : List Call) (c : EventCollector) : Prop where
  closed : arrivals s.txid calls = [] ∨ s.Complete (arrivals s.txid calls) →
    c.transactionBuffers.lookup s.txid = none
  opened : arrivals s.txid calls ≠ [] → ¬ s.Complete (arrivals s.txid calls) →
    ∃ d ∈ ownDeliveries s.txid calls, ∃ cookie,
      c.transactionBuffers.lookup s.txid = some (s.buffer (arrivals s.txid calls) d.1 cookie)
  waiting : ¬ s.Complete (arrivals s.txid calls) → c.routedFor s.txid = []
  routed : s.Complete (arrivals s.txid calls) → ∃ ref nowNs stackTrace cookie,
    c.routedFor s.txid = [⟨s.event ref nowNs stackTrace, cookie, s.txid, nowNs⟩]

theorem Progress.initial (s : Shipment) : Progress s [] newEventCollector where
  closed := fun _ => rfl
  opened := fun h => absurd rfl h
  waiting := fun _ => rfl
  routed := fun h => absurd h s.not_complete_nil

/-- A call of another kind or transaction keeps the progress, if it keeps the buffer up to its cookie. -/
theorem Progress.foreign {s : Shipment} {calls : List Call} {call : Call} {c c' : EventCollector}
    (h : Progress s calls c) (hforeign : call.Foreign s.txid)
    (hnone : c.transactionBuffers.lookup s.txid = none → c'.transactionBuffers.lookup s.txid = none)
    (hsome : ∀ buf, c.transactionBuffers.lookup s.txid = some buf → ∃ cookie,
      c'.transactionBuffers.lookup s.txid =
        some { buf with txMeta := { buf.txMeta with cookie := cookie } })
    (hrouted : c'.routedFor s.txid = c.routedFor s.txid) : Progress s (calls ++ [call]) c' := by
  have hown : ownDeliveries s.txid (calls ++ [call]) = ownDeliveries s.txid calls := by
    rw [ownDeliveries_append, hforeign, List.append_nil]
  have harr : arrivals s.txid (calls ++ [call]) = arrivals s.txid calls := by
    rw [arrivals, hown, arrivals]
  refine ⟨?_, ?_, ?_, ?_⟩
  · rw [harr]
    exact fun hc => hnone (h.closed hc)
  · rw [harr, hown]
    intro hstarted hmissing
    obtain ⟨d, hd, cookie, hbuf⟩ := h.opened hstarted hmissing
    obtain ⟨cookie', hbuf'⟩ := hsome _ hbuf
    exact ⟨d, hd, cookie', hbuf'⟩
  · rw [harr, hrouted]
    exact h.waiting
  · rw [harr, hrouted]
    exact h.routed

theorem routedFor_append {c c' : EventCollector} {r : Routing} {txid : UInt64}
    (h : c'.routed = c.routed ++ [r]) :
    c'.routedFor txid = c.routedFor txid ++ if r.transactionId = txid then [r] else [] := by
  rw [EventCollector.routedFor, h, List.filter_append]
  by_cases hr : r.transactionId = txid <;> simp [EventCollector.routedFor, hr]

theorem routedFor_congr {c c' : EventCollector} (txid : UInt64) (h : c'.routed = c.routed) :
    c'.routedFor txid = c.routedFor txid := by
  rw [EventCollector.routedFor, h, EventCollector.routedFor]

/-- A call that touches neither the buffer nor what was routed. -/
theorem Progress.quiet {s : Shipment} {calls : List Call} {call : Call} {c c' : EventCollector}
    (h : Progress s calls c) (hforeign : call.Foreign s.txid)
    (hbuffer : c'.transactionBuffers.lookup s.txid = c.transactionBuffers.lookup s.txid)
    (hrouted : c'.routedFor s.txid = c.routedFor s.txid) : Progress s (calls ++ [call]) c' := by
  apply h.foreign hforeign _ _ hrouted
  · rw [hbuffer]
    exact id
  · rw [hbuffer]
    exact fun buf hbuf => ⟨buf.txMeta.cookie, hbuf⟩

/-- **Other calls**: whatever is called, a call without a chunk of the shipment keeps its progress,
provided that it does not come too late for the buffer. -/
theorem Progress.step_foreign {s : Shipment} {calls : List Call} {call : Call} {c c' : EventCollector}
    (h : Progress s calls c) (hforeign : call.Foreign s.txid) (hstep : step c call = .ok c')
    (hfresh : ¬ s.Complete (arrivals s.txid calls) → ∀ d ∈ ownDeliveries s.txid calls,
      ∀ d' ∈ deliveries [call], d'.1 ≤ d.1 + staleBufferTTL) :
    Progress s (calls ++ [call]) c' := by
  cases call with
  | handleStackRecord receivedNs staleNs st =>
    cases hstep
    exact h.quiet hforeign rfl rfl
  | evictStale stackNs cookieNs =>
    cases hstep
    exact h.quiet hforeign rfl rfl
  | runSweep now mainOrder txidOrder =>
    cases hstep
    exact h.quiet hforeign rfl rfl
  | handleSideband nowNs sb =>
    cases hstep
    have hframe := c.intake_handleSideband nowNs sb
    apply h.quiet hforeign
    · exact congrArg (fun i => i.transactionBuffers.lookup s.txid) hframe
    · exact routedFor_congr _ (congrArg Intake.routed hframe)
  | handleCookieSideband receivedNs staleNs cs =>
    cases hstep
    have hlookup := c.lookup_handleCookieSideband receivedNs staleNs cs s.txid
    refine h.foreign hforeign ?_ ?_ (routedFor_congr _ (c.routed_handleCookieSideband receivedNs staleNs cs))
    · intro hnone
      rw [hlookup, hnone]
      rfl
    · intro buf hbuf
      rw [hlookup, hbuf, Option.map_some]
      split
      · exact ⟨cs.cookie, rfl⟩
      · exact ⟨buf.txMeta.cookie, rfl⟩
  | handleEvent env event =>
    have hne := foreign_handleEvent.1 hforeign
    obtain ⟨buf, chunks, m, -, -, rfl, hother, -, heffect⟩ := EventCollector.handleEvent_recordEffect hstep
    have hm := hother s.txid (Ne.symm hne)
    have hkeep : (m.maybeCleanup env).transactionBuffers.lookup s.txid =
        c.transactionBuffers.lookup s.txid := by
      refine (EventCollector.lookup_maybeCleanup fun buf hbuf => ?_).trans hm
      rw [hm] at hbuf
      by_cases hopen : arrivals s.txid calls = [] ∨ s.Complete (arrivals s.txid calls)
      · exact nomatch (h.closed hopen).symm.trans hbuf
      · push Not at hopen
        obtain ⟨d, hd, cookie, hbuf'⟩ := h.opened hopen.1 hopen.2
        cases hbuf'.symm.trans hbuf
        exact hfresh hopen.2 d hd (env.nowNs, event) List.mem_cons_self
    refine h.quiet hforeign hkeep ?_
    rw [routedFor_congr _ (m.routed_maybeCleanup env)]
    cases heffect with
    | waits hr => exact routedFor_congr _ hr
    | discarded hr => exact routedFor_congr _ hr
    | routes r hr _ _ _ _ htx => rw [routedFor_append hr, if_neg (htx ▸ hne), List.append_nil]

theorem Shipment.toNat_chunkIndex (s : Shipment) {i : Nat} (hi : i < s.count) :
    (s.record i).chunkIndex.toNat = i := by
  change (UInt64.ofNat i).toNat = i
  rw [UInt64.toNat_ofNat']
  exact Nat.mod_eq_of_lt ((hi.trans_le s.count_le).trans (by decide))

/-- The buffer that a chunk record finds or opens. -/
theorem Progress.openBuffer {s : Shipment} {calls : List Call} {c : EventCollector}
    (h : Progress s calls c) (hcookie : s.template.cookie = 0) (env : EventEnv) (i : Nat)
    (hmissing : ¬ s.Complete (arrivals s.txid calls)) :
    ∃ c₁ cookie, ∃ d ∈ ownDeliveries s.txid (calls ++ [Call.handleEvent env (s.record i)]),
      c.openBuffer env (s.record i) = .ok (c₁, s.buffer (arrivals s.txid calls) d.1 cookie) ∧
      c₁.routed = c.routed := by
  rw [ownDeliveries_append, ownDeliveries_record]
  by_cases hfirst : arrivals s.txid calls = []
  · have hopen := EventCollector.openBuffer_none i env (h.closed (.inl hfirst)) hcookie
    rw [← hfirst] at hopen
    exact ⟨_, _, (env.nowNs, s.record i), List.mem_append_right _ List.mem_cons_self, hopen, rfl⟩
  · obtain ⟨d, hd, cookie, hbuf⟩ := h.opened hfirst hmissing
    exact ⟨c, cookie, d, List.mem_append_left _ hd, EventCollector.openBuffer_some env hbuf, rfl⟩

/-- After the last chunk the buffer is closed and the event routed. -/
theorem Progress.of_last {s : Shipment} {calls : List Call} {c : EventCollector} {env : EventEnv}
    {cookie : UInt64} (hcomplete : s.Complete (arrivals s.txid calls)) (hnone : c.routedFor s.txid = []) :
    Progress s calls ((c.routeShipment env s cookie).maybeCleanup env) := by
  obtain ⟨hb, stackTrace, hr⟩ := c.routeShipment_frame env s cookie
  have hclosed : (c.routeShipment env s cookie).transactionBuffers.lookup s.txid = none := by
    rw [hb, AList.lookup_erase]
  refine ⟨fun _ => ?_, fun _ hnot => absurd hcomplete hnot, fun hnot => absurd hcomplete hnot, fun _ => ?_⟩
  · rw [EventCollector.lookup_maybeCleanup, hclosed]
    exact fun buf hbuf => nomatch hclosed.symm.trans hbuf
  · refine ⟨c.routed.length, env.nowNs, stackTrace, cookie, ?_⟩
    rw [routedFor_congr _ (EventCollector.routed_maybeCleanup _ env), routedFor_append hr, hnone,
      if_pos rfl, List.nil_append]

/-- While chunks are missing the buffer stays open. -/
theorem Progress.of_more {s : Shipment} {calls : List Call} {c : EventCollector} {env : EventEnv}
    {cookie : UInt64} {d : Int × BinderTraceEvent} (hstarted : arrivals s.txid calls ≠ [])
    (hmissing : ¬ s.Complete (arrivals s.txid calls)) (hnone : c.routedFor s.txid = [])
    (hbuf : c.transactionBuffers.lookup s.txid = some (s.buffer (arrivals s.txid calls) d.1 cookie))
    (hd : d ∈ ownDeliveries s.txid calls) (hfresh : env.nowNs ≤ d.1 + staleBufferTTL) :
    Progress s calls (c.maybeCleanup env) := by
  have hkept : (c.maybeCleanup env).transactionBuffers.lookup s.txid =
      c.transactionBuffers.lookup s.txid := by
    apply EventCollector.lookup_maybeCleanup
    intro buf hbuf'
    cases hbuf.symm.trans hbuf'
    exact hfresh
  refine ⟨fun hclosed => ?_, fun _ _ => ⟨d, hd, cookie, hkept.trans hbuf⟩, fun _ => ?_,
    fun hcomplete => absurd hcomplete hmissing⟩
  · exact absurd hclosed (not_or.2 ⟨hstarted, hmissing⟩)
  · rw [routedFor_congr _ (EventCollector.routed_maybeCleanup _ env), hnone]

/-- **Its own chunk**: a chunk that has not arrived yet brings the shipment one step further. -/
theorem Progress.step_own {s : Shipment} {calls : List Call} {c : EventCollector} {env : EventEnv} {i : Nat}
    (h : Progress s calls c) (hcookie : s.template.cookie = 0) (hi : i < s.count)
    (hnew : i ∉ arrivals s.txid calls)
    (hfresh : ∀ d ∈ ownDeliveries s.txid (calls ++ [Call.handleEvent env (s.record i)]),
      env.nowNs ≤ d.1 + staleBufferTTL) :
    ∃ c', step c (.handleEvent env (s.record i)) = .ok c' ∧
      Progress s (calls ++ [Call.handleEvent env (s.record i)]) c' := by
  have hmissing : ¬ s.Complete (arrivals s.txid calls) := fun hc => hnew (hc i hi)
  have harr : arrivals s.txid (calls ++ [Call.handleEvent env (s.record i)]) = arrivals s.txid calls ++ [i] := by
    rw [arrivals, ownDeliveries_append, ownDeliveries_record, List.map_append]
    simp [arrivals, s.toNat_chunkIndex hi]
  have hmem : ∀ j, j ∈ i :: arrivals s.txid calls ↔ j ∈ arrivals s.txid calls ++ [i] := by
    intro j
    simp [or_comm]
  have hdone : s.Complete (i :: arrivals s.txid calls) ↔ s.Complete (arrivals s.txid calls ++ [i]) :=
    forall₂_congr fun j _ => hmem j
  obtain ⟨c₁, cookie, d, hd, hopen, hrouted⟩ := h.openBuffer hcookie env i hmissing
  have hnone : (c₁.putBuffer s.txid (s.buffer (i :: arrivals s.txid calls) d.1 cookie)).routedFor
      s.txid = [] :=
    (routedFor_congr _ hrouted).trans (h.waiting hmissing)
  refine ⟨_, EventCollector.handleEvent_record hi hopen, ?_⟩
  by_cases hc : s.Complete (i :: arrivals s.txid calls)
  · rw [if_pos hc]
    exact Progress.of_last (by rw [harr]; exact hdone.1 hc) hnone
  · rw [if_neg hc]
    have hbuf : (c₁.putBuffer s.txid (s.buffer (i :: arrivals s.txid calls) d.1
        cookie)).transactionBuffers.lookup s.txid =
          some (s.buffer (arrivals s.txid (calls ++ [Call.handleEvent env (s.record i)])) d.1 cookie) := by
      change (c₁.transactionBuffers.insert _ _).lookup _ = _
      rw [AList.lookup_insert, harr, Shipment.buffer, s.table_congr hmem]
      rfl
    exact Progress.of_more (by simp [harr]) (by rw [harr]; exact fun h' => hc (hdone.2 h')) hnone hbuf hd
      (hfresh d hd)

/-! ### Schedules that deliver a shipment -/

/-- `calls` delivers each record of the shipment once, in time. -/
structure Shipped (s : Shipment) (calls : List Call) : Prop where
  once : ((ownDeliveries s.txid calls).map Prod.snd).Perm ((List.range s.count).map s.record)
  clock : (deliveries calls).Pairwise fun d d' => d.1 ≤ d'.1
  window : ∀ d ∈ ownDeliveries s.txid calls, ∀ d' ∈ ownDeliveries s.txid calls,
    d'.1 ≤ d.1 + staleBufferTTL

namespace Shipped

variable {s : Shipment} {calls done : List Call}

theorem mem_own_mono (hdone : done <+: calls) {d : Int × BinderTraceEvent}
    (hd : d ∈ ownDeliveries s.txid done) : d ∈ ownDeliveries s.txid calls := by
  obtain ⟨rest, rfl⟩ := hdone
  rw [ownDeliveries_append]
  exact List.mem_append_left _ hd

theorem eq_record (h : Shipped s calls) {d : Int × BinderTraceEvent}
    (hd : d ∈ ownDeliveries s.txid calls) : ∃ i < s.count, d.2 = s.record i := by
  have hmem := h.once.subset (List.mem_map_of_mem hd)
  obtain ⟨i, hi, heq⟩ := List.mem_map.1 hmem
  exact ⟨i, List.mem_range.1 hi, heq.symm⟩

/-- The chunks that have arrived are those whose records have been delivered. -/
theorem mem_arrivals (h : Shipped s calls) (hdone : done <+: calls) {i : Nat} (hi : i < s.count) :
    i ∈ arrivals s.txid done ↔ s.record i ∈ (ownDeliveries s.txid done).map Prod.snd := by
  simp only [arrivals, List.mem_map]
  constructor
  · rintro ⟨d, hd, hidx⟩
    obtain ⟨j, hj, heq⟩ := h.eq_record (mem_own_mono hdone hd)
    rw [heq, s.toNat_chunkIndex hj] at hidx
    exact ⟨d, hd, hidx ▸ heq⟩
  · rintro ⟨d, hd, heq⟩
    exact ⟨d, hd, by rw [heq, s.toNat_chunkIndex hi]⟩

theorem record_injOn : ((List.range s.count).map s.record).Nodup := by
  refine List.Nodup.map_on ?_ List.nodup_range
  intro i hi j hj heq
  have hidx := congrArg (fun e => e.chunkIndex.toNat) heq
  simpa only [s.toNat_chunkIndex (List.mem_range.1 hi), s.toNat_chunkIndex (List.mem_range.1 hj)] using hidx

/-- A record that is delivered now has not been delivered before. -/
theorem not_mem_arrivals (h : Shipped s calls) {env : EventEnv} {i : Nat} (hi : i < s.count)
    (hnext : done ++ [Call.handleEvent env (s.record i)] <+: calls) : i ∉ arrivals s.txid done := by
  rw [h.mem_arrivals ((List.prefix_append _ _).trans hnext) hi]
  obtain ⟨rest, hrest⟩ := hnext
  have hnodup := h.once.nodup_iff.2 record_injOn
  rw [← hrest, ownDeliveries_append, ownDeliveries_append, ownDeliveries_record, List.map_append,
    List.map_append, List.nodup_append, List.nodup_append] at hnodup
  intro hmem
  exact hnodup.1.2.2 _ hmem (s.record i) (by simp) rfl

/-- While a chunk is missing the schedule is within the time to live of the buffer. -/
theorem fresh (h : Shipped s calls) {call : Call} (hnext : done ++ [call] <+: calls)
    (hmissing : ¬ s.Complete (arrivals s.txid done)) :
    ∀ d ∈ ownDeliveries s.txid done, ∀ d' ∈ deliveries [call], d'.1 ≤ d.1 + staleBufferTTL := by
  intro d hd d' hd'
  have hdone := (List.prefix_append done [call]).trans hnext
  -- some chunk `i` is still to come, now or later
  obtain ⟨i, hi, habsent⟩ : ∃ i < s.count, i ∉ arrivals s.txid done := by
    simpa [Shipment.Complete] using hmissing
  have hcoming : s.record i ∈ (ownDeliveries s.txid calls).map Prod.snd :=
    h.once.symm.subset (List.mem_map_of_mem (List.mem_range.2 hi))
  rw [h.mem_arrivals hdone hi] at habsent
  obtain ⟨rest, hrest⟩ := hnext
  rw [← hrest, List.append_assoc, ownDeliveries_append, List.map_append, List.mem_append] at hcoming
  obtain ⟨d'', hd'', -⟩ := List.mem_map.1 (hcoming.resolve_left habsent)
  have hlate : d'.1 ≤ d''.1 := by
    have hclock := h.clock
    rw [← hrest, List.append_assoc, deliveries_append, List.pairwise_append, deliveries_append] at hclock
    have hmem := List.mem_of_mem_filter hd''
    rw [deliveries_append, List.mem_append] at hmem
    rcases hmem with hmem | hmem
    · -- one call delivers at most one record
      cases call with
      | handleEvent env event =>
        rw [List.mem_singleton.1 hd', List.mem_singleton.1 hmem]
      | _ => cases hd'
    · exact (List.pairwise_append.1 hclock.2.1).2.2 d' hd' d'' hmem
  have hown : d'' ∈ ownDeliveries s.txid calls := by
    rw [← hrest, List.append_assoc, ownDeliveries_append]
    exact List.mem_append_right _ hd''
  exact hlate.trans (h.window d (mem_own_mono hdone hd) d'' hown)

/-- **Along a schedule** that delivers the shipment and whose other records are harmless, the daemon
stays alive and the shipment progresses. -/
theorem progress (h : Shipped s calls) (hcookie : s.template.cookie = 0)
    (hothers : ∀ env e, .handleEvent env e ∈ calls → e.transactionId ≠ s.txid → Harmless env e)
    (hdone : done <+: calls) :
    ∃ c, run step newEventCollector done = .ok c ∧ Progress s done c := by
  suffices hnext : ∀ done call, done ++ [call] <+: calls → ∀ c,
      Progress s done c ∧ Sized done c →
      ∃ c', step c call = .ok c' ∧ Progress s (done ++ [call]) c' ∧ Sized (done ++ [call]) c' by
    have hstart : Progress s [] newEventCollector ∧ Sized [] newEventCollector :=
      ⟨Progress.initial s, fun k buf hbuf => by cases hbuf⟩
    obtain ⟨c, hrun, hprogress, -⟩ := run_schedule
      (P := fun done c => Progress s done c ∧ Sized done c) hstart hnext done hdone
    exact ⟨c, hrun, hprogress⟩
  rintro done call hnext c ⟨hprogress, hsized⟩
  suffices hstep : ∃ c', step c call = .ok c' ∧ Progress s (done ++ [call]) c' by
    obtain ⟨c', hstep, hprogress'⟩ := hstep
    exact ⟨c', hstep, hprogress', hsized.step hstep⟩
  by_cases hforeign : call.Foreign s.txid
  · suffices htotal : ∃ c', step c call = .ok c' by
      obtain ⟨c', hstep⟩ := htotal
      exact ⟨c', hstep, hprogress.step_foreign hforeign hstep (h.fresh hnext)⟩
    cases call with
    | handleEvent env event =>
      have hmem : Call.handleEvent env event ∈ calls := hnext.subset (by simp)
      exact handleEvent_total hsized (hothers env event hmem (foreign_handleEvent.1 hforeign))
    | _ => exact ⟨_, rfl⟩
  · -- the call delivers a record of the shipment
    cases call with
    | handleEvent env event =>
      have htx : event.transactionId = s.txid := by
        by_contra hne
        exact hforeign (foreign_handleEvent.2 hne)
      have hmem : (env.nowNs, event) ∈ ownDeliveries s.txid (done ++ [Call.handleEvent env event]) := by
        rw [ownDeliveries_append]
        exact List.mem_append_right _ (by simp [ownDeliveries, deliveries, htx])
      obtain ⟨i, hi, heq⟩ := h.eq_record (mem_own_mono hnext hmem)
      obtain rfl : event = s.record i := heq
      have hnew := h.not_mem_arrivals hi hnext
      refine hprogress.step_own hcookie hi hnew fun d hd => ?_
      exact h.window d (mem_own_mono hnext hd) _ (mem_own_mono hnext hmem)
    | _ => exact absurd rfl hforeign

/-- All chunks have arrived when all records have been delivered. -/
theorem complete_iff (h : Shipped s calls) (hdone : done <+: calls) :
    s.Complete (arrivals s.txid done) ↔ ∀ e ∈ (List.range s.count).map s.record, e ∈ eventRecords done := by
  rw [List.forall_mem_map]
  refine forall_congr' fun i => ?_
  rw [List.mem_range]
  refine imp_congr_right fun hi => ?_
  rw [h.mem_arrivals hdone hi, eventRecords]
  constructor
  · exact fun hmem => List.map_subset _ (List.filter_subset_self _) hmem
  · intro hmem
    obtain ⟨d, hd, heq⟩ := List.mem_map.1 hmem
    refine List.mem_map.2 ⟨d, List.mem_filter.2 ⟨hd, ?_⟩, heq⟩
    rw [heq]
    exact beq_self_eq_true _

end Shipped

/-! ### The kernel's shipment -/

/-- The situation in question: the kernel program traces a transaction with a readable parcel, and
`calls` delivers each of its chunk records once, among any other calls, while there is memory for tables of `room`. -/
structure Delivered (ctx : ProbeContext) (tr : BinderTransactionData) (parcel : Bytes) (room : TableRoom)
    (calls : List Call) : Prop where
  traced : Traced ctx tr
  size : tr.dataSize.toNat = parcel.length
  nonempty : 1 ≤ parcel.length
  fits : parcel.length ≤ maxChunks * chunkSize
  readable : ParcelReadable ctx tr parcel
  reserved : ∀ i, i < maxChunks → ctx.chunkSlot i ≠ none
  /-- In any order, each once. -/
  once : ((ownDeliveries ctx.ktime calls).map Prod.snd).Perm
    (chunkRecords (kprobeBinderTransaction ctx).records)
  /-- The clock does not run backwards. -/
  clock : (deliveries calls).Pairwise fun d d' => d.1 ≤ d'.1
  /-- The transaction's records arrive within the time to live of a buffer. -/
  window : ∀ d ∈ ownDeliveries ctx.ktime calls, ∀ d' ∈ ownDeliveries ctx.ktime calls,
    d'.1 ≤ d.1 + staleBufferTTL
  /-- A transaction has one size. -/
  sizes : ∀ e ∈ eventRecords calls, ∀ e' ∈ eventRecords calls,
    e.transactionId = e'.transactionId → e.dataSize = e'.dataSize
  room : ∀ env e, .handleEvent env e ∈ calls → env.room = room

/-- The parcel is put together: up to every point of the schedule the daemon is alive and has routed
nothing for the transaction while a chunk is missing, and then exactly one event, with the parcel. -/
def Reassembled (ctx : ProbeContext) (parcel : Bytes) (calls : List Call) : Prop :=
  ∀ done, done <+: calls → ∃ c, run step newEventCollector done = .ok c ∧
    ((∃ e ∈ chunkRecords (kprobeBinderTransaction ctx).records, e ∉ eventRecords done) →
      c.routedFor ctx.ktime = []) ∧
    ((∀ e ∈ chunkRecords (kprobeBinderTransaction ctx).records, e ∈ eventRecords done) →
      ∃ r, c.routedFor ctx.ktime = [r] ∧ r.event.payload.parcelData = parcel ∧
        r.event.payload.dataSize.toNat = parcel.length)

/-- The chunk records of a traced parcel are a shipment, when no reservation fails. -/
theorem exists_slots {ctx : ProbeContext} {tr : BinderTransactionData} (traced : Traced ctx tr)
    (nonempty : 1 ≤ tr.dataSize.toNat) (fits : tr.dataSize.toNat ≤ maxChunks * chunkSize)
    (reserved : ∀ i, i < maxChunks → ctx.chunkSlot i ≠ none) :
    ∃ slot, let s := kernelShipment ctx tr slot nonempty fits
      chunkRecords (kprobeBinderTransaction ctx).records = (List.range s.count).map s.record := by
  let slot : Nat → ChunkData := fun i => (ctx.chunkSlot i).getD (List.Vector.replicate _ 0)
  have hslot : ∀ i, i < maxChunks → ctx.chunkSlot i = some (slot i) := by
    intro i hi
    obtain ⟨data, hdata⟩ := Option.ne_none_iff_exists'.1 (reserved i hi)
    simp only [slot, hdata, Option.getD_some]
  let s := kernelShipment ctx tr slot nonempty fits
  have hcount : (Kernel.totalChunks tr.dataSize).toNat = s.count := (totalChunks_of_le fits).1.symm
  have hle := s.count_le
  refine ⟨slot, ?_⟩
  rw [chunkRecords_kprobe traced, if_neg (by omega), chunkLoop_eq hslot (Nat.le_refl _), hcount,
    Nat.sub_zero, Nat.min_eq_right hle, ← List.range_eq_range']
  rfl

namespace Delivered

variable {ctx : ProbeContext} {tr : BinderTransactionData} {parcel : Bytes} {room : TableRoom} {calls : List Call}

/-- The transaction's chunk records, as a shipment of the parcel. -/
theorem exists_shipment (h : Delivered ctx tr parcel room calls) :
    ∃ s : Shipment, s.txid = ctx.ktime ∧ s.template.cookie = 0 ∧
      s.template.dataSize.toNat = parcel.length ∧ s.parcel = parcel ∧
      chunkRecords (kprobeBinderTransaction ctx).records = (List.range s.count).map s.record := by
  have hnonempty : 1 ≤ tr.dataSize.toNat := h.size ▸ h.nonempty
  obtain ⟨slot, hrecords⟩ := exists_slots h.traced hnonempty (h.size ▸ h.fits) h.reserved
  refine ⟨_, rfl, rfl, h.size, ?_, hrecords⟩
  generalize hs : kernelShipment ctx tr slot _ _ = s at hrecords
  have hcount : s.count = (parcel.length + 1023) / 1024 := by
    rw [s.count_eq, ← h.size, ← hs]
    rfl
  have hpos := s.count_pos
  obtain ⟨n, hn⟩ : ∃ n, s.count = n + 1 := ⟨s.count - 1, by omega⟩
  have htake := take_chunks (n := n) h.size h.readable slot (by change n * 1024 < _; omega)
    (by change _ ≤ (n + 1) * 1024; omega)
  rw [← hn, ← h.size] at htake
  rw [← hs] at htake ⊢
  exact htake

end Delivered

/-- **Splitting and reassembly**: when the chunk records of a parcel are delivered, the parcel is put
together if and only if every record of another transaction among the calls is one that
`handleEvent` survives: its index is no negative `int`, and there is memory for its table. -/
theorem reassembled_iff {ctx : ProbeContext} {tr : BinderTransactionData} {parcel : Bytes} {room : TableRoom}
    {calls : List Call} (h : Delivered ctx tr parcel room calls) :
    Reassembled ctx parcel calls ↔
      ∀ e ∈ eventRecords calls, e.transactionId ≠ ctx.ktime →
        e.chunkIndex.toNat < 2 ^ 63 ∧ (totalChunks e.dataSize).toNat ≤ room.slots := by
  obtain ⟨s, htx, hcookie, hsize, hparcel, hrecords⟩ := h.exists_shipment
  constructor
  · intro hre e he _
    obtain ⟨env, hcall⟩ := mem_eventRecords_iff.1 he
    obtain ⟨done, rest, hsplit⟩ := List.append_of_mem hcall
    have hnext : done ++ [Call.handleEvent env e] <+: calls := ⟨rest, by simp [hsplit]⟩
    obtain ⟨c', hrun', -⟩ := hre _ hnext
    obtain ⟨c, hrun, hstep⟩ := run_snoc_ok hrun'
    have hharmless : Harmless env e := by
      refine harmless_of_handleEvent (run_sized hrun) hstep fun env' e' he' htx' => ?_
      have hcall' : Call.handleEvent env' e' ∈ calls := hnext.subset (List.mem_append_left _ he')
      exact ⟨h.sizes e' (mem_eventRecords_iff.2 ⟨env', hcall'⟩) e he htx',
        (h.room env' e' hcall').trans (h.room env e hcall).symm⟩
    rw [← h.room env e hcall]
    exact hharmless
  · intro hothers done hdone
    have hshipped : Shipped s calls := by
      refine ⟨?_, h.clock, ?_⟩
      · rw [htx, ← hrecords]
        exact h.once
      · rw [htx]
        exact h.window
    have hharmless : ∀ env e, .handleEvent env e ∈ calls → e.transactionId ≠ s.txid → Harmless env e := by
      intro env e hcall hne
      rw [Harmless, EventCollector.FitsTable, h.room env e hcall]
      exact hothers e (mem_eventRecords_iff.2 ⟨env, hcall⟩) (htx ▸ hne)
    obtain ⟨c, hrun, hprogress⟩ := hshipped.progress hcookie hharmless hdone
    rw [hrecords, ← htx]
    refine ⟨c, hrun, fun hmissing => ?_, fun hall => ?_⟩
    · refine hprogress.waiting fun hcomplete => ?_
      obtain ⟨e, he, habsent⟩ := hmissing
      exact habsent ((hshipped.complete_iff hdone).1 hcomplete e he)
    · obtain ⟨ref, nowNs, stackTrace, cookie, hrouted⟩ :=
        hprogress.routed ((hshipped.complete_iff hdone).2 hall)
      refine ⟨_, hrouted, hparcel, ?_⟩
      change (UInt32.ofNat s.parcel.length).toNat = parcel.length
      rw [hparcel, UInt32.toNat_ofNat']
      exact Nat.mod_eq_of_lt (h.fits.trans_lt (by decide))

/-! ### Two schedules -/

/-- The one chunk record of a request of `dataSize` bytes traced at time `ktime`. -/
def sampleRecord (ktime dataSize : UInt64) : BinderTraceEvent :=
  chunkRecord { sampleContext dataSize with ktime } (sampleData dataSize) 0 (List.Vector.replicate _ 0)

/-- A schedule that delivers the record of a parcel of 20 zero bytes once. -/
theorem delivered_twentyBytes {calls : List Call}
    (once : ((ownDeliveries 1 calls).map Prod.snd).Perm [sampleRecord 1 20])
    (clock : (deliveries calls).Pairwise fun d d' => d.1 ≤ d'.1)
    (window : ∀ d ∈ ownDeliveries 1 calls, ∀ d' ∈ ownDeliveries 1 calls, d'.1 ≤ d.1 + staleBufferTTL)
    (sizes : ∀ e ∈ eventRecords calls, ∀ e' ∈ eventRecords calls,
      e.transactionId = e'.transactionId → e.dataSize = e'.dataSize)
    (room : ∀ env e, .handleEvent env e ∈ calls → env.room = idleEnv.room) :
    Delivered (sampleContext 20) (sampleData 20) (List.replicate 20 0) idleEnv.room calls where
  traced := ⟨rfl, 0, rfl, .inl rfl⟩
  size := by decide
  nonempty := by decide
  fits := by decide
  readable := by
    intro i k _ hlt
    rw [List.getElem?_replicate, if_pos (by simpa using hlt)]
    rfl
  reserved := fun _ _ => Option.some_ne_none _
  once := by
    have hrecords : chunkRecords (kprobeBinderTransaction (sampleContext 20)).records = [sampleRecord 1 20] := by
      decide +kernel
    rw [hrecords]
    exact once
  clock
  window
  sizes
  room

/-- A parcel of 20 zero bytes, delivered alone. -/
theorem twentyBytes_reassembled :
    Delivered (sampleContext 20) (sampleData 20) (List.replicate 20 0) idleEnv.room
        [.handleEvent idleEnv (sampleRecord 1 20)] ∧
      Reassembled (sampleContext 20) (List.replicate 20 0) [.handleEvent idleEnv (sampleRecord 1 20)] := by
  have hdelivered : Delivered (sampleContext 20) (sampleData 20) (List.replicate 20 0) idleEnv.room
      [.handleEvent idleEnv (sampleRecord 1 20)] :=
    delivered_twentyBytes (by decide +kernel) (List.pairwise_singleton _ _) (by decide +kernel) (by decide +kernel)
      (by simp)
  refine ⟨hdelivered, (reassembled_iff hdelivered).2 fun e he hne => ?_⟩
  obtain rfl : e = sampleRecord 1 20 := List.mem_singleton.1 he
  exact absurd rfl hne

/-- The kernel program writes a record for a request of `2 ^ 60 + 1` bytes; delivered before a small
parcel's record, it ends the daemon. -/
theorem hugeSize_ends_daemon :
    chunkRecords (kprobeBinderTransaction { sampleContext (2 ^ 60 + 1) with ktime := 2 }).records =
        [sampleRecord 2 (2 ^ 60 + 1)] ∧
      Delivered (sampleContext 20) (sampleData 20) (List.replicate 20 0) idleEnv.room
        [.handleEvent idleEnv (sampleRecord 2 (2 ^ 60 + 1)), .handleEvent idleEnv (sampleRecord 1 20)] ∧
      ¬ Reassembled (sampleContext 20) (List.replicate 20 0)
        [.handleEvent idleEnv (sampleRecord 2 (2 ^ 60 + 1)), .handleEvent idleEnv (sampleRecord 1 20)] := by
  refine ⟨by decide +kernel, ?_, fun hre => ?_⟩
  · refine delivered_twentyBytes (by decide +kernel) (by decide +kernel) (by decide +kernel) (by decide +kernel) ?_
    rintro env e he
    rcases List.mem_pair.1 he with heq | heq <;> (cases heq; rfl)
  · obtain ⟨c, hrun, -⟩ := hre _ List.prefix_rfl
    have hdead : endsIn (fun _ => true) (run step newEventCollector
        [.handleEvent idleEnv (sampleRecord 2 (2 ^ 60 + 1)),
          .handleEvent idleEnv (sampleRecord 1 20)]) = false := by decide +kernel
    rw [hrun] at hdead
    cases hdead

end BinderTracer.Daemon
