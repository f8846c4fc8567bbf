import BinderTracer.Daemon.Provenance
import BinderTracer.Daemon.TransactionIdentity

/-!
# A ring that loses records

The ring may be full when a record is to be written, and the daemon drops buffers, stacks and events that wait too
long; nothing is made up on the way, as long as no two executions read the same clock. Whatever part of the records
of the traced executions arrives, each at most once and in any order, every event that the collector emits is the
trace of one execution, complete with all its bytes, and no two events trace the same execution
(`emitted_trace_executions`).
-/

namespace BinderTracer.Daemon

open BinderTracer.Kernel BinderTracer.Lib

/-- Executions of the kernel program, no two of which give their records the same name, and calls that deliver
some of their records, each at most once, in any order and among any other calls. -/
structure Lossy (executions : List Execution) (calls : List Call) : Prop where
  nodup : executions.Nodup
  apart : ∀ x ∈ executions, ∀ y ∈ executions, x.records ≠ [] → y.records ≠ [] → x.ctx.ktime = y.ctx.ktime → x = y
  delivered : List.Subperm (programRecords calls) (executions.flatMap Execution.records)

/-- The event is a complete trace of the execution: the sender, the fields of the transaction, and all the bytes
of its parcel if they could be read. -/
structure Execution.TracedAs (x : Execution) (e : BinderEventPayload) (tr : BinderTransactionData) : Prop where
  traced : Traced x.ctx tr
  pid : e.pid = x.ctx.currentPid
  uid : e.uid = x.ctx.currentUid
  code : e.code = tr.code
  flags : e.flags = tr.flags
  isReply : e.isReply = if x.ctx.reply then 1 else 0
  binderDev : e.binderDev = binderDev x.ctx.contextName
  targetRef : e.targetRef = tr.target
  length : e.parcelData.length = tr.dataSize.toNat
  parcel : ∀ parcel : Bytes, tr.dataSize.toNat = parcel.length → ParcelReadable x.ctx tr parcel → e.parcelData = parcel

/-- An event made from the metadata of a chunk record has the fields of the execution. -/
theorem Execution.tracedAs_toPayload {x : Execution} {tr : BinderTransactionData} (htraced : Traced x.ctx tr)
    {i : Nat} {slot : ChunkData} {cookie : UInt64} {nowNs : Int} {parcelData : Bytes} {st : Option StackTrace}
    (hlength : parcelData.length = tr.dataSize.toNat)
    (hparcel : ∀ parcel : Bytes, tr.dataSize.toNat = parcel.length → ParcelReadable x.ctx tr parcel →
      parcelData = parcel) :
    x.TracedAs (TxMeta.toPayload { TxMeta.ofRecord (chunkRecord x.ctx tr i slot) with cookie := cookie } nowNs
      parcelData st) tr :=
  ⟨htraced, rfl, rfl, rfl, rfl, rfl, rfl, rfl, hlength, hparcel⟩

/-- What a sideband fills in does not matter. -/
theorem Execution.TracedAs.of_traced {x : Execution} {tr : BinderTransactionData} {e e' : BinderEventPayload}
    (h : x.TracedAs e tr) (hsame : e'.traced = e.traced) : x.TracedAs e' tr := by
  cases e
  cases e'
  cases hsame
  exact ⟨h.traced, h.pid, h.uid, h.code, h.flags, h.isReply, h.binderDev, h.targetRef, h.length, h.parcel⟩

namespace Lossy

variable {executions : List Execution} {calls : List Call}

theorem exists_execution (h : Lossy executions calls) {r : RingRecord} (hr : r ∈ programRecords calls) :
    ∃ x ∈ executions, r ∈ x.records :=
  List.mem_flatMap.1 (h.delivered.subset hr)

/-- A record that was delivered under the name of an execution is one that it wrote. -/
theorem mem_records (h : Lossy executions calls) {x : Execution} (hx : x ∈ executions) (hxr : x.records ≠ [])
    {e : BinderTraceEvent} (he : e ∈ eventRecords calls) (hname : e.transactionId = x.ctx.ktime) :
    .main e ∈ x.records := by
  obtain ⟨y, hy, hmem⟩ := h.exists_execution (mem_eventRecords.1 he)
  obtain ⟨tr, -, hktime, -⟩ := Execution.of_main hmem
  have hyx : y = x := h.apart y hy x hx (List.ne_nil_of_mem hmem) hxr (hktime.symm.trans hname)
  exact hyx ▸ hmem

/-- The chunks of a complete buffer, by the execution that wrote them. -/
theorem chunks_eq (h : Lossy executions calls) {x : Execution} (hx : x ∈ executions) (hxr : x.records ≠ [])
    {tr : BinderTransactionData} (htr : x.ctx.tr = some tr) {buf : TxBuffer}
    (hassembled : Assembled (eventRecords calls) x.ctx.ktime buf)
    (hcomplete : buf.chunks.all Option.isSome = true) :
    ∃ slot : Nat → ChunkData,
      buf.chunks = (List.range buf.chunks.length).map fun i => some (chunkRecord x.ctx tr i (slot i)).chunkData := by
  have hslot : ∀ i, ∃ slot, i < buf.chunks.length →
      buf.chunks[i]? = some (some (chunkRecord x.ctx tr i slot).chunkData) := by
    intro i
    by_cases hi : i < buf.chunks.length
    · obtain ⟨data, hdata⟩ := Option.isSome_iff_exists.1 (List.all_eq_true.1 hcomplete _ (List.getElem_mem hi))
      have hentry : buf.chunks[i]? = some (some data) := by rw [List.getElem?_eq_getElem hi, hdata]
      obtain ⟨e, he, hname, hindex, rfl⟩ := hassembled.slots i data hentry
      obtain ⟨tr', htraced, -, -, -, slot, hchunk⟩ := Execution.of_main (h.mem_records hx hxr he hname)
      obtain rfl := Option.some.inj (htr.symm.trans htraced.1)
      rw [hindex] at hchunk
      exact ⟨slot, fun _ => hchunk ▸ hentry⟩
    · exact ⟨List.Vector.replicate _ 0, fun hlt => absurd hlt hi⟩
  choose slot hslot using hslot
  refine ⟨slot, List.ext_getElem? fun i => ?_⟩
  rw [List.getElem?_map]
  by_cases hi : i < buf.chunks.length
  · rw [hslot i hi, List.getElem?_range hi]
    rfl
  · rw [List.getElem?_eq_none (by omega), List.getElem?_eq_none (by rw [List.length_range]; omega)]
    rfl

/-- **A routed event is a complete trace** of the execution whose name it bears. -/
theorem tracedAs_of_routed (h : Lossy executions calls) {c : EventCollector}
    (hrun : run step newEventCollector calls = .ok c) {r : Routing} (hr : r ∈ c.routed) :
    ∃ x ∈ executions, x.records ≠ [] ∧ x.ctx.ktime = r.transactionId ∧
      ∃ tr, x.TracedAs r.event.payload tr := by
  obtain ⟨buf, hwhole⟩ := (run_sourced hrun).routed r hr
  obtain ⟨e, he, hname, hlength, cookie, hmeta⟩ := hwhole.assembled.first
  obtain ⟨x, hx, hmem⟩ := h.exists_execution (mem_eventRecords.1 he)
  obtain ⟨tr, htraced, hktime, hdata, -, first, hfirst⟩ := Execution.of_main hmem
  have hxr : x.records ≠ [] := List.ne_nil_of_mem hmem
  have hkey : x.ctx.ktime = r.transactionId := hktime.symm.trans hname
  obtain ⟨slot, hchunks⟩ := h.chunks_eq hx hxr htraced.1 (hkey ▸ hwhole.assembled) hwhole.complete
  -- the size that the record announces is that of the chunk table
  have hcount : buf.chunks.length = (totalChunks tr.dataSize).toNat := by rw [hlength, hdata]
  have hlow := hwhole.low
  have hhigh := hwhole.high
  rw [hcount] at hlow hhigh
  obtain ⟨hpos, hmax⟩ := Attributed.dataSize_of_totalChunks hlow hhigh
  rw [toNat_totalChunks] at hcount
  have hlt := tr.dataSize.toNat_lt
  have hsize : buf.txMeta.dataSize = tr.dataSize := by rw [hmeta]; exact hdata
  obtain ⟨nowNs, hpayload⟩ := hwhole.payload
  have hparcel : r.event.payload.parcelData = (mergeChunks buf.chunks).take tr.dataSize.toNat := by
    rw [hpayload, hsize]
    rfl
  change tr.dataSize.toNat ≤ 16 * 1024 at hmax
  have hmerged : (mergeChunks buf.chunks).length = buf.chunks.length * 1024 := length_mergeChunks hwhole.complete
  have hlengthParcel : r.event.payload.parcelData.length = tr.dataSize.toNat := by
    rw [hparcel, List.length_take, hmerged]
    omega
  refine ⟨x, hx, hxr, hkey, tr, ?_⟩
  rw [hpayload, hmeta, hfirst]
  refine Execution.tracedAs_toPayload htraced ?_ fun parcel hparcelSize hreadable => ?_
  · rw [← hfirst, ← hmeta, hsize, ← hparcel]
    exact hlengthParcel
  · obtain ⟨n, hn⟩ : ∃ n, buf.chunks.length = n + 1 := ⟨buf.chunks.length - 1, by omega⟩
    have htake := take_chunks (n := n) hparcelSize hreadable slot (by change n * 1024 < _; omega)
      (by change _ ≤ (n + 1) * 1024; omega)
    rw [← hfirst, ← hmeta, hsize, hparcelSize, hchunks, hn, mergeChunks, List.flatMap_map]
    exact htake

/-- An execution writes its first chunk once. -/
theorem firstRecords_execution (x : Execution) (k : UInt64) : firstRecords (chunkRecords x.records) k ≤ 1 := by
  cases htr : x.ctx.tr with
  | none =>
    have hnone : chunkRecords x.records = [] := by
      rw [List.eq_nil_iff_forall_not_mem]
      intro e he
      obtain ⟨r, hr, heq⟩ := List.mem_filterMap.1 he
      cases r <;> cases heq
      obtain ⟨tr, htraced, -⟩ := Execution.of_main hr
      exact absurd (htr.symm.trans htraced.1) (by simp)
    rw [hnone]
    exact Nat.zero_le 1
  | some tr =>
    by_cases hnil : chunkRecords x.records = []
    · rw [hnil]
      exact Nat.zero_le 1
    have htraced := traced_of_chunkRecords htr hnil
    rw [Execution.records, chunkRecords_kprobe htraced]
    split
    · exact Nat.zero_le 1
    change firstRecords (chunkLoop x.ctx tr (15 + 1) 0) k ≤ 1
    unfold chunkLoop
    split
    · exact Nat.zero_le 1
    split
    · exact Nat.zero_le 1
    next slot _ =>
    -- the records after the first have larger indices
    have hrest : firstRecords (chunkLoop x.ctx tr 15 (0 + 1)) k = 0 := by
      refine List.countP_eq_zero.2 fun e he hfirst => ?_
      obtain ⟨j, slot', hlow, hj, -, -, rfl⟩ := mem_chunkLoop he
      have hzero : UInt64.ofNat j = 0 := by
        simp only [Bool.and_eq_true, beq_iff_eq] at hfirst
        exact hfirst.2
      have hvalue := congrArg UInt64.toNat hzero
      rw [UInt64.toNat_ofNat'] at hvalue
      have : (0 : UInt64).toNat = 0 := rfl
      omega
    have hcons := Once.firstRecords_append [chunkRecord x.ctx tr 0 slot] (chunkLoop x.ctx tr 15 (0 + 1)) k
    have hone : firstRecords [chunkRecord x.ctx tr 0 slot] k ≤ 1 := List.countP_le_length
    rw [List.singleton_append] at hcons
    omega

/-- The first chunk of an execution is delivered at most once. -/
theorem firstRecords_le (h : Lossy executions calls) {x : Execution} (hx : x ∈ executions) (hxr : x.records ≠ []) :
    firstRecords (eventRecords calls) x.ctx.ktime ≤ 1 := by
  have hsub : List.Subperm (eventRecords calls) (chunkRecords (executions.flatMap Execution.records)) := by
    obtain ⟨some, hperm, hsublist⟩ := h.delivered
    rw [← chunkRecords_programRecords]
    exact ⟨chunkRecords some, hperm.filterMap _, hsublist.filterMap _⟩
  refine (hsub.countP_le _).trans ?_
  rw [List.countP_eq_length_filter, chunkRecords, List.filterMap_flatMap, List.filter_flatMap,
    flatMap_eq_of_forall_ne h.nodup hx, ← List.countP_eq_length_filter]
  · exact firstRecords_execution x x.ctx.ktime
  · intro y hy hne
    refine List.filter_eq_nil_iff.2 fun e he hfirst => hne ?_
    obtain ⟨r, hr, heq⟩ := List.mem_filterMap.1 he
    cases r <;> cases heq
    obtain ⟨tr, -, hname, -⟩ := Execution.of_main hr
    simp only [Bool.and_eq_true, beq_iff_eq] at hfirst
    exact h.apart y hy x hx (List.ne_nil_of_mem hr) hxr (hname.symm.trans hfirst.1)

/-- Two routed events with one name are the same. -/
theorem routed_unique (h : Lossy executions calls) {c : EventCollector}
    (hrun : run step newEventCollector calls = .ok c) {r r' : Routing} (hr : r ∈ c.routed) (hr' : r' ∈ c.routed)
    (hname : r.transactionId = r'.transactionId) : r = r' := by
  obtain ⟨x, hx, hxr, hkey, -⟩ := h.tracedAs_of_routed hrun hr
  have hcount : c.routed.countP (fun r => r.transactionId == x.ctx.ktime) ≤ 1 :=
    (Nat.le_add_right _ _).trans ((run_once hrun x.ctx.ktime).trans (h.firstRecords_le hx hxr))
  rw [List.countP_eq_length_filter] at hcount
  have hmem : r ∈ c.routed.filter fun r => r.transactionId == x.ctx.ktime :=
    List.mem_filter.2 ⟨hr, beq_iff_eq.2 hkey.symm⟩
  have hmem' : r' ∈ c.routed.filter fun r => r.transactionId == x.ctx.ktime :=
    List.mem_filter.2 ⟨hr', beq_iff_eq.2 (hname ▸ hkey.symm)⟩
  obtain ⟨only, honly⟩ := List.length_eq_one_iff.1 (le_antisymm hcount (List.length_pos_of_mem hmem))
  rw [honly] at hmem hmem'
  exact (List.mem_singleton.1 hmem).trans (List.mem_singleton.1 hmem').symm

/-- No two emitted events have the same name. -/
theorem nodup_emitted (h : Lossy executions calls) {c : EventCollector}
    (hrun : run step newEventCollector calls = .ok c) : (c.emitted.map MainEvent.transactionId).Nodup := by
  obtain ⟨horiginates, haccounted, -⟩ := run_originates hrun
  have hrefs : (c.emitted.map MainEvent.ref).Nodup := by
    refine List.nodup_iff_count_le_one.2 fun x => ?_
    have hcopies := haccounted.atMostOnce x
    rw [EventCollector.copies_eq] at hcopies
    have : occurrences c.emitted x ≤ 1 := by omega
    exact this
  rw [List.Nodup, List.pairwise_map] at hrefs ⊢
  refine hrefs.imp_of_mem fun {ev ev'} hev hev' hne hname => hne ?_
  obtain ⟨r, hr, hsame⟩ := horiginates ev (List.mem_append_left _ hev)
  obtain ⟨r', hr', hsame'⟩ := horiginates ev' (List.mem_append_left _ hev')
  have hinner : ∀ r ∈ c.routed, r.event.transactionId = r.transactionId := by
    intro r hr
    obtain ⟨buf, hwhole⟩ := (run_sourced hrun).routed r hr
    exact hwhole.inner
  have heq : r = r' := by
    refine h.routed_unique hrun hr hr' ?_
    rw [← hinner r hr, ← hinner r' hr', ← hsame.transactionId, ← hsame'.transactionId, hname]
  rw [hsame.ref, hsame'.ref, heq]

/-- The execution that an emitted event traces. -/
theorem exists_traced (h : Lossy executions calls) {c : EventCollector}
    (hrun : run step newEventCollector calls = .ok c) {ev : MainEvent} (hev : ev ∈ c.emitted) :
    ∃ x ∈ executions, x.ctx.ktime = ev.transactionId ∧ (∃ tr, x.TracedAs ev.payload tr) ∧
      ∀ st, ev.payload.stackTrace = some st → ∃ record, .stack record ∈ x.records ∧ Symbolized calls record st := by
  obtain ⟨r, hr, hsame⟩ := (run_originates hrun).1 ev (List.mem_append_left _ hev)
  obtain ⟨buf, hwhole⟩ := (run_sourced hrun).routed r hr
  obtain ⟨x, hx, hxr, hkey, tr, htraced⟩ := h.tracedAs_of_routed hrun hr
  have hname : x.ctx.ktime = ev.transactionId := by rw [hsame.transactionId, hwhole.inner, hkey]
  refine ⟨x, hx, hname, ⟨tr, htraced.of_traced hsame.payload⟩, fun st hst => ?_⟩
  have hstack : r.event.payload.stackTrace = some st :=
    (congrArg BinderEventPayload.stackTrace hsame.payload).symm.trans hst
  obtain ⟨record, hrecord, hrecordName, hsymbolized⟩ := (run_attributed hrun).stack r hr st hstack
  obtain ⟨y, hy, hyrecord⟩ := h.exists_execution hrecord
  have hyx : y = x := h.apart y hy x hx (List.ne_nil_of_mem hyrecord) hxr
    ((Execution.of_stack hyrecord).symm.trans (hrecordName.trans hkey.symm))
  exact ⟨record, hyx ▸ hyrecord, hsymbolized⟩

end Lossy

/-- **Nothing is made up** where no two executions share a name: whatever records are lost and in whatever order the
others arrive, every event that the collector emits is a complete trace of the execution whose name it bears, its
stack trace comes from the stack record of that execution, and no two events bear the same name. -/
theorem emitted_trace_executions {executions : List Execution} {calls : List Call} {c : EventCollector}
    (h : Lossy executions calls) (hrun : run step newEventCollector calls = .ok c) :
    (∀ ev ∈ c.emitted, ∃ x ∈ executions, x.ctx.ktime = ev.transactionId ∧ (∃ tr, x.TracedAs ev.payload tr) ∧
      ∀ st, ev.payload.stackTrace = some st → ∃ record, .stack record ∈ x.records ∧ Symbolized calls record st) ∧
    (c.emitted.map MainEvent.transactionId).Nodup :=
  ⟨fun _ hev => h.exists_traced hrun hev, h.nodup_emitted hrun⟩

/-- Two requests, of which the first loses its second chunk; in the end the sweeper gives the other one up. -/
def chunkLost : List Call :=
  [(filledRequest 0 1 100 1).deliver 0, (filledRequest 1 2 200 2).deliver 0, (filledRequest 1 2 200 2).deliver 1,
    .runSweep (2 * pendingMainTTL) ⟨id, List.Perm.refl⟩ ⟨id, List.Perm.refl⟩]

theorem lossy_chunkLost : Lossy (twoRequests 2) chunkLost where
  nodup := (trace_inTurn 2).nodup
  apart := by
    intro x hx y hy _ _ hname
    rcases List.mem_pair.1 hx with rfl | rfl <;> rcases List.mem_pair.1 hy with rfl | rfl
    · rfl
    · exact absurd hname (by decide)
    · exact absurd hname (by decide)
    · rfl
  delivered := by
    have hall : List.Subperm (programRecords (inTurn 2)) ((twoRequests 2).flatMap Execution.records) :=
      (trace_inTurn 2).delivered.subperm
    refine List.Subperm.trans (List.Sublist.subperm ?_) hall
    exact .cons_cons _ (.cons_cons _ (.cons _ (.refl _)))

/-- The event of the second request is all that comes out. -/
theorem emitted_trace_executions_chunkLost :
    ∃ c, run step newEventCollector chunkLost = .ok c ∧
      c.emitted.map (fun ev => (ev.payload.pid, ev.payload.parcelData)) = [(200, List.replicate 1025 2)] ∧
      ∀ ev ∈ c.emitted, ∃ x ∈ twoRequests 2, ∃ tr, x.TracedAs ev.payload tr := by
  obtain ⟨c, hrun, hemitted⟩ : ∃ c, run step newEventCollector chunkLost = .ok c ∧
      c.emitted.map (fun ev => (ev.payload.pid, ev.payload.parcelData)) = [(200, List.replicate 1025 2)] :=
    exists_of_endsIn (by decide +kernel)
  refine ⟨c, hrun, hemitted, fun ev hev => ?_⟩
  obtain ⟨x, hx, -, htraced, -⟩ := (emitted_trace_executions lossy_chunkLost hrun).1 ev hev
  exact ⟨x, hx, htraced⟩

end BinderTracer.Daemon
