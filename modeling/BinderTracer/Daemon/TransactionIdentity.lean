import BinderTracer.Daemon.Reassembly

/-!
# One event, one transaction

The kernel program names a transaction by the clock reading of its execution, and the daemon keys chunk
buffers and stacks by that name alone. The clock increases on each CPU, and two CPUs may read the same
value. As long as no two CPUs do, and no record ends the daemon, every event is made from the records of one
execution, and the events correspond to the executions that send a parcel (`events_unmixed`). Two parcels
with the same name are mixed (`sameName_mixes`).
-/

namespace BinderTracer.Daemon

open BinderTracer.Kernel BinderTracer.Lib

/-! ### Stacks that wait for their event -/

namespace EventCollector

theorem lookup_evictStalePendingStack {c : EventCollector} {nowNs : Int} {k : UInt64} {p : PendingStackEntry}
    (h : (c.evictStalePendingStack nowNs).pendingStack.lookup k = some p) :
    c.pendingStack.lookup k = some p := by
  change (c.pendingStack.retain _).lookup k = some p at h
  rw [AList.lookup_retain] at h
  exact (Option.filter_eq_some_iff.1 h).1

theorem lookup_pendingStack_maybeCleanup {c : EventCollector} {env : EventEnv} {k : UInt64}
    {p : PendingStackEntry} (h : (c.maybeCleanup env).pendingStack.lookup k = some p) :
    c.pendingStack.lookup k = some p := by
  unfold maybeCleanup at h
  split at h
  · exact h
  · exact lookup_evictStalePendingStack h

end EventCollector

/-- The records of the main kernel program that `calls` delivers. -/
def programRecords (calls : List Call) : List RingRecord :=
  calls.filterMap fun
    | .handleEvent _ event => some (.main event)
    | .handleStackRecord _ _ st => some (.stack st)
    | _ => none

theorem programRecords_append (calls more : List Call) :
    programRecords (calls ++ more) = programRecords calls ++ programRecords more :=
  List.filterMap_append

theorem chunkRecords_programRecords (calls : List Call) :
    chunkRecords (programRecords calls) = eventRecords calls := by
  rw [chunkRecords, programRecords, eventRecords, deliveries, List.filterMap_filterMap, List.map_filterMap]
  refine List.filterMap_congr fun call _ => ?_
  cases call <;> rfl

theorem mem_eventRecords {calls : List Call} {e : BinderTraceEvent} :
    e ∈ eventRecords calls ↔ .main e ∈ programRecords calls := by
  rw [← chunkRecords_programRecords, chunkRecords, List.mem_filterMap]
  constructor
  · rintro ⟨r, hr, heq⟩
    cases r <;> cases heq
    exact hr
  · exact fun h => ⟨.main e, h, rfl⟩

/-- A stack record `record`, delivered by `calls` and symbolized by one of them as `st`. -/
def Symbolized (calls : List Call) (record : StackTraceEvent) (st : StackTrace) : Prop :=
  ∃ env event, .handleEvent env event ∈ calls ∧ st = env.symbolizeStackEvent record

/-- What is in the collector was delivered: a stack that waits is under its own name, and an event that was
completed has a chunk record of its name and, if it has a stack, a stack record of its name. -/
structure Attributed (calls : List Call) (c : EventCollector) : Prop where
  pending : ∀ k p, c.pendingStack.lookup k = some p →
    p.stack.transactionId = k ∧ .stack p.stack ∈ programRecords calls
  chunks : ∀ r ∈ c.routed, ∃ e, .main e ∈ programRecords calls ∧ e.transactionId = r.transactionId ∧
    1 ≤ e.dataSize.toNat ∧ e.dataSize.toNat ≤ maxChunks * chunkSize
  stack : ∀ r ∈ c.routed, ∀ st, r.event.payload.stackTrace = some st → ∃ record,
    .stack record ∈ programRecords calls ∧ record.transactionId = r.transactionId ∧ Symbolized calls record st

namespace Attributed

variable {calls : List Call} {c c' : EventCollector}

theorem initial : Attributed [] newEventCollector where
  pending := fun k p hp => by cases hp
  chunks := fun r hr => by cases hr
  stack := fun r hr => by cases hr

/-- A call that routes nothing: the stacks that wait were there before or have just been delivered. -/
theorem quiet {call : Call} (h : Attributed calls c) (hrouted : c'.routed = c.routed)
    (hpending : ∀ k p, c'.pendingStack.lookup k = some p → c.pendingStack.lookup k = some p ∨
      p.stack.transactionId = k ∧ .stack p.stack ∈ programRecords [call]) :
    Attributed (calls ++ [call]) c' := by
  have hsub : ∀ r, r ∈ programRecords calls → r ∈ programRecords (calls ++ [call]) := by
    intro r hr
    rw [programRecords_append]
    exact List.mem_append_left _ hr
  refine ⟨fun k p hp => ?_, fun r hr => ?_, fun r hr st hst => ?_⟩
  · rcases hpending k p hp with hp | ⟨hk, hnew⟩
    · exact ⟨(h.pending k p hp).1, hsub _ (h.pending k p hp).2⟩
    · rw [programRecords_append]
      exact ⟨hk, List.mem_append_right _ hnew⟩
  · rw [hrouted] at hr
    obtain ⟨e, he, hsize⟩ := h.chunks r hr
    exact ⟨e, hsub _ he, hsize⟩
  · rw [hrouted] at hr
    obtain ⟨record, hrecord, hname, env, event, hcall, heq⟩ := h.stack r hr st hst
    exact ⟨record, hsub _ hrecord, hname, env, event, List.mem_append_left _ hcall, heq⟩

/-- The name and the size of the buffer that a chunk record finds or opens are those of a record delivered. -/
theorem opened {env : EventEnv} {event : BinderTraceEvent} {buf : TxBuffer} (hsized : Sized calls c)
    (hopened : EventCollector.Opened c env event buf) :
    buf.chunks.length = (totalChunks buf.txMeta.dataSize).toNat ∧
      ∃ e, .main e ∈ programRecords (calls ++ [Call.handleEvent env event]) ∧
        e.transactionId = event.transactionId ∧ e.dataSize = buf.txMeta.dataSize := by
  rw [programRecords_append]
  rcases hopened.sized with hbuf | ⟨-, hlength, hdata⟩
  · obtain ⟨hlength, env', e, he, hname, hdata, -⟩ := hsized _ _ hbuf
    have hrecord := mem_eventRecords.1 (mem_eventRecords_iff.2 ⟨env', he⟩)
    exact ⟨hlength, e, List.mem_append_left _ hrecord, hname, hdata⟩
  · exact ⟨by rw [hlength, hdata], event, List.mem_append_right _ List.mem_cons_self, rfl, hdata.symm⟩

/-- A chunk table of one to sixteen slots is that of a parcel of 1 to 16384 bytes. -/
theorem dataSize_of_totalChunks {dataSize : UInt64} (hlow : 1 ≤ (totalChunks dataSize).toNat)
    (hhigh : (totalChunks dataSize).toNat ≤ maxChunks) :
    1 ≤ dataSize.toNat ∧ dataSize.toNat ≤ maxChunks * chunkSize := by
  rw [toNat_totalChunks] at hlow hhigh
  change _ ≤ 16 at hhigh
  change _ ∧ _ ≤ 16 * 1024
  have hlt := dataSize.toNat_lt
  omega

theorem handleEvent {env : EventEnv} {event : BinderTraceEvent} (h : Attributed calls c)
    (hsized : Sized calls c) (hstep : c.handleEvent env event = .ok c') :
    Attributed (calls ++ [Call.handleEvent env event]) c' := by
  obtain ⟨buf, chunks, m, hopened, hstore, rfl, -, hstacks, heffect⟩ := EventCollector.handleEvent_recordEffect hstep
  have hpending : ∀ k p, (m.maybeCleanup env).pendingStack.lookup k = some p → c.pendingStack.lookup k = some p :=
    fun k p hp => hstacks k p (EventCollector.lookup_pendingStack_maybeCleanup hp)
  have hrouted := m.routed_maybeCleanup env
  cases heffect with
  | waits hr => exact h.quiet (hrouted.trans hr) fun k p hp => .inl (hpending k p hp)
  | discarded hr => exact h.quiet (hrouted.trans hr) fun k p hp => .inl (hpending k p hp)
  | routes r hr _ _ hlow hhigh hname _ _ hstack =>
    have hold : Attributed (calls ++ [Call.handleEvent env event]) { m.maybeCleanup env with routed := c.routed } :=
      h.quiet rfl fun k p hp => .inl (hpending k p hp)
    rw [hr] at hrouted
    refine ⟨hold.pending, fun r' hr' => ?_, fun r' hr' st hst => ?_⟩
    · rw [hrouted] at hr'
      rcases List.mem_append.1 hr' with hr' | hr'
      · exact hold.chunks r' hr'
      · obtain rfl := List.mem_singleton.1 hr'
        obtain ⟨hlength, e, he, hename, hdata⟩ := opened hsized hopened
        rw [EventCollector.storeChunk_ok hstore, hlength, ← hdata] at hlow hhigh
        exact ⟨e, he, hename.trans hname.symm, dataSize_of_totalChunks hlow hhigh⟩
    · rw [hrouted] at hr'
      rcases List.mem_append.1 hr' with hr' | hr'
      · exact hold.stack r' hr' st hst
      · obtain rfl := List.mem_singleton.1 hr'
        obtain ⟨p, hp, heq⟩ := hstack st hst
        obtain ⟨hkey, hrecord⟩ := h.pending _ p hp
        refine ⟨p.stack, ?_, hkey.trans hname.symm, env, event, ?_, heq⟩
        · rw [programRecords_append]
          exact List.mem_append_left _ hrecord
        · exact List.mem_append_right _ List.mem_cons_self

theorem step {call : Call} (h : Attributed calls c) (hsized : Sized calls c)
    (hstep : step c call = .ok c') : Attributed (calls ++ [call]) c' := by
  cases call with
  | handleEvent env event => exact h.handleEvent hsized hstep
  | handleStackRecord receivedNs staleNs st =>
    cases hstep
    refine h.quiet rfl fun k p hp => ?_
    have hlookup := EventCollector.lookup_evictStalePendingStack hp
    change (c.pendingStack.insert st.transactionId _).lookup k = some p at hlookup
    by_cases hk : k = st.transactionId
    · subst hk
      rw [AList.lookup_insert] at hlookup
      cases hlookup
      exact .inr ⟨rfl, List.mem_cons_self⟩
    · rw [AList.lookup_insert_ne hk] at hlookup
      exact .inl hlookup
  | handleSideband nowNs sb =>
    cases hstep
    refine h.quiet (congrArg Intake.routed (c.intake_handleSideband nowNs sb)) fun k p hp => .inl ?_
    have hstacks : (c.handleSideband nowNs sb).pendingStack = c.pendingStack :=
      congrArg Prod.snd (c.upstream_handleSideband nowNs sb)
    rwa [hstacks] at hp
  | handleCookieSideband receivedNs staleNs cs =>
    cases hstep
    refine h.quiet (c.routed_handleCookieSideband receivedNs staleNs cs) fun k p hp => .inl ?_
    obtain ⟨_, _, hframe⟩ := c.upstream_handleCookieSideband receivedNs staleNs cs
    have hstacks : (c.handleCookieSideband receivedNs staleNs cs).pendingStack = c.pendingStack :=
      congrArg Prod.snd hframe
    rwa [hstacks] at hp
  | runSweep now mainOrder txidOrder =>
    cases hstep
    exact h.quiet rfl fun k p hp => .inl hp
  | evictStale stackNs cookieNs =>
    cases hstep
    exact h.quiet rfl fun k p hp => .inl (EventCollector.lookup_evictStalePendingStack hp)

end Attributed

/-- Over a run, what is in the collector was delivered. -/
theorem run_attributed {calls : List Call} {c : EventCollector}
    (h : run step newEventCollector calls = .ok c) : Attributed calls c :=
  run_history Attributed.initial (fun _ _ _ _ hrun hinv hstep => hinv.step (run_sized hrun) hstep) h

/-- A run whose chunk records are harmless succeeds. -/
theorem run_ok_of_harmless {calls : List Call} (h : ∀ env e, .handleEvent env e ∈ calls → Harmless env e) :
    ∃ c, run step newEventCollector calls = .ok c := by
  have hstart : Sized [] newEventCollector := fun k buf hbuf => by cases hbuf
  have hnext : ∀ done call, done ++ [call] <+: calls → ∀ c, Sized done c →
      ∃ c', step c call = .ok c' ∧ Sized (done ++ [call]) c' := by
    intro done call hpre c hsized
    suffices htotal : ∃ c', step c call = .ok c' by
      obtain ⟨c', hstep⟩ := htotal
      exact ⟨c', hstep, hsized.step hstep⟩
    cases call with
    | handleEvent env event => exact handleEvent_total hsized (h env event (hpre.subset (by simp)))
    | _ => exact ⟨_, rfl⟩
  obtain ⟨c, hrun, -⟩ := run_schedule (P := Sized) hstart hnext calls List.prefix_rfl
  exact ⟨c, hrun⟩

/-! ### Executions on several CPUs -/

/-- An execution of the main kernel program. -/
structure Execution where
  cpu : Nat
  ctx : ProbeContext

namespace Execution

def records (x : Execution) : List RingRecord := (kprobeBinderTransaction x.ctx).records

/-- The execution traces a transaction of 1 to 16384 bytes. -/
def sends (x : Execution) : Bool :=
  match x.ctx.config, x.ctx.tr with
  | some uid, some tr =>
    decide ((uid = 0 ∨ uid = effectiveUid x.ctx) ∧ 1 ≤ tr.dataSize.toNat ∧
      tr.dataSize.toNat ≤ maxChunks * chunkSize)
  | _, _ => false

theorem sends_iff {x : Execution} : x.sends = true ↔
    ∃ tr, Traced x.ctx tr ∧ 1 ≤ tr.dataSize.toNat ∧ tr.dataSize.toNat ≤ maxChunks * chunkSize := by
  unfold sends Traced
  cases hconfig : x.ctx.config with
  | none => simp
  | some uid =>
    cases htr : x.ctx.tr with
    | none => simp
    | some tr => simp [and_assoc]

/-- A chunk record carries the name and the size of its transaction, and a small index, by which it is written. -/
theorem of_main {x : Execution} {e : BinderTraceEvent} (h : .main e ∈ x.records) :
    ∃ tr, Traced x.ctx tr ∧ e.transactionId = x.ctx.ktime ∧ e.dataSize = tr.dataSize ∧
      e.chunkIndex.toNat < maxChunks ∧ ∃ slot, e = chunkRecord x.ctx tr e.chunkIndex.toNat slot := by
  have hchunk : e ∈ chunkRecords x.records := List.mem_filterMap.2 ⟨_, h, rfl⟩
  cases htr : x.ctx.tr with
  | none =>
    have hnone : x.records = [] := by
      unfold records kprobeBinderTransaction
      split
      · next hsome => rw [htr] at hsome; cases hsome
      · rfl
    rw [hnone] at h
    cases h
  | some tr =>
    have htraced := traced_of_chunkRecords htr (List.ne_nil_of_mem hchunk)
    rw [records, chunkRecords_kprobe htraced] at hchunk
    split at hchunk
    · cases hchunk
    obtain ⟨j, slot, -, hj, -, -, rfl⟩ := mem_chunkLoop hchunk
    change j < 0 + 16 at hj
    have hindex : (chunkRecord x.ctx tr j slot).chunkIndex.toNat = j := by
      change (UInt64.ofNat j).toNat = j
      rw [UInt64.toNat_ofNat']
      omega
    rw [hindex]
    exact ⟨tr, htraced, rfl, rfl, show j < 16 by omega, slot, rfl⟩

/-- A stack record carries the name of its transaction. -/
theorem of_stack {x : Execution} {record : StackTraceEvent} (h : .stack record ∈ x.records) :
    record.transactionId = x.ctx.ktime := by
  rcases kprobe_records h with ⟨e, he, hname⟩ | ⟨e, he⟩
  · cases he
    exact hname
  · cases he

theorem records_ne_nil {x : Execution} (reserved : ∀ i, i < maxChunks → x.ctx.chunkSlot i ≠ none)
    (h : x.sends = true) : x.records ≠ [] := by
  obtain ⟨tr, htraced, hlow, hhigh⟩ := sends_iff.1 h
  obtain ⟨slot, hrecords⟩ := exists_slots htraced hlow hhigh reserved
  intro hnil
  change chunkRecords x.records = _ at hrecords
  rw [hnil] at hrecords
  have hlength := congrArg List.length hrecords
  rw [List.length_map, List.length_range] at hlength
  exact absurd hlength (Nat.ne_of_lt (Shipment.count_pos _))

end Execution

/-- The executions of the kernel program, in the order in which they began, and calls that deliver all their
records, each once, in any order and among any other calls. -/
structure Trace (executions : List Execution) (calls : List Call) : Prop where
  /-- The clock increases on each CPU. -/
  ktime : executions.Pairwise fun x y => x.cpu = y.cpu → x.ctx.ktime < y.ctx.ktime
  reserved : ∀ x ∈ executions, ∀ i, i < maxChunks → x.ctx.chunkSlot i ≠ none
  delivered : (programRecords calls).Perm (executions.flatMap Execution.records)
  /-- The daemon's clock does not run backwards. -/
  clock : (deliveries calls).Pairwise fun d d' => d.1 ≤ d'.1
  /-- The chunk records of a transaction arrive within the time to live of a buffer. -/
  window : ∀ d ∈ deliveries calls, ∀ d' ∈ deliveries calls, d.2.transactionId = d'.2.transactionId →
    d'.1 ≤ d.1 + staleBufferTTL

/-- The event has its metadata and its bytes from the chunk records of the execution, and its stack, if it
has one, from the execution's stack record. -/
structure MadeFrom (calls : List Call) (x : Execution) (r : Routing) : Prop where
  chunks : ∃ e ∈ chunkRecords x.records, ∃ nowNs,
    r.event.payload = (TxMeta.ofRecord e).toPayload nowNs
      (((chunkRecords x.records).flatMap fun e => e.chunkData.toList).take e.dataSize.toNat)
      r.event.payload.stackTrace
  stack : ∀ st, r.event.payload.stackTrace = some st →
    ∃ record, .stack record ∈ x.records ∧ Symbolized calls record st

/-- The daemon survives, and the events that it completes correspond one to one to the executions that trace
a transaction of 1 to 16384 bytes, each event made from its execution. -/
def Unmixed (executions : List Execution) (calls : List Call) : Prop :=
  ∃ c, run step newEventCollector calls = .ok c ∧
    ∃ senders : List Execution, senders.Perm (executions.filter Execution.sends) ∧
      List.Forall₂ (MadeFrom calls) senders c.routed

/-- No two CPUs give their transactions the same name. -/
def NamesApart (executions : List Execution) : Prop :=
  ∀ x ∈ executions, ∀ y ∈ executions, x.cpu ≠ y.cpu → x.records ≠ [] → y.records ≠ [] →
    x.ctx.ktime ≠ y.ctx.ktime

/-- The daemon has memory for the chunk table of every chunk record, when it is delivered. -/
def TablesFit (calls : List Call) : Prop :=
  ∀ env e, .handleEvent env e ∈ calls → (totalChunks e.dataSize).toNat ≤ env.room.slots

namespace Trace

variable {executions : List Execution} {calls : List Call}

theorem nodup (h : Trace executions calls) : executions.Nodup := by
  refine h.ktime.imp fun hxy => ?_
  rintro rfl
  exact absurd (hxy rfl) (by simp)

/-- The name belongs to one execution. -/
theorem eq_of_ktime_eq (h : Trace executions calls) (hnames : NamesApart executions) {x y : Execution}
    (hx : x ∈ executions) (hy : y ∈ executions) (hxr : x.records ≠ []) (hyr : y.records ≠ [])
    (hname : x.ctx.ktime = y.ctx.ktime) : x = y := by
  by_contra hne
  by_cases hcpu : x.cpu = y.cpu
  · have hpair : executions.Pairwise fun x y => x.cpu = y.cpu → x.ctx.ktime ≠ y.ctx.ktime :=
      h.ktime.imp fun hlt hsame => UInt64.ne_of_lt (hlt hsame)
    have hsymm : Std.Symm fun x y : Execution => x.cpu = y.cpu → x.ctx.ktime ≠ y.ctx.ktime :=
      ⟨fun _ _ hxy hsame => (hxy hsame.symm).symm⟩
    exact hpair.forall hx hy hne hcpu hname
  · exact hnames x hx y hy hcpu hxr hyr hname

/-- Every record delivered was written by an execution. -/
theorem exists_execution (h : Trace executions calls) {r : RingRecord} (hr : r ∈ programRecords calls) :
    ∃ x ∈ executions, r ∈ x.records :=
  List.mem_flatMap.1 (h.delivered.subset hr)

theorem harmless (h : Trace executions calls) (hfit : TablesFit calls) :
    ∀ env e, .handleEvent env e ∈ calls → Harmless env e := by
  intro env e hcall
  obtain ⟨x, hx, hmem⟩ := h.exists_execution (mem_eventRecords.1 (mem_eventRecords_iff.2 ⟨env, hcall⟩))
  obtain ⟨tr, -, -, -, hindex, -⟩ := Execution.of_main hmem
  exact ⟨hindex.trans (by decide), hfit env e hcall⟩

/-- The chunk records delivered under the name of an execution are those that it wrote. -/
theorem own_records (h : Trace executions calls) (hnames : NamesApart executions) {x : Execution}
    (hx : x ∈ executions) (hxr : x.records ≠ []) :
    ((ownDeliveries x.ctx.ktime calls).map Prod.snd).Perm (chunkRecords x.records) := by
  let own : BinderTraceEvent → Bool := fun e => e.transactionId == x.ctx.ktime
  have hown : (ownDeliveries x.ctx.ktime calls).map Prod.snd = (eventRecords calls).filter own := by
    rw [ownDeliveries, eventRecords, List.filter_map]
    rfl
  have hperm : ((eventRecords calls).filter own).Perm
      ((chunkRecords (executions.flatMap Execution.records)).filter own) := by
    rw [← chunkRecords_programRecords]
    exact (h.delivered.filterMap _).filter _
  have hothers : ∀ y ∈ executions, y ≠ x → (chunkRecords y.records).filter own = [] := by
    intro y hy hne
    refine List.filter_eq_nil_iff.2 fun e he hown => hne ?_
    obtain ⟨r, hr, heq⟩ := List.mem_filterMap.1 he
    cases r <;> cases heq
    obtain ⟨tr, -, hname, -⟩ := Execution.of_main hr
    exact h.eq_of_ktime_eq hnames hy hx (List.ne_nil_of_mem hr) hxr (hname.symm.trans (eq_of_beq hown))
  have hself : (chunkRecords x.records).filter own = chunkRecords x.records := by
    refine List.filter_eq_self.2 fun e he => ?_
    obtain ⟨r, hr, heq⟩ := List.mem_filterMap.1 he
    cases r <;> cases heq
    obtain ⟨tr, -, hname, -⟩ := Execution.of_main hr
    exact beq_iff_eq.2 hname
  have hflat : (chunkRecords (executions.flatMap Execution.records)).filter own = chunkRecords x.records := by
    rw [chunkRecords, List.filterMap_flatMap, List.filter_flatMap]
    exact (flatMap_eq_of_forall_ne h.nodup hx hothers).trans hself
  rw [hown]
  exact hflat ▸ hperm

/-- The one event of an execution that sends a parcel. -/
theorem routed_of_sends (h : Trace executions calls) (hnames : NamesApart executions)
    (hfit : TablesFit calls) {c : EventCollector} (hrun : run step newEventCollector calls = .ok c)
    {x : Execution} (hx : x ∈ executions) (hsends : x.sends = true) :
    ∃ r, c.routed.filter (fun r => r.transactionId == x.ctx.ktime) = [r] ∧ MadeFrom calls x r := by
  obtain ⟨tr, htraced, hlow, hhigh⟩ := Execution.sends_iff.1 hsends
  obtain ⟨slot, hrecords⟩ := exists_slots htraced hlow hhigh (h.reserved x hx)
  generalize hs : kernelShipment x.ctx tr slot hlow hhigh = s at hrecords
  have htxid : s.txid = x.ctx.ktime := by rw [← hs]; rfl
  have hcookie : s.template.cookie = 0 := by rw [← hs]; rfl
  have hfirst : s.record 0 ∈ chunkRecords x.records := by
    change s.record 0 ∈ chunkRecords (kprobeBinderTransaction x.ctx).records
    rw [hrecords]
    exact List.mem_map_of_mem (List.mem_range.2 s.count_pos)
  have hxr := Execution.records_ne_nil (h.reserved x hx) hsends
  have hshipped : Shipped s calls := by
    refine ⟨?_, h.clock, fun d hd d' hd' => ?_⟩
    · rw [htxid, ← hrecords]
      exact h.own_records hnames hx hxr
    · have hd := List.mem_filter.1 hd
      have hd' := List.mem_filter.1 hd'
      exact h.window d hd.1 d' hd'.1 ((eq_of_beq hd.2).trans (eq_of_beq hd'.2).symm)
  obtain ⟨c', hrun', hprogress⟩ := hshipped.progress hcookie
    (fun env e hcall _ => h.harmless hfit env e hcall) List.prefix_rfl
  obtain rfl : c' = c := Except.ok.inj (hrun'.symm.trans hrun)
  have hcomplete : s.Complete (arrivals s.txid calls) := by
    refine (hshipped.complete_iff List.prefix_rfl).2 fun e he => ?_
    rw [← hrecords] at he
    obtain ⟨d, hd, rfl⟩ := List.mem_map.1 ((h.own_records hnames hx hxr).symm.subset he)
    exact List.mem_map_of_mem (List.mem_of_mem_filter hd)
  obtain ⟨ref, nowNs, stackTrace, cookie, hrouted⟩ := hprogress.routed hcomplete
  rw [EventCollector.routedFor, htxid] at hrouted
  refine ⟨_, hrouted, ⟨s.record 0, hfirst, nowNs, ?_⟩, fun st hst => ?_⟩
  · have hbytes : (chunkRecords x.records).flatMap (fun e => e.chunkData.toList) = s.bytes := by
      change (chunkRecords (kprobeBinderTransaction x.ctx).records).flatMap _ = _
      rw [hrecords, List.flatMap_map]
      rfl
    rw [hbytes]
    rfl
  · -- the stack record delivered under this name was written by this execution
    have hmem := List.mem_of_mem_filter (hrouted ▸ List.mem_singleton_self _)
    obtain ⟨record, hrecord, hname, hsymbolized⟩ := (run_attributed hrun).stack _ hmem st hst
    obtain ⟨y, hy, hyrecord⟩ := h.exists_execution hrecord
    have hyx : y = x := h.eq_of_ktime_eq hnames hy hx (List.ne_nil_of_mem hyrecord) hxr
      ((Execution.of_stack hyrecord).symm.trans hname)
    exact ⟨record, hyx ▸ hyrecord, hsymbolized⟩

/-- Every event has the name of an execution that sends a parcel. -/
theorem sends_of_routed (h : Trace executions calls) {c : EventCollector}
    (hrun : run step newEventCollector calls = .ok c) {r : Routing} (hr : r ∈ c.routed) :
    ∃ x ∈ executions.filter Execution.sends, x.ctx.ktime = r.transactionId := by
  obtain ⟨e, he, hname, hsize⟩ := (run_attributed hrun).chunks r hr
  obtain ⟨x, hx, hmem⟩ := h.exists_execution he
  obtain ⟨tr, htraced, hktime, hdata, -⟩ := Execution.of_main hmem
  rw [hdata] at hsize
  exact ⟨x, List.mem_filter.2 ⟨hx, Execution.sends_iff.2 ⟨tr, htraced, hsize⟩⟩, hktime.symm.trans hname⟩

end Trace

/-- **No mixing**: when no two CPUs give their transactions the same name and there is memory for every chunk table,
each event is made from one execution, and each execution that sends a parcel gets one event. -/
theorem events_unmixed {executions : List Execution} {calls : List Call} (h : Trace executions calls)
    (hnames : NamesApart executions) (hfit : TablesFit calls) : Unmixed executions calls := by
  obtain ⟨c, hrun⟩ := run_ok_of_harmless (h.harmless hfit)
  have hkeys : ((executions.filter Execution.sends).map fun x => x.ctx.ktime).Nodup := by
    refine List.Nodup.map_on (fun x hx y hy hname => ?_) (h.nodup.filter _)
    obtain ⟨hx, hxs⟩ := List.mem_filter.1 hx
    obtain ⟨hy, hys⟩ := List.mem_filter.1 hy
    exact h.eq_of_ktime_eq hnames hx hy (Execution.records_ne_nil (h.reserved x hx) hxs)
      (Execution.records_ne_nil (h.reserved y hy) hys) hname
  refine ⟨c, hrun, exists_matching hkeys ?_ fun r hr => h.sends_of_routed hrun hr⟩
  intro x hx
  obtain ⟨hx, hsends⟩ := List.mem_filter.1 hx
  exact h.routed_of_sends hnames hfit hrun hx hsends

/-! ### Two requests on two CPUs -/

/-- A request of 1025 bytes by `pid`, all of them `fill`, at time `ktime`. -/
def filledRequest (cpu : Nat) (ktime : UInt64) (pid : UInt32) (fill : UInt8) : Execution where
  cpu := cpu
  ctx := { sampleContext 1025 with ktime, currentPid := pid, userMemory := fun _ => some fill }

/-- The delivery of the request's chunk record `i`. -/
def Execution.deliver (x : Execution) (i : Nat) : Call :=
  .handleEvent idleEnv (chunkRecord x.ctx (sampleData 1025) i (List.Vector.replicate _ 0))

/-- Two requests, the second at time `ktime`. -/
def twoRequests (ktime : UInt64) : List Execution := [filledRequest 0 1 100 1, filledRequest 1 ktime 200 2]

/-- Their four chunk records, delivered in turn. -/
def inTurn (ktime : UInt64) : List Call :=
  [(filledRequest 0 1 100 1).deliver 0, (filledRequest 1 ktime 200 2).deliver 0,
    (filledRequest 0 1 100 1).deliver 1, (filledRequest 1 ktime 200 2).deliver 1]

theorem records_filledRequest (cpu : Nat) (ktime : UInt64) (pid : UInt32) (fill : UInt8) :
    let x := filledRequest cpu ktime pid fill
    x.records = programRecords [x.deliver 0, x.deliver 1] :=
  rfl

theorem trace_inTurn (ktime : UInt64) : Trace (twoRequests ktime) (inTurn ktime) where
  ktime := by simp [twoRequests, filledRequest]
  reserved := by
    intro x hx i _
    rcases List.mem_pair.1 hx with rfl | rfl
    · exact Option.some_ne_none _
    · exact Option.some_ne_none _
  delivered := by
    rw [twoRequests, List.flatMap_cons, List.flatMap_cons, List.flatMap_nil, records_filledRequest,
      records_filledRequest]
    exact (List.Perm.swap _ _ _).cons _
  clock := by simp [deliveries, inTurn, Execution.deliver]
  window := by
    have hnow : ∀ d ∈ deliveries (inTurn ktime), d.1 = 0 := by
      simp [deliveries, inTurn, Execution.deliver, idleEnv]
    intro d hd d' hd' _
    rw [hnow d hd, hnow d' hd']
    decide

/-- At different times, each request gets its event. -/
theorem differentNames_unmixed : Trace (twoRequests 2) (inTurn 2) ∧ Unmixed (twoRequests 2) (inTurn 2) := by
  refine ⟨trace_inTurn 2, events_unmixed (trace_inTurn 2) ?_ ?_⟩
  · intro x hx y hy hcpu _ _
    rcases List.mem_pair.1 hx with rfl | rfl
    · rcases List.mem_pair.1 hy with rfl | rfl
      · exact absurd rfl hcpu
      · decide
    · rcases List.mem_pair.1 hy with rfl | rfl
      · decide
      · exact absurd rfl hcpu
  · intro env e hcall
    simp only [inTurn, Execution.deliver, List.mem_cons, List.not_mem_nil, or_false] at hcall
    rcases hcall with heq | heq | heq | heq <;> (cases heq; decide)

/-- At the same time, the daemon completes one event for the two requests: the metadata of the first with the
bytes of the second, but for the last byte. -/
theorem sameName_mixes :
    Trace (twoRequests 1) (inTurn 1) ∧
      (∃ c, run step newEventCollector (inTurn 1) = .ok c ∧
        c.routed.map (fun r => (r.event.payload.pid, r.event.payload.parcelData)) =
          [(100, List.replicate 1024 2 ++ [1])]) ∧
      ¬ Unmixed (twoRequests 1) (inTurn 1) := by
  have hend : ∃ c, run step newEventCollector (inTurn 1) = .ok c ∧
      c.routed.map (fun r => (r.event.payload.pid, r.event.payload.parcelData)) =
        [(100, List.replicate 1024 2 ++ [1])] := exists_of_endsIn (by decide +kernel)
  refine ⟨trace_inTurn 1, hend, ?_⟩
  rintro ⟨c, hrun, senders, hperm, hmade⟩
  obtain ⟨c', hrun', hrouted⟩ := hend
  obtain rfl : c' = c := Except.ok.inj (hrun'.symm.trans hrun)
  have hlength := congrArg List.length hrouted
  rw [List.length_map, ← hmade.length_eq, hperm.length_eq] at hlength
  exact absurd hlength (by decide)

end BinderTracer.Daemon
