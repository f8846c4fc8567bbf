import BinderTracer.Daemon.Pairing
import BinderTracer.Kernel.Correlation
import BinderTracer.Lib.SplitCounter

/-!
# What the daemon reports about a full ring

A kernel program that finds the ring full may call `inc_overflow`, which counts in the cell of its processor, and
`syncRingbufOverflowFrom` adds the cells up, one slot of `ringbuf_overflow_map` after the other, while the programs
go on. The cookie program and the tracepoint program count every record that they lose. The main program counts
nothing: the slot that bears its name stays zero (`overflow_reported`), so the bound
`sideband_orphan ≤ ringbuf_overflow_main` that the comments of both sides rest on says that no sideband is ever left
alone.
-/

namespace BinderTracer.Kernel

/-- The slots of `ringbuf_overflow_map`. -/
inductive OverflowSlot where
  | main | sideband
deriving DecidableEq, Repr

/-- The cookie program calls `inc_overflow`: it has stored the cookie, and there is no room for its record. -/
def CookieContext.overflows (ctx : CookieContext) : Bool :=
  (kprobeBinderTransactionCookie ctx).pending.isSome && !ctx.reserved

/-- The tracepoint program calls `inc_overflow`: it has taken the cookie, and there is no room for its record. -/
def TracepointContext.overflows (ctx : TracepointContext) : Bool :=
  (rawTpBinderTransaction ctx).cleared.isSome && !ctx.reserved

/-- The records that the cookie program would have written into a ring with room, and did not. -/
def CookieContext.missing (ctx : CookieContext) : Nat :=
  (kprobeBinderTransactionCookie { ctx with reserved := true }).records.length -
    (kprobeBinderTransactionCookie ctx).records.length

/-- The same for the tracepoint program. -/
def TracepointContext.missing (ctx : TracepointContext) : Nat :=
  (rawTpBinderTransaction { ctx with reserved := true }).records.length - (rawTpBinderTransaction ctx).records.length

/-- The cookie program counts what it loses. -/
theorem CookieContext.missing_eq (ctx : CookieContext) : ctx.missing = ctx.overflows.toNat := by
  obtain ⟨config, reply, currentUid, currentTid, txid, ktime, cpu, reserved⟩ := ctx
  simp only [missing, overflows, kprobeBinderTransactionCookie]
  cases config with
  | none => rfl
  | some uid =>
    dsimp only
    split
    · rfl
    split
    · rfl
    cases txid with
    | none => rfl
    | some transactionId =>
      dsimp only
      split
      · rfl
      split
      · rfl
      cases reserved <;> rfl

/-- The tracepoint program counts what it loses. -/
theorem TracepointContext.missing_eq (ctx : TracepointContext) : ctx.missing = ctx.overflows.toNat := by
  obtain ⟨config, reply, transaction, currentTid, pending, reserved⟩ := ctx
  simp only [missing, overflows, rawTpBinderTransaction]
  split
  · rfl
  split
  · rfl
  cases transaction with
  | none => rfl
  | some t =>
    cases pending with
    | none => rfl
    | some cookie =>
      dsimp only
      split
      · rfl
      cases reserved <;> rfl

namespace Tracing

/-- The slot in which an action counts. -/
def incOverflow (s : Tracing) : TracingAction → Option OverflowSlot
  | .mark tid ktime cpu reserved =>
    match s.threads.lookup tid with
    | some a => if (s.cookieContext tid a ktime cpu reserved).overflows then some .sideband else none
    | none => none
  | .trace tid transaction reserved =>
    if (s.tracepointContext tid transaction reserved).overflows then some .sideband else none
  -- the main program calls `inc_overflow` nowhere
  | .enter _ => none
  | .configure _ => none
  | .fail _ => none

/-- The sidebands that an action loses. -/
def missing (s : Tracing) : TracingAction → Nat
  | .mark tid ktime cpu reserved =>
    match s.threads.lookup tid with
    | some a => (s.cookieContext tid a ktime cpu reserved).missing
    | none => 0
  | .trace tid transaction reserved => (s.tracepointContext tid transaction reserved).missing
  | _ => 0

/-- An action counts the sideband that it loses, in the slot of the sidebands, and nothing else. -/
theorem incOverflow_cases (s : Tracing) (action : TracingAction) :
    s.incOverflow action = none ∧ s.missing action = 0 ∨
      s.incOverflow action = some .sideband ∧ s.missing action = 1 := by
  have hcounts : ∀ {overflows : Bool} {missing : Nat}, missing = overflows.toNat →
      (if overflows then some OverflowSlot.sideband else none) = none ∧ missing = 0 ∨
        (if overflows then some OverflowSlot.sideband else none) = some .sideband ∧ missing = 1 := by
    rintro (_ | _) _ rfl
    · exact .inl ⟨rfl, rfl⟩
    · exact .inr ⟨rfl, rfl⟩
  cases action with
  | mark tid ktime cpu reserved =>
    simp only [incOverflow, missing]
    split
    · exact hcounts (CookieContext.missing_eq _)
    · exact .inl ⟨rfl, rfl⟩
  | trace tid transaction reserved => exact hcounts (TracepointContext.missing_eq _)
  | configure config => exact .inl ⟨rfl, rfl⟩
  | enter ctx => exact .inl ⟨rfl, rfl⟩
  | fail tid => exact .inl ⟨rfl, rfl⟩

end Tracing

end BinderTracer.Kernel

namespace BinderTracer.Daemon

open BinderTracer.Kernel BinderTracer.Lib

/-! ### The collector leaves the reported counts alone -/

namespace EventCollector

/-- `failures.ringbufOverflowMain` and `failures.ringbufOverflowSideband`. -/
def overflowCounts (c : EventCollector) : OverflowSlot → Nat
  | .main => c.failures.ringbufOverflowMain
  | .sideband => c.failures.ringbufOverflowSideband

theorem SameMachine.overflowCounts {c c' : EventCollector} (h : SameMachine c c') :
    c'.overflowCounts = c.overflowCounts := by
  rw [h]
  rfl

theorem overflowCounts_checkCookieDuplicate (c : EventCollector) (cookie : UInt64) :
    (c.checkCookieDuplicate cookie).overflowCounts = c.overflowCounts := by
  unfold checkCookieDuplicate
  split <;> rfl

theorem overflowCounts_recordRecentOnewayEmit (c : EventCollector) (cookie : UInt64) (nowNs : Int) :
    (c.recordRecentOnewayEmit cookie nowNs).overflowCounts = c.overflowCounts := by
  unfold recordRecentOnewayEmit
  split <;> rfl

theorem overflowCounts_demotePendingMain (c : EventCollector) (cookie : UInt64) :
    (c.demotePendingMain cookie).overflowCounts = c.overflowCounts := by
  unfold demotePendingMain
  split <;> rfl

theorem overflowCounts_demotePendingMainByTxid (c : EventCollector) (transactionId : UInt64) :
    (c.demotePendingMainByTxid transactionId).overflowCounts = c.overflowCounts := by
  unfold demotePendingMainByTxid
  split <;> rfl

theorem overflowCounts_emitOneway (c : EventCollector) (ev : MainEvent) (cookie : UInt64) (nowNs : Int) :
    (c.emitOneway ev cookie nowNs).overflowCounts = c.overflowCounts := by
  unfold emitOneway
  split
  · exact overflowCounts_recordRecentOnewayEmit _ cookie nowNs
  · exact overflowCounts_recordRecentOnewayEmit c cookie nowNs

theorem overflowCounts_dispatchMainEvent (c : EventCollector) (ev : MainEvent) (cookie transactionId : UInt64)
    (nowNs : Int) : (c.dispatchMainEvent ev cookie transactionId nowNs).overflowCounts = c.overflowCounts := by
  unfold dispatchMainEvent
  split
  · rfl
  split
  · split
    · rfl
    · exact overflowCounts_demotePendingMainByTxid c transactionId
  split
  · exact (overflowCounts_emitOneway _ ev cookie nowNs).trans (overflowCounts_checkCookieDuplicate c cookie)
  · exact overflowCounts_checkCookieDuplicate c cookie

theorem overflowCounts_handleSideband (c : EventCollector) (nowNs : Int) (sb : BinderSidebandEvent) :
    (c.handleSideband nowNs sb).overflowCounts = c.overflowCounts := by
  unfold handleSideband
  split
  · rfl
  split
  · rfl
  split <;> rfl

theorem overflowCounts_handleCookieSideband (c : EventCollector) (receivedNs staleNs : Int)
    (cs : BinderCookieSideband) : (c.handleCookieSideband receivedNs staleNs cs).overflowCounts = c.overflowCounts := by
  obtain ⟨buffers, hbuffers⟩ | hoffer := c.handleCookieSideband_cases receivedNs staleNs cs
  · rw [hbuffers]
    rfl
  · rw [hoffer]
    unfold offerCookie
    split
    · exact overflowCounts_demotePendingMain _ cs.cookie
    · rfl

end EventCollector

/-- **No call of the read loop or of the sweeper changes the reported counts.** -/
theorem overflowCounts_step {c c' : EventCollector} {call : Call} (h : step c call = .ok c') :
    c'.overflowCounts = c.overflowCounts := by
  cases call with
  | handleEvent env event =>
    obtain hsame | ⟨c₁, r, hsame, -, -, hrouted⟩ := EventCollector.handleEvent_routes h
    · exact hsame.overflowCounts
    · rw [hrouted.overflowCounts, ← hsame.overflowCounts]
      exact EventCollector.overflowCounts_dispatchMainEvent _ _ _ _ _
  | handleStackRecord receivedNs staleNs st => cases h; rfl
  | handleSideband nowNs sb => cases h; exact c.overflowCounts_handleSideband nowNs sb
  | handleCookieSideband receivedNs staleNs cs => cases h; exact c.overflowCounts_handleCookieSideband _ _ cs
  | runSweep now mainOrder txidOrder => cases h; rfl
  | evictStale stackNs cookieNs => cases h; rfl

/-! ### The programs, the map and the daemon -/

/-- Where the sweeper is in `syncRingbufOverflowFrom`: it looks a slot up, of which the kernel has copied the cells
`perCPU`; when it began, `begun` sidebands had been lost. -/
inductive SyncPhase where
  | idle
  | reading (slot : OverflowSlot) (perCPU : List UInt64) (begun : Nat)

/-- The programs with `ringbuf_overflow_map`, by slot and processor, and the collector; the sidebands that were lost
so far, and those that were lost before the reading began that was stored last. -/
structure OverflowReport where
  tracing : Tracing := {}
  ringbufOverflowMap : OverflowSlot → Nat → UInt64 := fun _ _ => 0
  collector : EventCollector := newEventCollector
  sync : SyncPhase := .idle
  lost : Nat := 0
  settled : Nat := 0

/-- What can happen. -/
inductive OverflowAction where
  /-- The programs and user space, on a processor. -/
  | trace (cpu : Nat) (action : TracingAction)
  | collect (call : Call)
  /-- The sweeper calls `syncRingbufOverflow`. -/
  | sync
  /-- The kernel copies the next cell of the slot that is looked up. -/
  | copyCell
  | lookupFails
  /-- The lookup returns all cells, and their sum is stored. -/
  | storeTotal

/-- The processor on which the cookie program runs is the one that it puts into the cookie. -/
def OverflowAction.OnCpu (cpu : Nat) : TracingAction → Prop
  | .mark _ _ own _ => own.toNat = cpu
  | _ => True

instance (cpu : Nat) : (action : TracingAction) → Decidable (OverflowAction.OnCpu cpu action)
  | .mark _ _ own _ => inferInstanceAs (Decidable (own.toNat = cpu))
  | .configure _ => .isTrue trivial
  | .enter _ => .isTrue trivial
  | .trace _ _ _ => .isTrue trivial
  | .fail _ => .isTrue trivial

namespace OverflowReport

/-- `inc_overflow` on a processor. -/
def incOverflow (s : OverflowReport) (cpu : Nat) : Option OverflowSlot → OverflowSlot → Nat → UInt64
  | none => s.ringbufOverflowMap
  | some slot => fun slot' cpu' =>
    if slot' = slot ∧ cpu' = cpu then s.ringbufOverflowMap slot cpu + 1 else s.ringbufOverflowMap slot' cpu'

theorem incOverflow_own (s : OverflowReport) (cpu : Nat) (slot : OverflowSlot) :
    s.incOverflow cpu (some slot) slot cpu = s.ringbufOverflowMap slot cpu + 1 := if_pos ⟨rfl, rfl⟩

theorem incOverflow_other (s : OverflowReport) {cpu cpu' : Nat} {slot slot' : OverflowSlot}
    (h : slot' = slot → cpu' ≠ cpu) :
    s.incOverflow cpu (some slot) slot' cpu' = s.ringbufOverflowMap slot' cpu' :=
  if_neg fun hsame => h hsame.1 hsame.2

def look (s : OverflowReport) (slot : OverflowSlot) : OverflowReport := { s with sync := .reading slot [] s.lost }

/-- The next round of the loop over the slots. -/
def nextSlot (s : OverflowReport) : OverflowSlot → OverflowReport
  | .main => s.look .sideband
  | .sideband => { s with sync := .idle }

/-- The sum that the loop over the processors makes. -/
def totalOf (perCPU : List UInt64) : UInt64 := perCPU.foldl (· + ·) 0

/-- The sum of a slot is stored. -/
def store (s : OverflowReport) (total : UInt64) (begun : Nat) : OverflowSlot → OverflowReport
  | .main =>
    { s with
      collector :=
        { s.collector with failures := { s.collector.failures with ringbufOverflowMain := total.toNat } } }
  | .sideband =>
    { s with
      collector :=
        { s.collector with failures := { s.collector.failures with ringbufOverflowSideband := total.toNat } }
      settled := begun }

/-- One action, where it is possible, with `cpus` processors. -/
def step (cpus : Nat) (s : OverflowReport) : OverflowAction → Except Blocked OverflowReport
  | .trace cpu action =>
    if cpu < cpus ∧ OverflowAction.OnCpu cpu action then
      (s.tracing.step action).map fun tracing =>
        { s with
          tracing
          ringbufOverflowMap := s.incOverflow cpu (s.tracing.incOverflow action)
          lost := s.lost + s.tracing.missing action }
    else .error .blocked
  | .collect call =>
    match Daemon.step s.collector call with
    | .ok collector => .ok { s with collector }
    | .error _ => .error .blocked
  | .sync =>
    match s.sync with
    | .idle => .ok (s.look .main)
    | .reading _ _ _ => .error .blocked
  | .copyCell =>
    match s.sync with
    | .reading slot perCPU begun =>
      if perCPU.length < cpus then
        .ok { s with sync := .reading slot (perCPU ++ [s.ringbufOverflowMap slot perCPU.length]) begun }
      else .error .blocked
    | .idle => .error .blocked
  | .lookupFails =>
    match s.sync with
    | .reading slot _ _ => .ok (s.nextSlot slot)
    | .idle => .error .blocked
  | .storeTotal =>
    match s.sync with
    | .reading slot perCPU begun =>
      if perCPU.length = cpus then .ok ((s.store (totalOf perCPU) begun slot).nextSlot slot) else .error .blocked
    | .idle => .error .blocked

/-- What is reported. -/
def reported (s : OverflowReport) : OverflowSlot → Nat := s.collector.overflowCounts

/-- The cells of the sidebands' slot. -/
def cells (s : OverflowReport) (cpu : Nat) : Nat := (s.ringbufOverflowMap .sideband cpu).toNat

/-! ### The reported counts -/

theorem toNat_foldl_add (perCPU : List UInt64) (acc : UInt64) :
    (perCPU.foldl (· + ·) acc).toNat = (acc.toNat + (perCPU.map UInt64.toNat).sum) % 2 ^ 64 := by
  induction perCPU generalizing acc with
  | nil =>
    have hlt := acc.toNat_lt
    rw [List.map_nil, List.sum_nil, Nat.add_zero, Nat.mod_eq_of_lt hlt]
    rfl
  | cons v perCPU ih =>
    rw [List.foldl_cons, ih, UInt64.toNat_add, List.map_cons, List.sum_cons]
    omega

theorem toNat_totalOf {perCPU : List UInt64} (h : (perCPU.map UInt64.toNat).sum < 2 ^ 64) :
    (totalOf perCPU).toNat = (perCPU.map UInt64.toNat).sum := by
  rw [totalOf, toNat_foldl_add]
  change (0 + _) % 2 ^ 64 = _
  rw [Nat.zero_add, Nat.mod_eq_of_lt h]

/-- The slot of the main program is zero, in the map, in a reading and in the report. The cells of the other slot
hold what was lost, and what is reported of it lies between what was lost before the last reading and now. -/
structure Inv (cpus : Nat) (s : OverflowReport) : Prop where
  mainCells : ∀ cpu, s.ringbufOverflowMap .main cpu = 0
  mainReading : ∀ perCPU begun, s.sync = .reading .main perCPU begun → ∀ v ∈ perCPU, v = 0
  mainReported : s.reported .main = 0
  counted : SplitCounter.total s.cells cpus = s.lost
  reading : ∀ perCPU begun, s.sync = .reading .sideband perCPU begun →
    SplitCounter.Between s.cells cpus begun (perCPU.map UInt64.toNat)
  low : s.settled ≤ s.reported .sideband
  high : s.reported .sideband ≤ s.lost

namespace Inv

variable {cpus : Nat} {s : OverflowReport}

theorem initial (cpus : Nat) : Inv cpus {} where
  mainCells _ := rfl
  mainReading := by rintro _ _ ⟨⟩
  mainReported := rfl
  counted := Finset.sum_const_zero
  reading := by rintro _ _ ⟨⟩
  low := le_rfl
  high := le_rfl

/-- A program runs on a processor. -/
theorem traces (h : Inv cpus s) {cpu : Nat} (hcpu : cpu < cpus) (action : TracingAction) (tracing : Tracing)
    (hfits : s.lost + s.tracing.missing action < 2 ^ 64) :
    Inv cpus { s with
      tracing
      ringbufOverflowMap := s.incOverflow cpu (s.tracing.incOverflow action)
      lost := s.lost + s.tracing.missing action } := by
  obtain ⟨hnone, hmissing⟩ | ⟨hcounts, hmissing⟩ := s.tracing.incOverflow_cases action
  · rw [hnone, hmissing]
    exact ⟨h.mainCells, h.mainReading, h.mainReported, h.counted, h.reading, h.low, h.high⟩
  rw [hmissing] at hfits
  rw [hcounts, hmissing]
  -- the cell of the processor has room for one more
  have hcounted : (s.incOverflow cpu (some .sideband) .sideband cpu).toNat = s.cells cpu + 1 := by
    have hle := SplitCounter.le_total s.cells hcpu
    rw [h.counted] at hle
    rw [incOverflow_own, UInt64.toNat_add]
    change (s.cells cpu + 1) % 2 ^ 64 = s.cells cpu + 1
    exact Nat.mod_eq_of_lt (by omega)
  have hothers : ∀ i, i ≠ cpu → (s.incOverflow cpu (some .sideband) .sideband i).toNat = s.cells i :=
    fun i hi => congrArg UInt64.toNat (s.incOverflow_other fun _ => hi)
  have hgrown : ∀ i, s.cells i ≤ (s.incOverflow cpu (some .sideband) .sideband i).toNat := by
    intro i
    by_cases hi : i = cpu
    · rw [hi, hcounted]
      exact Nat.le_succ _
    · exact (hothers i hi).ge
  refine ⟨fun i => ?_, h.mainReading, h.mainReported, ?_, ?_, h.low, h.high.trans (Nat.le_succ _)⟩
  · have hmain : s.incOverflow cpu (some .sideband) .main i = s.ringbufOverflowMap .main i :=
      s.incOverflow_other (by rintro ⟨⟩)
    exact hmain.trans (h.mainCells i)
  · exact (SplitCounter.total_count hcpu hcounted hothers).trans (congrArg (· + 1) h.counted)
  · exact fun perCPU begun hreading => (h.reading perCPU begun hreading).grow hgrown

theorem collects (h : Inv cpus s) {call : Call} {collector : EventCollector}
    (hstep : Daemon.step s.collector call = .ok collector) : Inv cpus { s with collector } := by
  have hsame : collector.overflowCounts = s.reported := overflowCounts_step hstep
  refine ⟨h.mainCells, h.mainReading, ?_, h.counted, h.reading, ?_, ?_⟩
  · exact (congrFun hsame .main).trans h.mainReported
  · exact h.low.trans (congrFun hsame .sideband).ge
  · exact (congrFun hsame .sideband).le.trans h.high

theorem looks (h : Inv cpus s) (slot : OverflowSlot) : Inv cpus (s.look slot) := by
  refine ⟨h.mainCells, ?_, h.mainReported, h.counted, ?_, h.low, h.high⟩
  · rintro perCPU begun ⟨⟩ v ⟨⟩
  · rintro perCPU begun ⟨⟩
    exact h.counted ▸ SplitCounter.Between.start s.cells cpus

theorem nextSlot (h : Inv cpus s) (slot : OverflowSlot) : Inv cpus (s.nextSlot slot) := by
  cases slot with
  | main => exact h.looks .sideband
  | sideband =>
    refine ⟨h.mainCells, ?_, h.mainReported, h.counted, ?_, h.low, h.high⟩
    · rintro perCPU begun ⟨⟩
    · rintro perCPU begun ⟨⟩

theorem copies (h : Inv cpus s) {slot : OverflowSlot} {perCPU : List UInt64} {begun : Nat}
    (hsync : s.sync = .reading slot perCPU begun) (hmore : perCPU.length < cpus) :
    Inv cpus { s with sync := .reading slot (perCPU ++ [s.ringbufOverflowMap slot perCPU.length]) begun } := by
  refine ⟨h.mainCells, ?_, h.mainReported, h.counted, ?_, h.low, h.high⟩
  · rintro _ _ ⟨⟩ v hv
    rcases List.mem_append.1 hv with hv | hv
    · exact h.mainReading perCPU begun hsync v hv
    · rw [List.mem_singleton.1 hv]
      exact h.mainCells perCPU.length
  · rintro _ _ ⟨⟩
    have hread := (h.reading perCPU begun hsync).read (by rwa [List.length_map])
    rw [List.map_append, List.map_singleton]
    rwa [List.length_map] at hread

/-- A complete reading is stored. -/
theorem stores (h : Inv cpus s) {slot : OverflowSlot} {perCPU : List UInt64} {begun : Nat}
    (hsync : s.sync = .reading slot perCPU begun) (hall : perCPU.length = cpus) (hfits : s.lost < 2 ^ 64) :
    Inv cpus (s.store (totalOf perCPU) begun slot) := by
  cases slot with
  | main =>
    have hzero : ∀ v ∈ perCPU.map UInt64.toNat, v = 0 := by
      intro v hv
      obtain ⟨w, hw, rfl⟩ := List.mem_map.1 hv
      rw [h.mainReading perCPU begun hsync w hw]
      rfl
    have hsum : (perCPU.map UInt64.toNat).sum = 0 := List.sum_eq_zero hzero
    have htotal : (totalOf perCPU).toNat = 0 := by
      rw [toNat_totalOf (by rw [hsum]; decide), hsum]
    exact ⟨h.mainCells, h.mainReading, htotal, h.counted, h.reading, h.low, h.high⟩
  | sideband =>
    obtain ⟨hlow, hhigh⟩ := (h.reading perCPU begun hsync).bounds (by rwa [List.length_map])
    rw [h.counted] at hhigh
    have htotal : (totalOf perCPU).toNat = (perCPU.map UInt64.toNat).sum :=
      toNat_totalOf (hhigh.trans_lt hfits)
    refine ⟨h.mainCells, h.mainReading, h.mainReported, h.counted, h.reading, ?_, ?_⟩
    · exact hlow.trans htotal.ge
    · exact htotal.le.trans hhigh

end Inv

/-- What was lost stays lost, and the rest is kept as long as the counts fit. -/
theorem Inv.step {cpus : Nat} {s t : OverflowReport} {a : OverflowAction} (hstep : step cpus s a = .ok t) :
    s.lost ≤ t.lost ∧ (Inv cpus s → t.lost < 2 ^ 64 → Inv cpus t) := by
  have hnext : ∀ (s : OverflowReport) (slot : OverflowSlot), (s.nextSlot slot).lost = s.lost := by
    rintro s (_ | _) <;> rfl
  cases a with
  | trace cpu action =>
    simp only [OverflowReport.step] at hstep
    split at hstep
    next hcpu =>
      obtain ⟨tracing, -, rfl⟩ := exists_of_map_eq_ok hstep
      exact ⟨Nat.le_add_right _ _, fun h hfits => h.traces hcpu.1 action tracing hfits⟩
    · cases hstep
  | collect call =>
    simp only [OverflowReport.step] at hstep
    split at hstep
    next collector hcall => cases hstep; exact ⟨le_rfl, fun h _ => h.collects hcall⟩
    · cases hstep
  | sync =>
    simp only [OverflowReport.step] at hstep
    split at hstep <;> cases hstep
    exact ⟨le_rfl, fun h _ => h.looks .main⟩
  | copyCell =>
    simp only [OverflowReport.step] at hstep
    split at hstep
    next slot perCPU begun hsync =>
      split at hstep
      next hmore => cases hstep; exact ⟨le_rfl, fun h _ => h.copies hsync hmore⟩
      · cases hstep
    · cases hstep
  | lookupFails =>
    simp only [OverflowReport.step] at hstep
    split at hstep
    next slot perCPU begun hsync => cases hstep; exact ⟨(hnext s slot).ge, fun h _ => h.nextSlot slot⟩
    · cases hstep
  | storeTotal =>
    simp only [OverflowReport.step] at hstep
    split at hstep
    next slot perCPU begun hsync =>
      split at hstep
      next hall =>
        cases hstep
        have hlost : ((s.store (totalOf perCPU) begun slot).nextSlot slot).lost = s.lost := by
          rw [hnext]
          cases slot <;> rfl
        exact ⟨hlost.ge, fun h hfits => (h.stores hsync hall (hlost ▸ hfits)).nextSlot slot⟩
      · cases hstep
    · cases hstep

/-- **The reported counts**: whatever the kernel programs, the collector and the sweeper do, on any number of
processors, no loss of the main program is ever reported, and the sidebands that are reported as lost are at least
those that had been lost before the last successful reading began, and at most those that have been lost. -/
theorem overflow_reported {cpus : Nat} {actions : List OverflowAction} {s : OverflowReport}
    (hrun : run (step cpus) {} actions = .ok s) (hfits : s.lost < 2 ^ 64) :
    s.reported .main = 0 ∧ s.settled ≤ s.reported .sideband ∧ s.reported .sideband ≤ s.lost := by
  have hpreserved : ∀ s a t, (s.lost < 2 ^ 64 → Inv cpus s) → step cpus s a = .ok t → t.lost < 2 ^ 64 → Inv cpus t := by
    intro s a t hs hstep hlost
    obtain ⟨hle, hkeeps⟩ := Inv.step hstep
    exact hkeeps (hs (hle.trans_lt hlost)) hlost
  have hinv := run_invariant hpreserved (fun _ => Inv.initial cpus) hrun hfits
  exact ⟨hinv.mainReported, hinv.low, hinv.high⟩

/-- The ring is full when the main program has its chunk to write, and has room for the two sidebands; they wait for
an event that does not come. Then a cookie is lost, and after that the slots are read, on two processors. -/
def chunkWithoutRoom : List OverflowAction :=
  [.trace 0 (.configure (some 10001)), .trace 0 (.enter { Tracing.sampleEntry 1 with chunkSlot := fun _ => none }),
    .trace 1 (.mark 7 2 1 true), .trace 0 (.trace 7 (Tracing.sampleTransaction 101) true),
    .collect (.handleCookieSideband 0 0 { cookie := cookieOf 2 1, transactionIdHint := 1, tid := 7 }),
    .collect (.handleSideband 0
      { toUidUnsupported := 0, cookie := cookieOf 2 1, kernelDebugId := 101, toPid := 1, toUid := 1000 }),
    .collect (.runSweep (2 * pendingOnewayTTL) ⟨id, List.Perm.refl⟩ ⟨id, List.Perm.refl⟩),
    .trace 0 (.enter (Tracing.sampleEntry 3)), .trace 1 (.mark 7 4 1 false),
    .sync, .copyCell, .copyCell, .storeTotal, .copyCell, .copyCell, .storeTotal]

/-- A sideband was left alone because its event was lost, and only the loss of the cookie is reported. -/
theorem overflow_reported_chunkWithoutRoom :
    ∃ s, run (step 2) {} chunkWithoutRoom = .ok s ∧
      s.collector.failures.sidebandOrphan = 1 ∧ s.lost = 1 ∧ s.settled = 1 ∧
      s.reported .main = 0 ∧ s.settled ≤ s.reported .sideband ∧ s.reported .sideband ≤ s.lost := by
  obtain ⟨s, hrun, horphan, hlost, hsettled⟩ : ∃ s, run (step 2) {} chunkWithoutRoom = .ok s ∧
      s.collector.failures.sidebandOrphan = 1 ∧ s.lost = 1 ∧ s.settled = 1 :=
    exists_of_endsIn (by decide +kernel)
  exact ⟨s, hrun, horphan, hlost, hsettled, overflow_reported hrun (by rw [hlost]; decide)⟩

end OverflowReport

end BinderTracer.Daemon
