import BinderTracer.Kernel.SidebandProbes
import BinderTracer.Lib.Runs
import BinderTracer.Lib.Table

/-!
# The three programs together

Threads run request transactions; each executes the main program, then the cookie program and then, unless
the driver gives the transaction up, the tracepoint program, while user space may set the configured uid at
any time. The programs of a thread find each other through entries of two maps that outlive the transaction
that wrote them. Updates of the maps succeed and nothing is evicted.

What the programs report is about one transaction as long as the cookie program does not go ahead in a
transaction that the main program left out, and the tracepoint program does not find a cookie that an
earlier transaction left behind.
-/

namespace BinderTracer.Kernel

open BinderTracer.Lib

/-- A transaction: its thread, and the number of transactions entered before it. -/
structure TxName where
  tid : UInt32
  number : Nat
deriving DecidableEq, Repr

/-- What a thread is doing: a transaction, in which the cookie program has or has not run. -/
structure Activity where
  tx : TxName
  uid : UInt32
  marked : Bool

/-- The maps that the programs share, the activity of the threads, and what has happened: the ids, cookies
and numbers that transactions were given, and the records with the transaction that wrote them. -/
structure Tracing where
  config : Option UInt32 := none
  tidToTxid : Table UInt32 UInt64 := ∅
  pending : Table UInt32 UInt64 := ∅
  threads : Table UInt32 Activity := ∅
  entered : Nat := 0
  txids : List (TxName × UInt64) := []
  cookies : List (TxName × UInt64) := []
  debugIds : List (TxName × UInt64) := []
  records : List (TxName × RingRecord) := []

/-- What can happen. -/
inductive TracingAction where
  /-- User space writes or deletes the entry of `trace_config_map`. -/
  | configure (config : Option UInt32)
  /-- A thread enters the driver with a request, and the main program runs. -/
  | enter (ctx : ProbeContext)
  /-- The cookie program runs. -/
  | mark (tid : UInt32) (ktime : UInt64) (cpu : UInt32) (reserved : Bool)
  /-- The driver has built the transaction, and the tracepoint program runs. -/
  | trace (tid : UInt32) (transaction : BinderTransaction) (reserved : Bool)
  /-- The driver gives the transaction up. -/
  | fail (tid : UInt32)

namespace Tracing

/-- What the cookie program observes in a thread's transaction. -/
def cookieContext (s : Tracing) (tid : UInt32) (a : Activity) (ktime : UInt64) (cpu : UInt32)
    (reserved : Bool) : CookieContext :=
  { config := s.config, reply := false, currentUid := a.uid, currentTid := tid,
    txid := s.tidToTxid.lookup tid, ktime, cpu, reserved }

/-- What the tracepoint program observes in a thread's transaction. -/
def tracepointContext (s : Tracing) (tid : UInt32) (transaction : BinderTransaction) (reserved : Bool) :
    TracepointContext :=
  { config := s.config, reply := false, transaction := some transaction, currentTid := tid,
    pending := s.pending.lookup tid, reserved }

/-- The main program in a new transaction. -/
def enter (s : Tracing) (ctx : ProbeContext) : Tracing :=
  let tx : TxName := { tid := ctx.currentTid, number := s.entered }
  let result := kprobeBinderTransaction { ctx with config := s.config, reply := false }
  { s with
    tidToTxid := result.tidToTxid.elim s.tidToTxid fun u => s.tidToTxid.insert u.1 u.2
    threads := s.threads.insert ctx.currentTid { tx, uid := ctx.currentUid, marked := false }
    entered := s.entered + 1
    txids := s.txids ++ result.tidToTxid.toList.map fun u => (tx, u.2)
    records := s.records ++ result.records.map fun r => (tx, r) }

/-- The cookie program in a transaction. -/
def mark (s : Tracing) (tid : UInt32) (a : Activity) (ktime : UInt64) (cpu : UInt32) (reserved : Bool) :
    Tracing :=
  let result := kprobeBinderTransactionCookie (s.cookieContext tid a ktime cpu reserved)
  { s with
    pending := result.pending.elim s.pending fun u => s.pending.insert u.1 u.2
    threads := s.threads.insert tid { a with marked := true }
    cookies := s.cookies ++ result.pending.toList.map fun u => (a.tx, u.2)
    records := s.records ++ result.records.map fun r => (a.tx, r) }

/-- The tracepoint program in a transaction, and its end. -/
def trace (s : Tracing) (tid : UInt32) (a : Activity) (transaction : BinderTransaction) (reserved : Bool) :
    Tracing :=
  let result := rawTpBinderTransaction (s.tracepointContext tid transaction reserved)
  { s with
    pending := result.cleared.elim s.pending fun tid => s.pending.erase tid
    threads := s.threads.erase tid
    debugIds := s.debugIds ++ [(a.tx, transaction.kernelDebugId)]
    records := s.records ++ result.records.map fun r => (a.tx, r) }

/-- One action, where it is possible. -/
def step (s : Tracing) : TracingAction → Except Blocked Tracing
  | .configure config => .ok { s with config }
  | .enter ctx =>
    match s.threads.lookup ctx.currentTid with
    | some _ => .error .blocked
    | none => .ok (s.enter ctx)
  | .mark tid ktime cpu reserved =>
    match s.threads.lookup tid with
    | some a => if a.marked then .error .blocked else .ok (s.mark tid a ktime cpu reserved)
    | none => .error .blocked
  | .trace tid transaction reserved =>
    match s.threads.lookup tid with
    | some a => if a.marked then .ok (s.trace tid a transaction reserved) else .error .blocked
    | none => .error .blocked
  | .fail tid =>
    match s.threads.lookup tid with
    | some a => if a.marked then .ok { s with threads := s.threads.erase tid } else .error .blocked
    | none => .error .blocked

/-- The clock readings of a run. -/
def readings (actions : List TracingAction) : List UInt64 :=
  actions.filterMap fun
    | .enter ctx => some ctx.ktime
    | .mark _ ktime _ _ => some ktime
    | _ => none

/-- The records of the cookie program, with the transactions that wrote them. -/
def cookieRecords (s : Tracing) : List (TxName × BinderCookieSideband) :=
  s.records.filterMap fun
    | (x, .cookie e) => some (x, e)
    | _ => none

/-- The records of the tracepoint program, with the transactions that wrote them. -/
def sidebandRecords (s : Tracing) : List (TxName × BinderSidebandEvent) :=
  s.records.filterMap fun
    | (x, .sideband e) => some (x, e)
    | _ => none

theorem mem_cookieRecords {s : Tracing} {x : TxName} {e : BinderCookieSideband}
    (h : (x, e) ∈ s.cookieRecords) : (x, RingRecord.cookie e) ∈ s.records := by
  obtain ⟨⟨y, r⟩, hmem, heq⟩ := List.mem_filterMap.1 h
  cases r <;> cases heq
  exact hmem

theorem mem_sidebandRecords {s : Tracing} {x : TxName} {e : BinderSidebandEvent}
    (h : (x, e) ∈ s.sidebandRecords) : (x, RingRecord.sideband e) ∈ s.records := by
  obtain ⟨⟨y, r⟩, hmem, heq⟩ := List.mem_filterMap.1 h
  cases r <;> cases heq
  exact hmem

/-- **What is reported with one cookie is about one transaction**: where a cookie record with an id and a
tracepoint record with a number have the same cookie, the transaction to which the driver gave the number is
the one to which the main program gave the id. -/
def Correlated (s : Tracing) : Prop :=
  ∀ p ∈ s.cookieRecords, ∀ q ∈ s.sidebandRecords, q.2.cookie = p.2.cookie →
    (q.1, p.2.transactionIdHint) ∈ s.txids ∧ (q.1, q.2.kernelDebugId) ∈ s.debugIds

instance (s : Tracing) : Decidable s.Correlated :=
  inferInstanceAs (Decidable (∀ p ∈ s.cookieRecords, ∀ q ∈ s.sidebandRecords, q.2.cookie = p.2.cookie →
    (q.1, p.2.transactionIdHint) ∈ s.txids ∧ (q.1, q.2.kernelDebugId) ∈ s.debugIds))

/-- The configured uid covers a uid: it is that one, or 0. -/
def Covers (s : Tracing) (uid : UInt32) : Prop := ∃ configured ∈ s.config, configured = 0 ∨ configured = uid

instance (s : Tracing) (uid : UInt32) : Decidable (s.Covers uid) :=
  inferInstanceAs (Decidable (∃ configured ∈ s.config, _))

/-- The condition on the single steps. When the cookie program runs, the clock has not run for `2 ^ 56` nanoseconds,
and if the configured uid covers the thread's and there is an id of the thread, the main program gave the transaction
an id. When the tracepoint program runs and there is a cookie of the thread, the cookie program gave the transaction a
cookie, unless nothing is configured. -/
def Aligned (s : Tracing) : TracingAction → Prop
  | .mark tid ktime cpu _ =>
    ktime.toNat < 2 ^ 56 ∧ ∀ a ∈ s.threads.lookup tid, s.Covers a.uid → (s.tidToTxid.lookup tid).any (· ≠ 0) →
      cookieOf ktime cpu ≠ 0 → a.tx ∈ s.txids.map Prod.fst
  | .trace tid _ _ => ∀ a ∈ s.threads.lookup tid, s.config ≠ none → (s.pending.lookup tid).any (· ≠ 0) →
      a.tx ∈ s.cookies.map Prod.fst
  | _ => True

instance (s : Tracing) : (action : TracingAction) → Decidable (s.Aligned action)
  | .mark tid _ _ _ => inferInstanceAs (Decidable (_ ∧ ∀ a ∈ s.threads.lookup tid, _ → _ → _ → _))
  | .trace tid _ _ => inferInstanceAs (Decidable (∀ a ∈ s.threads.lookup tid, _ → _ → _))
  | .configure _ | .enter _ | .fail _ => inferInstanceAs (Decidable True)

/-! ### What the programs keep -/

/-- A thread in a transaction: what the programs have left for each other in the maps is what they gave the
transaction. -/
structure ThreadOk (s : Tracing) (tid : UInt32) (a : Activity) : Prop where
  tid_eq : a.tx.tid = tid
  number_lt : a.tx.number < s.entered
  txid_left : a.marked = false → ∀ t, (a.tx, t) ∈ s.txids → s.tidToTxid.lookup tid = some t
  unmarked : a.marked = false → ∀ c, (a.tx, c) ∉ s.cookies
  cookie_left : a.marked = true → ∀ c, (a.tx, c) ∈ s.cookies → s.pending.lookup tid = some c

/-- The invariant of the runs whose steps meet the condition. -/
structure Consistent (done : List TracingAction) (s : Tracing) : Prop where
  threads : ∀ tid a, s.threads.lookup tid = some a → ThreadOk s tid a
  txid_number : ∀ x t, (x, t) ∈ s.txids → x.number < s.entered
  cookie_number : ∀ x c, (x, c) ∈ s.cookies → x.number < s.entered
  cookie_record : ∀ x e, (x, RingRecord.cookie e) ∈ s.records →
    (x, e.cookie) ∈ s.cookies ∧ (x, e.transactionIdHint) ∈ s.txids
  sideband_record : ∀ y e, (y, RingRecord.sideband e) ∈ s.records →
    (y, e.cookie) ∈ s.cookies ∧ (y, e.kernelDebugId) ∈ s.debugIds
  cookie_unique : ∀ x y c, (x, c) ∈ s.cookies → (y, c) ∈ s.cookies → x = y
  cookie_clock : ∀ x c, (x, c) ∈ s.cookies → ∃ ktime ∈ readings done, ∃ cpu,
    ktime.toNat < 2 ^ 56 ∧ c = cookieOf ktime cpu

theorem Consistent.correlated {done : List TracingAction} {s : Tracing} (h : Consistent done s) :
    Correlated s := by
  rintro ⟨x, e⟩ he ⟨y, e'⟩ he' hcookie
  obtain ⟨hc, ht⟩ := h.cookie_record x e (mem_cookieRecords he)
  obtain ⟨hc', hd⟩ := h.sideband_record y e' (mem_sidebandRecords he')
  rw [show e'.cookie = e.cookie from hcookie] at hc'
  obtain rfl := h.cookie_unique x y _ hc hc'
  exact ⟨ht, hd⟩

theorem Consistent.initial : Consistent [] {} := by
  constructor <;> intros <;> simp_all

/-- What a program that runs in thread `tid` leaves alone. -/
structure StepOf (tid : UInt32) (s s' : Tracing) : Prop where
  entered_le : s.entered ≤ s'.entered
  tidToTxid : ∀ tid', tid' ≠ tid → s'.tidToTxid.lookup tid' = s.tidToTxid.lookup tid'
  pending : ∀ tid', tid' ≠ tid → s'.pending.lookup tid' = s.pending.lookup tid'
  threads : ∀ tid', tid' ≠ tid → s'.threads.lookup tid' = s.threads.lookup tid'
  txids : ∀ x t, (x, t) ∈ s'.txids → (x, t) ∈ s.txids ∨ x.tid = tid
  cookies : ∀ x c, (x, c) ∈ s'.cookies → (x, c) ∈ s.cookies ∨ x.tid = tid

/-- The other threads do not notice. -/
theorem ThreadOk.other {s s' : Tracing} {tid tid' : UInt32} {a : Activity} (h : ThreadOk s tid' a)
    (hstep : StepOf tid s s') (hne : tid' ≠ tid) : ThreadOk s' tid' a where
  tid_eq := h.tid_eq
  number_lt := h.number_lt.trans_le hstep.entered_le
  txid_left hm t ht := by
    rw [hstep.tidToTxid tid' hne]
    refine h.txid_left hm t ((hstep.txids _ t ht).resolve_right fun htid => ?_)
    exact hne (h.tid_eq.symm.trans htid)
  unmarked hm c hc := by
    refine h.unmarked hm c ((hstep.cookies _ c hc).resolve_right fun htid => ?_)
    exact hne (h.tid_eq.symm.trans htid)
  cookie_left hm c hc := by
    rw [hstep.pending tid' hne]
    refine h.cookie_left hm c ((hstep.cookies _ c hc).resolve_right fun htid => ?_)
    exact hne (h.tid_eq.symm.trans htid)

/-- After a program has run in a thread, only that thread is to be looked at. -/
theorem Consistent.threads_of_own {done : List TracingAction} {s s' : Tracing}
    (h : Consistent done s) (tid : UInt32) (hstep : StepOf tid s s')
    (hown : ∀ a, s'.threads.lookup tid = some a → ThreadOk s' tid a) :
    ∀ tid' a, s'.threads.lookup tid' = some a → ThreadOk s' tid' a := by
  intro tid' a ha
  by_cases htid : tid' = tid
  · subst htid
    exact hown a ha
  · rw [hstep.threads tid' htid] at ha
    exact (h.threads tid' a ha).other hstep htid

theorem readings_append (actions more : List TracingAction) :
    readings (actions ++ more) = readings actions ++ readings more :=
  List.filterMap_append

theorem Consistent.cookie_clock_append {done : List TracingAction} {s : Tracing} (h : Consistent done s)
    (action : TracingAction) : ∀ x c, (x, c) ∈ s.cookies → ∃ ktime ∈ readings (done ++ [action]), ∃ cpu,
      ktime.toNat < 2 ^ 56 ∧ c = cookieOf ktime cpu := by
  intro x c hc
  obtain ⟨ktime, hmem, hclock⟩ := h.cookie_clock x c hc
  rw [readings_append]
  exact ⟨ktime, List.mem_append_left _ hmem, hclock⟩

section
variable {done : List TracingAction} {s : Tracing}

/-- A program reports about its transaction what the programs have given it. -/
theorem Consistent.report (h : Consistent done s) {tx : TxName} {written : List RingRecord}
    (hcookie : ∀ e, RingRecord.cookie e ∈ written →
      (tx, e.cookie) ∈ s.cookies ∧ (tx, e.transactionIdHint) ∈ s.txids)
    (hsideband : ∀ e, RingRecord.sideband e ∈ written →
      (tx, e.cookie) ∈ s.cookies ∧ (tx, e.kernelDebugId) ∈ s.debugIds) :
    Consistent done { s with records := s.records ++ written.map fun r => (tx, r) } := by
  have hmem : ∀ {x r}, (x, r) ∈ s.records ++ written.map (fun r => (tx, r)) →
      (x, r) ∈ s.records ∨ x = tx ∧ r ∈ written := by
    intro x r hr
    rcases List.mem_append.1 hr with hr | hr
    · exact .inl hr
    · obtain ⟨r', hr', heq⟩ := List.mem_map.1 hr
      cases heq
      exact .inr ⟨rfl, hr'⟩
  refine ⟨fun tid a ha => ?_, h.txid_number, h.cookie_number, fun x e he => ?_, fun y e he => ?_,
    h.cookie_unique, h.cookie_clock⟩
  · obtain ⟨htid, hnumber, hleft, hunmarked, hleft'⟩ := h.threads tid a ha
    exact ⟨htid, hnumber, hleft, hunmarked, hleft'⟩
  · rcases hmem he with hold | ⟨rfl, hnew⟩
    · exact h.cookie_record x e hold
    · exact hcookie e hnew
  · rcases hmem he with hold | ⟨rfl, hnew⟩
    · exact h.sideband_record y e hold
    · exact hsideband e hnew

/-- A new transaction, to which the main program gives an id or none. -/
theorem Consistent.begins (h : Consistent done s) (ctx : ProbeContext) {update : Option (UInt32 × UInt64)}
    (hupdate : ∀ u ∈ update, u.1 = ctx.currentTid) {tx : TxName} (htid : tx.tid = ctx.currentTid)
    (hnumber : tx.number = s.entered) :
    Consistent (done ++ [TracingAction.enter ctx]) { s with
      tidToTxid := update.elim s.tidToTxid fun u => s.tidToTxid.insert u.1 u.2
      threads := s.threads.insert ctx.currentTid { tx, uid := ctx.currentUid, marked := false }
      entered := s.entered + 1
      txids := s.txids ++ update.toList.map fun u => (tx, u.2) } := by
  have hgiven : ∀ {x t}, (x, t) ∈ s.txids ++ update.toList.map (fun u => (tx, u.2)) →
      (x, t) ∈ s.txids ∨ x = tx ∧ update = some (ctx.currentTid, t) := by
    intro x t ht
    rcases List.mem_append.1 ht with ht | ht
    · exact .inl ht
    · obtain ⟨⟨tid, t'⟩, hu, heq⟩ := List.mem_map.1 ht
      cases heq
      obtain rfl : tid = ctx.currentTid := hupdate _ (Option.mem_toList.1 hu)
      exact .inr ⟨rfl, Option.mem_toList.1 hu⟩
  refine ⟨h.threads_of_own ctx.currentTid ?_ fun a ha => ?_, fun x t ht => ?_, fun x c hc => ?_, fun x e he => ?_,
    h.sideband_record, h.cookie_unique, h.cookie_clock_append _⟩
  · refine ⟨Nat.le_succ _, fun tid' hne => ?_, fun _ _ => rfl, fun tid' hne => AList.lookup_insert_ne hne,
      fun x t ht => ?_, fun x c hc => .inl hc⟩
    · cases update with
      | none => rfl
      | some u =>
        rw [← hupdate u rfl] at hne
        exact AList.lookup_insert_ne hne
    · rcases hgiven ht with ht | ⟨rfl, -⟩
      · exact .inl ht
      · exact .inr htid
  · rw [AList.lookup_insert] at ha
    cases ha
    -- the number is new
    have hnew : ¬ tx.number < s.entered := by omega
    refine ⟨htid, hnumber.trans_lt (Nat.lt_succ_self _), fun _ t ht => ?_, fun _ c hc => ?_, fun hm => by cases hm⟩
    · rcases hgiven ht with ht | ⟨-, rfl⟩
      · exact absurd (h.txid_number _ t ht) hnew
      · exact AList.lookup_insert _
    · exact absurd (h.cookie_number _ c hc) hnew
  · show x.number < s.entered + 1
    rcases hgiven ht with ht | ⟨rfl, -⟩
    · exact Nat.lt_succ_of_lt (h.txid_number x t ht)
    · omega
  · exact Nat.lt_succ_of_lt (h.cookie_number x c hc)
  · obtain ⟨hc, ht⟩ := h.cookie_record x e he
    exact ⟨hc, List.mem_append_left _ ht⟩

/-- The main program gives an id to the new transaction only. -/
theorem Consistent.enter (h : Consistent done s) (ctx : ProbeContext) :
    Consistent (done ++ [TracingAction.enter ctx]) (s.enter ctx) := by
  let ctx' : ProbeContext := { ctx with config := s.config, reply := false }
  have hupdate : ∀ u ∈ (kprobeBinderTransaction ctx').tidToTxid, u.1 = ctx.currentTid := by
    rintro u hu
    rcases kprobe_tidToTxid ctx' rfl with hw | hw
    · rw [hw] at hu
      cases hu
    · rw [hw] at hu
      cases hu
      rfl
  refine (h.begins ctx hupdate rfl rfl).report (fun e he => ?_) fun e he => ?_
  · rcases kprobe_records he with ⟨e', he', -⟩ | ⟨e', he'⟩ <;> cases he'
  · rcases kprobe_records he with ⟨e', he', -⟩ | ⟨e', he'⟩ <;> cases he'

/-- The cookie program has run in a transaction and left it without a cookie. -/
theorem Consistent.passes (h : Consistent done s) {tid : UInt32} {a : Activity} (action : TracingAction)
    (ha : s.threads.lookup tid = some a) (hm : a.marked = false) :
    Consistent (done ++ [action]) { s with threads := s.threads.insert tid { a with marked := true } } := by
  have hok := h.threads tid a ha
  have hstep : StepOf tid s { s with threads := s.threads.insert tid { a with marked := true } } :=
    ⟨Nat.le_refl _, fun _ _ => rfl, fun _ _ => rfl, fun tid' hne => AList.lookup_insert_ne hne,
      fun _ _ => .inl, fun _ _ => .inl⟩
  refine ⟨h.threads_of_own _ hstep fun a' ha' => ?_, h.txid_number, h.cookie_number, h.cookie_record,
    h.sideband_record, h.cookie_unique, h.cookie_clock_append action⟩
  rw [AList.lookup_insert] at ha'
  cases ha'
  exact ⟨hok.tid_eq, hok.number_lt, fun hm' => Bool.noConfusion hm', fun hm' => Bool.noConfusion hm',
    fun _ c hc => absurd hc (hok.unmarked hm c)⟩

/-- The cookie program has run in a transaction and given it a cookie that no transaction has. -/
theorem Consistent.givesCookie (h : Consistent done s) {tid : UInt32} {a : Activity} {ktime : UInt64} {cpu : UInt32}
    (reserved : Bool) (ha : s.threads.lookup tid = some a) (hm : a.marked = false) (hfits : ktime.toNat < 2 ^ 56)
    (hfresh : ktime ∉ readings done) :
    Consistent (done ++ [TracingAction.mark tid ktime cpu reserved]) { s with
      pending := s.pending.insert tid (cookieOf ktime cpu)
      threads := s.threads.insert tid { a with marked := true }
      cookies := s.cookies ++ [(a.tx, cookieOf ktime cpu)] } := by
  have hok := h.threads tid a ha
  have hclock := h.cookie_clock_append (.mark tid ktime cpu reserved)
  have hnew (x : TxName) : (x, cookieOf ktime cpu) ∉ s.cookies := by
    intro hmem
    obtain ⟨ktime', hread, cpu', hfits', heq⟩ := h.cookie_clock x _ hmem
    exact hfresh (cookieOf_injective hfits hfits' heq ▸ hread)
  have hgiven : ∀ {x c}, (x, c) ∈ s.cookies ++ [(a.tx, cookieOf ktime cpu)] →
      (x, c) ∈ s.cookies ∨ x = a.tx ∧ c = cookieOf ktime cpu := by
    intro x c hc
    rcases List.mem_append.1 hc with hc | hc
    · exact .inl hc
    · cases List.mem_singleton.1 hc
      exact .inr ⟨rfl, rfl⟩
  refine ⟨h.threads_of_own tid ?_ fun a' ha' => ?_, h.txid_number, fun x c hc => ?_,
    fun x e he => ?_, fun y e he => ?_, fun x y c hx hy => ?_, fun x c hc => ?_⟩
  · refine ⟨Nat.le_refl _, fun _ _ => rfl, fun tid' hne => AList.lookup_insert_ne hne,
      fun tid' hne => AList.lookup_insert_ne hne, fun _ _ => .inl, fun x c hc => ?_⟩
    rcases hgiven hc with hc | ⟨rfl, -⟩
    · exact .inl hc
    · exact .inr hok.tid_eq
  · rw [AList.lookup_insert] at ha'
    cases ha'
    refine ⟨hok.tid_eq, hok.number_lt, fun hm' => Bool.noConfusion hm', fun hm' => Bool.noConfusion hm',
      fun _ c hc => ?_⟩
    rcases hgiven hc with hc | ⟨-, rfl⟩
    · exact absurd hc (hok.unmarked hm c)
    · exact AList.lookup_insert _
  · rcases hgiven hc with hc | ⟨rfl, -⟩
    · exact h.cookie_number x c hc
    · exact hok.number_lt
  · obtain ⟨hc, ht⟩ := h.cookie_record x e he
    exact ⟨List.mem_append_left _ hc, ht⟩
  · obtain ⟨hc, hd⟩ := h.sideband_record y e he
    exact ⟨List.mem_append_left _ hc, hd⟩
  · rcases hgiven hx with hx | ⟨rfl, rfl⟩
    · rcases hgiven hy with hy | ⟨rfl, rfl⟩
      · exact h.cookie_unique x y c hx hy
      · exact absurd hx (hnew x)
    · rcases hgiven hy with hy | ⟨rfl, -⟩
      · exact absurd hy (hnew y)
      · rfl
  · rcases hgiven hc with hc | ⟨-, rfl⟩
    · exact hclock x c hc
    · rw [readings_append]
      exact ⟨ktime, List.mem_append_right _ List.mem_cons_self, cpu, hfits, rfl⟩

/-- The cookie program gives its transaction a cookie that no transaction has, and reports it with the
transaction's id. -/
theorem Consistent.mark (h : Consistent done s) {tid : UInt32} {a : Activity} {ktime : UInt64} {cpu : UInt32}
    {reserved : Bool} (ha : s.threads.lookup tid = some a) (hm : a.marked = false)
    (haligned : s.Aligned (.mark tid ktime cpu reserved)) (hfresh : ktime ∉ readings done) :
    Consistent (done ++ [TracingAction.mark tid ktime cpu reserved]) (s.mark tid a ktime cpu reserved) := by
  obtain ⟨hfits, hassigned⟩ := haligned
  have hassigned := hassigned a ha
  unfold Tracing.mark
  dsimp only
  rcases kprobeBinderTransactionCookie_cases (s.cookieContext tid a ktime cpu reserved) with
    hnothing | ⟨transactionId, hcovers, hfound, hid, hcookie, hpending, hrecords⟩
  · rw [hnothing]
    simp only [Option.elim_none, Option.toList_none, List.map_nil, List.append_nil]
    exact h.passes _ ha hm
  · have hfound : s.tidToTxid.lookup tid = some transactionId := hfound
    obtain ⟨⟨_, t⟩, ht, rfl⟩ := List.mem_map.1 (hassigned hcovers (by rw [hfound]; exact decide_eq_true hid) hcookie)
    obtain rfl : t = transactionId :=
      Option.some.inj (((h.threads tid a ha).txid_left hm t ht).symm.trans hfound)
    rw [hpending]
    refine (h.givesCookie reserved ha hm hfits hfresh).report (fun e he => ?_) fun e he => ?_
    · cases hrecords _ he
      exact ⟨List.mem_append_right _ List.mem_cons_self, ht⟩
    · cases hrecords _ he

/-- The transaction of a thread ends: its number is known, and its cookie may be deleted. -/
theorem Consistent.ends (h : Consistent done s) {tid : UInt32} (action : TracingAction) {cleared : Option UInt32}
    (hcleared : ∀ tid' ∈ cleared, tid' = tid) (given : List (TxName × UInt64)) :
    Consistent (done ++ [action]) { s with
      pending := cleared.elim s.pending fun tid => s.pending.erase tid
      threads := s.threads.erase tid
      debugIds := s.debugIds ++ given } := by
  refine ⟨h.threads_of_own tid ?_ fun a' ha' => ?_, h.txid_number, h.cookie_number, h.cookie_record,
    fun y e he => ?_, h.cookie_unique, h.cookie_clock_append action⟩
  · refine ⟨Nat.le_refl _, fun _ _ => rfl, fun tid' hne => ?_, fun tid' hne => AList.lookup_erase_ne hne,
      fun _ _ => .inl, fun _ _ => .inl⟩
    cases cleared with
    | none => rfl
    | some tid'' =>
      obtain rfl := hcleared tid'' rfl
      exact AList.lookup_erase_ne hne
  · rw [AList.lookup_erase] at ha'
    cases ha'
  · obtain ⟨hc, hd⟩ := h.sideband_record y e he
    exact ⟨hc, List.mem_append_left _ hd⟩

/-- The tracepoint program reports its transaction's cookie with the transaction's number. -/
theorem Consistent.trace (h : Consistent done s) {tid : UInt32} {a : Activity} {transaction : BinderTransaction}
    {reserved : Bool} (ha : s.threads.lookup tid = some a) (hm : a.marked = true)
    (haligned : s.Aligned (.trace tid transaction reserved)) :
    Consistent (done ++ [TracingAction.trace tid transaction reserved]) (s.trace tid a transaction reserved) := by
  have haligned := haligned a ha
  unfold Tracing.trace
  dsimp only
  rcases rawTpBinderTransaction_cases (s.tracepointContext tid transaction reserved) with
    hnothing | ⟨t, cookie, hconfig, ht, hpending, hcookie, hcleared, hrecords⟩
  · rw [hnothing]
    have hnone : ∀ tid' ∈ (none : Option UInt32), tid' = tid := fun tid' h => by cases h
    rw [List.map_nil, List.append_nil]
    exact h.ends _ hnone _
  · cases ht
    have hpending : s.pending.lookup tid = some cookie := hpending
    obtain ⟨⟨_, c⟩, hc, rfl⟩ := List.mem_map.1 (haligned hconfig (by rw [hpending]; exact decide_eq_true hcookie))
    obtain rfl : c = cookie :=
      Option.some.inj (((h.threads tid a ha).cookie_left hm c hc).symm.trans hpending)
    rw [hcleared]
    have hown : ∀ tid' ∈ some tid, tid' = tid := fun tid' h => (Option.some.inj h).symm
    refine (h.ends _ hown _).report (fun e he => ?_) fun e he => ?_
    · obtain ⟨e', he', -⟩ := hrecords _ he
      cases he'
    · obtain ⟨e', he', hcookie, hdebug⟩ := hrecords _ he
      cases he'
      exact ⟨hcookie ▸ hc, List.mem_append_right _ (by rw [hdebug]; exact List.mem_cons_self)⟩

/-- **Every step that meets the condition** keeps the invariant. -/
theorem Consistent.next (h : Consistent done s) {action : TracingAction} {s' : Tracing}
    (hclock : (readings (done ++ [action])).Nodup) (haligned : s.Aligned action)
    (hstep : s.step action = .ok s') : Consistent (done ++ [action]) s' := by
  cases action with
  | configure config =>
    cases hstep
    have hthreads (tid : UInt32) (a : Activity) (ha : s.threads.lookup tid = some a) :
        ThreadOk { s with config } tid a := by
      obtain ⟨htid, hnumber, hleft, hunmarked, hcookie⟩ := h.threads tid a ha
      exact ⟨htid, hnumber, hleft, hunmarked, hcookie⟩
    exact ⟨hthreads, h.txid_number, h.cookie_number, h.cookie_record, h.sideband_record, h.cookie_unique,
      h.cookie_clock_append _⟩
  | enter ctx =>
    simp only [step] at hstep
    split at hstep
    · cases hstep
    · cases hstep
      exact h.enter ctx
  | mark tid ktime cpu reserved =>
    simp only [step] at hstep
    split at hstep
    case h_2 => cases hstep
    case h_1 a ha =>
      split at hstep
      · cases hstep
      · next hm =>
        cases hstep
        refine h.mark ha (Bool.eq_false_iff.2 hm) haligned fun hread => ?_
        rw [readings_append, List.nodup_append] at hclock
        exact hclock.2.2 ktime hread ktime List.mem_cons_self rfl
  | trace tid transaction reserved =>
    simp only [step] at hstep
    split at hstep
    case h_2 => cases hstep
    case h_1 a ha =>
      split at hstep
      · next hm =>
        cases hstep
        exact h.trace ha hm haligned
      · cases hstep
  | fail tid =>
    simp only [step] at hstep
    split at hstep
    case h_2 => cases hstep
    case h_1 a ha =>
      split at hstep
      · cases hstep
        have hnone : ∀ tid' ∈ (none : Option UInt32), tid' = tid := fun tid' h => by cases h
        have hends := h.ends (.fail tid) hnone []
        rw [List.append_nil] at hends
        exact hends
      · cases hstep

end

/-- **The three programs report on one transaction**: in every state of a run with different clock readings
whose steps meet the condition. -/
theorem programs_correlated {actions : List TracingAction} (hclock : (readings actions).Nodup)
    (haligned : StepsMeet step Aligned {} actions) :
    ∀ done, done <+: actions → ∀ s, run step {} done = .ok s → Correlated s := by
  intro done hdone s hrun
  suffices hconsistent : Consistent done s from hconsistent.correlated
  refine run_along Consistent.initial (fun before action m t hpre hm hinv hstep => ?_) hrun
  have hpre' := hpre.trans hdone
  refine hinv.next ?_ (haligned before action hpre' m hm) hstep
  exact hclock.sublist (hpre'.sublist.filterMap _)

/-! ### Two runs -/

/-- A request of thread 7 of the app 10001. -/
def sampleEntry (ktime : UInt64) : ProbeContext where
  config := none
  reply := false
  tr := some { code := 1, flags := 0, dataSize := 20, target := 0, buffer := 0 }
  transactionStack := none
  currentUid := 10001
  currentPid := 7
  currentTid := 7
  ktime
  contextName := some 98
  userMemory := fun _ => some 0
  stackSlot := none
  chunkSlot := fun _ => some (List.Vector.replicate _ 0)

/-- What the driver has built. -/
def sampleTransaction (debugId : Int32) : BinderTransaction := { debugId, toPid := 1, toEuid := some 1000 }

/-- Two requests while the app is monitored, the first of which the driver gives up. -/
def monitoredRun : List TracingAction :=
  [.configure (some 10001), .enter (sampleEntry 1), .mark 7 2 0 true, .fail 7,
    .enter (sampleEntry 3), .mark 7 4 0 true, .trace 7 (sampleTransaction 102) true]

/-- The main program leaves the second request out; then the app is monitored again, and the other two
programs do not. -/
def uidChangeRun : List TracingAction :=
  [.configure (some 10001), .enter (sampleEntry 1), .mark 7 2 0 true, .trace 7 (sampleTransaction 101) true,
    .configure (some 10002), .enter (sampleEntry 3), .configure (some 10001), .mark 7 4 0 true,
    .trace 7 (sampleTransaction 102) true]

theorem monitoredRun_correlated :
    ∃ s, run step {} monitoredRun = .ok s ∧ s.sidebandRecords ≠ [] ∧ Correlated s := by
  obtain ⟨s, hrun, hsome⟩ := exists_of_endsIn (x := run step {} monitoredRun)
    (P := fun s => s.sidebandRecords ≠ []) (by decide +kernel)
  have hclock : (readings monitoredRun).Nodup := by decide
  have haligned : StepsMeet step Aligned {} monitoredRun := stepsMeet_of_eval (by decide +kernel)
  exact ⟨s, hrun, hsome, programs_correlated hclock haligned _ List.prefix_rfl s hrun⟩

/-- The driver gives the first request up, and its cookie is left behind; the next one is not monitored, and
the tracepoint program finds that cookie. -/
def leftoverRun : List TracingAction :=
  [.configure (some 10001), .enter (sampleEntry 1), .mark 7 2 0 true, .fail 7,
    .configure (some 10002), .enter (sampleEntry 3), .mark 7 4 0 true, .trace 7 (sampleTransaction 102) true]

/-- The id of one request is reported for another one. -/
theorem uid_changes_cross :
    ((readings uidChangeRun).Nodup ∧ ∃ s, run step {} uidChangeRun = .ok s ∧ ¬Correlated s) ∧
      (readings leftoverRun).Nodup ∧ ∃ s, run step {} leftoverRun = .ok s ∧ ¬Correlated s :=
  ⟨⟨by decide, exists_of_endsIn (by decide +kernel)⟩, by decide, exists_of_endsIn (by decide +kernel)⟩

end Tracing

end BinderTracer.Kernel
