import BinderTracer.App.BinderEvent
import BinderTracer.Lib.SignedWords
import BinderTracer.Lib.Table

/-!
# Pairing replies with requests

`TransactionPairer`: two tables of requests that wait for their reply, one for the requests that the
monitored app sends as a client and one for those that it receives as a server. Times are readings of
the injected clock in milliseconds. A `ConcurrentHashMap` hands out its entries in an order
that is not specified; a call is given that order.
-/

namespace BinderTracer.App

open BinderTracer.Lib

structure PairResult where
  interfaceName : Option String
  methodName : Option String
  code : Int32
  resolveCandidates : List String
  decodeSource : Option DecodeSource
deriving DecidableEq, Repr

structure PendingRequest where
  result : PairResult
  enqueuedAtMs : Int64
deriving DecidableEq, Repr

/-- Which of the two tables. -/
inductive Side where
  | client | server
deriving DecidableEq, Repr

abbrev Requests := Table Int64 PendingRequest

abbrev RequestOrder := IterationOrder Int64 PendingRequest

structure TransactionPairer where
  clientRequests : Requests := ∅
  serverRequests : Requests := ∅

namespace TransactionPairer

/-- `TTL_MS`. -/
abbrev ttlMs : Int64 := 5000

/-- `MAX_ENTRIES`. -/
abbrev maxEntries : Nat := 4096

def requests (s : TransactionPairer) : Side → Requests
  | .client => s.clientRequests
  | .server => s.serverRequests

def update (s : TransactionPairer) (side : Side) (f : Requests → Requests) : TransactionPairer :=
  match side with
  | .client => { s with clientRequests := f s.clientRequests }
  | .server => { s with serverRequests := f s.serverRequests }

/-- The table that `recordRequest` files a request in, if any. -/
def filedIn (event : BinderEvent) (targetUid : Int32) : Option Side :=
  if event.isReply then none
  else if event.pairId = 0 then none
  else if targetUid ≤ 0 then none
  else
    let senderHit := event.uid = targetUid
    let toHit := event.toUid ≠ 0 ∧ event.toUid = targetUid
    if ¬senderHit ∧ ¬toHit then none else if senderHit then some .client else some .server

/-- The table that `tryMatchReply` looks a reply up in, if any. -/
def lookedUpIn (event : BinderEvent) (targetUid : Int32) : Option Side :=
  if ¬event.isReply then none
  else if event.pairId = 0 then none
  else if targetUid ≤ 0 then none
  else
    let senderHit := event.uid = targetUid
    let toHit := event.toUid ≠ 0 ∧ event.toUid = targetUid
    if toHit then some .client else if senderHit then some .server else some .client

/-- What `recordRequest` keeps of a request. -/
def pairResult (event : BinderEvent) : PairResult where
  interfaceName := if event.interfaceName ≠ "Unknown" then some event.interfaceName else none
  methodName := if event.methodName ≠ BinderEvent.codeText event.code then some event.methodName else none
  code := event.code
  resolveCandidates := event.resolveCandidates
  decodeSource := event.decodeSource

/-- The entry of `recordRequest`. -/
def pendingRequest (event : BinderEvent) (now : Int64) : PendingRequest where
  result := pairResult event
  enqueuedAtMs := now

/-- The first half of `putAndEvict`: the entry is put, and those past their time are removed. -/
def putAndExpire (table : Requests) (pairId : Int64) (entry : PendingRequest) (now : Int64) : Requests :=
  (table.insert pairId entry).retain fun e => ¬e.enqueuedAtMs < now - ttlMs

/-- `putAndEvict`. -/
def putAndEvict (order : RequestOrder) (table : Requests) (pairId : Int64) (entry : PendingRequest)
    (now : Int64) : Requests :=
  (putAndExpire table pairId entry now).evictOldest PendingRequest.enqueuedAtMs maxEntries order

/-- `recordRequest`. -/
def recordRequest (s : TransactionPairer) (event : BinderEvent) (targetUid : Int32) (now : Int64)
    (order : RequestOrder) : TransactionPairer :=
  match filedIn event targetUid with
  | none => s
  | some side =>
    s.update side fun table => putAndEvict order table event.pairId (pendingRequest event now) now

/-- `tryMatchReply`. -/
def tryMatchReply (s : TransactionPairer) (event : BinderEvent) (targetUid : Int32) (now : Int64) :
    Option PairResult × TransactionPairer :=
  match lookedUpIn event targetUid with
  | none => (none, s)
  | some side =>
    match (s.requests side).lookup event.pairId with
    | none => (none, s)
    | some pending =>
      let s := s.update side fun table => table.erase event.pairId
      if now - pending.enqueuedAtMs > ttlMs then (none, s) else (some pending.result, s)

/-! ### Runs -/

/-- A call, with the reading of the clock. -/
inductive Call where
  | recordRequest (event : BinderEvent) (targetUid : Int32) (now : Int64) (order : RequestOrder)
  | tryMatchReply (event : BinderEvent) (targetUid : Int32) (now : Int64)

def Call.pairId : Call → Int64
  | .recordRequest event _ _ _ => event.pairId
  | .tryMatchReply event _ _ => event.pairId

def Call.now : Call → Int64
  | .recordRequest _ _ now _ => now
  | .tryMatchReply _ _ now => now

/-- The state after a call. -/
def step (s : TransactionPairer) : Call → TransactionPairer
  | .recordRequest event targetUid now order => s.recordRequest event targetUid now order
  | .tryMatchReply event targetUid now => (s.tryMatchReply event targetUid now).2

/-- The state after a sequence of calls. -/
def run (s : TransactionPairer) (calls : List Call) : TransactionPairer := calls.foldl step s

/-- The call evicts the request under `k`, which is not past its time, because its table is full. -/
def CapacityEvicts (s : TransactionPairer) (k : Int64) : Call → Prop
  | .recordRequest event targetUid now order =>
    ∃ side ∈ filedIn event targetUid,
      (putAndExpire (s.requests side) event.pairId (pendingRequest event now) now).lookup k ≠ none ∧
        (putAndEvict order (s.requests side) event.pairId (pendingRequest event now) now).lookup k = none
  | .tryMatchReply _ _ _ => False

/-- No call of the sequence evicts the request under `k` because a table is full. -/
def Spares (k : Int64) : TransactionPairer → List Call → Prop
  | _, [] => True
  | s, c :: calls => ¬CapacityEvicts s k c ∧ Spares k (s.step c) calls

/-! ### What a call does -/

theorem requests_update (s : TransactionPairer) (side side' : Side) (f : Requests → Requests) :
    (s.update side f).requests side' = if side' = side then f (s.requests side') else s.requests side' := by
  cases side <;> cases side' <;> rfl

/-- A call leaves a table alone, removes its pair id from it, or files a request in it. -/
theorem requests_step (s : TransactionPairer) (c : Call) (side : Side) :
    (s.step c).requests side = s.requests side ∨
    (s.step c).requests side = (s.requests side).erase c.pairId ∨
    ∃ event targetUid now order, c = .recordRequest event targetUid now order ∧
      filedIn event targetUid = some side ∧
      (s.step c).requests side =
        putAndEvict order (s.requests side) event.pairId (pendingRequest event now) now := by
  cases c with
  | recordRequest event targetUid now order =>
    simp only [step, recordRequest]
    cases hfiled : filedIn event targetUid with
    | none => exact .inl rfl
    | some side' =>
      by_cases hside : side = side'
      · subst hside
        exact .inr (.inr ⟨event, targetUid, now, order, rfl, hfiled, by rw [requests_update, if_pos rfl]⟩)
      · exact .inl (by rw [requests_update, if_neg hside])
  | tryMatchReply event targetUid now =>
    simp only [step, tryMatchReply, Call.pairId]
    cases lookedUpIn event targetUid with
    | none => exact .inl rfl
    | some side' =>
      cases hpending : (s.requests side').lookup event.pairId with
      | none => exact .inl (by simp only [hpending])
      | some pending =>
        by_cases hside : side = side'
        · subst hside
          right; left
          simp only [hpending]
          split <;> rw [requests_update, if_pos rfl]
        · left
          simp only [hpending]
          split <;> rw [requests_update, if_neg hside]

theorem lookup_putAndExpire {k pairId : Int64} (hk : k ≠ pairId) (table : Requests) (entry : PendingRequest)
    (now : Int64) : (putAndExpire table pairId entry now).lookup k =
      (table.lookup k).filter fun e => ¬e.enqueuedAtMs < now - ttlMs := by
  rw [putAndExpire, AList.lookup_retain, AList.lookup_insert_ne hk]

section
variable {s : TransactionPairer} {c : Call} {k : Int64} {side : Side}

/-- A call with another pair id files nothing under `k`. -/
theorem lookup_step_none (hk : c.pairId ≠ k) (h : (s.requests side).lookup k = none) :
    ((s.step c).requests side).lookup k = none := by
  rcases requests_step s c side with heq | heq | ⟨event, targetUid, now, order, rfl, -, heq⟩
  · rw [heq, h]
  · rw [heq, AList.lookup_erase_ne hk.symm, h]
  · have hexp : (putAndExpire (s.requests side) event.pairId (pendingRequest event now) now).lookup k = none := by
      rw [lookup_putAndExpire (show k ≠ event.pairId from hk.symm), h]
      rfl
    rw [heq, putAndEvict]
    rcases AList.lookup_evictOldest PendingRequest.enqueuedAtMs maxEntries order _ k with hk' | hk'
    · exact hk'.trans hexp
    · exact hk'

/-- What is not past its time at a lookup is not at a call of `putAndEvict` either. -/
theorem not_lt_sub_ttlMs {enqueued now : Int64} (henqueued : 0 ≤ enqueued) (hnow : 0 ≤ now)
    (h : now - enqueued ≤ ttlMs) : ¬enqueued < now - ttlMs := by
  rw [Int64.le_iff_toInt_le, toInt_sub_of_nonneg hnow henqueued] at h
  rw [Int64.lt_iff_toInt_lt, toInt_sub_of_nonneg hnow (by decide)]
  omega

/-- A call with another pair id keeps a request that is not past its time, unless its table is full. -/
theorem lookup_step_some {e : PendingRequest} (hk : c.pairId ≠ k) (h : (s.requests side).lookup k = some e)
    (htime : ¬e.enqueuedAtMs < c.now - ttlMs) (hspared : ¬CapacityEvicts s k c) :
    ((s.step c).requests side).lookup k = some e := by
  rcases requests_step s c side with heq | heq | ⟨event, targetUid, now, order, rfl, hfiled, heq⟩
  · rw [heq, h]
  · rw [heq, AList.lookup_erase_ne hk.symm, h]
  · have hexp : (putAndExpire (s.requests side) event.pairId (pendingRequest event now) now).lookup k = some e := by
      rw [lookup_putAndExpire (show k ≠ event.pairId from hk.symm), h, Option.filter_some]
      exact if_pos (decide_eq_true htime)
    rw [heq]
    rcases AList.lookup_evictOldest PendingRequest.enqueuedAtMs maxEntries order
      (putAndExpire (s.requests side) event.pairId (pendingRequest event now) now) k
      with hk' | hk'
    · exact hk'.trans hexp
    · refine absurd ⟨side, hfiled, ?_, hk'⟩ hspared
      rw [hexp]
      exact Option.some_ne_none e

/-- A request that is filed is in its table afterwards, unless that is full. -/
theorem lookup_step_filed {event : BinderEvent} {targetUid : Int32} {now : Int64} {order : RequestOrder}
    (hfiled : filedIn event targetUid = some side) (hnow : 0 ≤ now)
    (hspared : ¬CapacityEvicts s event.pairId (.recordRequest event targetUid now order)) :
    ((s.step (.recordRequest event targetUid now order)).requests side).lookup event.pairId =
      some (pendingRequest event now) := by
  have hexp : (putAndExpire (s.requests side) event.pairId (pendingRequest event now) now).lookup
      event.pairId = some (pendingRequest event now) := by
    rw [putAndExpire, AList.lookup_retain, AList.lookup_insert, Option.filter_some]
    have hself : now - now ≤ ttlMs := by rw [Int64.sub_self]; decide
    exact if_pos (decide_eq_true (not_lt_sub_ttlMs hnow hnow hself))
  rw [step, recordRequest, hfiled]
  simp only
  rw [requests_update, if_pos rfl, putAndEvict]
  rcases AList.lookup_evictOldest PendingRequest.enqueuedAtMs maxEntries order
    (putAndExpire (s.requests side) event.pairId (pendingRequest event now) now) event.pairId with h | h
  · exact h.trans hexp
  · refine absurd ⟨side, hfiled, ?_, h⟩ hspared
    rw [hexp]
    exact Option.some_ne_none _

theorem lookup_run_none {calls : List Call} (hk : ∀ c ∈ calls, c.pairId ≠ k)
    (h : (s.requests side).lookup k = none) : ((s.run calls).requests side).lookup k = none := by
  induction calls generalizing s with
  | nil => exact h
  | cons c calls ih =>
    exact ih (fun c' hc' => hk c' (List.mem_cons_of_mem c hc'))
      (lookup_step_none (hk c List.mem_cons_self) h)

theorem lookup_run_some {calls : List Call} {e : PendingRequest} (hk : ∀ c ∈ calls, c.pairId ≠ k)
    (htime : ∀ c ∈ calls, ¬e.enqueuedAtMs < c.now - ttlMs) (hspared : Spares k s calls)
    (h : (s.requests side).lookup k = some e) : ((s.run calls).requests side).lookup k = some e := by
  induction calls generalizing s with
  | nil => exact h
  | cons c calls ih =>
    apply ih (fun c' hc' => hk c' (List.mem_cons_of_mem c hc'))
      (fun c' hc' => htime c' (List.mem_cons_of_mem c hc')) hspared.2
    exact lookup_step_some (hk c List.mem_cons_self) h (htime c List.mem_cons_self) hspared.1

end

/-- A reply that is looked up where nothing waits for it finds nothing. -/
theorem tryMatchReply_none {s : TransactionPairer} {event : BinderEvent} {targetUid : Int32} (now : Int64)
    (h : ∀ side ∈ lookedUpIn event targetUid, (s.requests side).lookup event.pairId = none) :
    (s.tryMatchReply event targetUid now).1 = none := by
  rw [tryMatchReply]
  cases hside : lookedUpIn event targetUid with
  | none => rfl
  | some side =>
    simp only
    rw [h side hside]

/-- A reply in time takes the request that waits for it. -/
theorem tryMatchReply_some {s : TransactionPairer} {event : BinderEvent} {targetUid : Int32} {now : Int64}
    {side : Side} {pending : PendingRequest} (hside : lookedUpIn event targetUid = some side)
    (h : (s.requests side).lookup event.pairId = some pending)
    (htime : now - pending.enqueuedAtMs ≤ ttlMs) :
    s.tryMatchReply event targetUid now =
      (some pending.result, s.update side fun table => table.erase event.pairId) := by
  rw [tryMatchReply, hside]
  simp only
  rw [h]
  simp only
  rw [if_neg (Int64.not_lt.2 htime)]

/-- A call makes a table longer by one entry at most. -/
theorem size_putAndExpire_le (table : Requests) (pairId : Int64) (entry : PendingRequest) (now : Int64) :
    (putAndExpire table pairId entry now).size ≤ table.size + 1 := by
  have hfilter : (putAndExpire table pairId entry now).size ≤ (table.insert pairId entry).size :=
    List.length_filter_le _ _
  have hinsert : (table.insert pairId entry).size = (table.erase pairId).size + 1 := rfl
  have herase : (table.erase pairId).size ≤ table.size := (List.kerase_sublist _ _).length_le
  omega

theorem size_step_succ (s : TransactionPairer) (c : Call) (side : Side) :
    ((s.step c).requests side).size ≤ (s.requests side).size + 1 := by
  rcases requests_step s c side with heq | heq | ⟨event, targetUid, now, order, rfl, -, heq⟩
  · rw [heq]
    exact Nat.le_succ _
  · rw [heq]
    exact Nat.le_succ_of_le (List.kerase_sublist _ _).length_le
  · rw [heq]
    exact (AList.size_evictOldest_le _ _ _ _).trans (size_putAndExpire_le _ _ _ _)

/-- While the tables have room for every call, nothing is evicted. -/
theorem spares_of_size {calls : List Call} {s : TransactionPairer} (k : Int64)
    (h : ∀ side, (s.requests side).size + calls.length ≤ maxEntries) : Spares k s calls := by
  induction calls generalizing s with
  | nil => trivial
  | cons c calls ih =>
    refine ⟨?_, ih fun side => ?_⟩
    · cases c with
      | tryMatchReply event targetUid now => exact id
      | recordRequest event targetUid now order =>
        rintro ⟨side, -, hthere, hgone⟩
        have hroom := h side
        have hsize := size_putAndExpire_le (s.requests side) event.pairId (pendingRequest event now) now
        rw [List.length_cons] at hroom
        rw [putAndEvict, AList.evictOldest_of_size_le (by omega)] at hgone
        exact hthere hgone
    · have hroom := h side
      have hsize := size_step_succ s c side
      rw [List.length_cons] at hroom
      omega

end TransactionPairer

end BinderTracer.App
