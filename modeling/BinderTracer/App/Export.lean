import BinderTracer.App.EventWriter

/-!
# Export

`forEachExportEvent` of `ColdEventStore`, beside the writer. It asks the writer for a snapshot and then reads the
table itself: pages of rows up to the last id of the snapshot, and one query for the partner of each event. Every
statement sees the table as the writer has left it at that moment.

A clear deletes all rows, so a page that finds a row of the snapshot finds the snapshot whole (`Since`). The
queries for the partners come later than the page, and there is nothing that keeps the table until then: a clear
while a page is open goes unnoticed if the page is the last one.
-/

namespace BinderTracer.App

open BinderTracer.Lib WriteRequest ColdEventCodec

/-! ### The queries -/

namespace EventStore

/-- The rows in increasing order of their ids. -/
def rows (table : EventStore) : List Row := table.events.reverse.map toRow

/-- A query in increasing order of the ids, with a limit. -/
def select (table : EventStore) (test : Row → Bool) (limit : Nat) : List BinderEvent :=
  ((table.rows.filter test).take limit).map fromRow

def queryOne (table : EventStore) (test : Row → Bool) : Option BinderEvent := (table.select test 1).head?

theorem select_eq (table : EventStore) (test : Row → Bool) (limit : Nat) :
    table.select test limit =
      ((table.events.reverse.filter fun e => test (toRow e)).take limit).map BinderEvent.archived := by
  rw [select, rows, List.filter_map, List.map_take, List.map_map, List.map_take]
  rfl

end EventStore

/-- The rows of a page. -/
def pageTest (lastId upTo : Int64) (r : Row) : Bool := lastId < r.seq && r.seq ≤ upTo

/-- The rows that an event may be linked with. -/
def linkTest (e : BinderEvent) (upTo : Int64) (r : Row) : Bool :=
  r.pairId = e.pairId && r.isReply = (if e.isReply then 0 else 1) && r.seq ≤ upTo

/-- Whether an event is to be linked. -/
def BinderEvent.linkable (e : BinderEvent) : Bool := e.pairId ≠ 0 && (e.isReply || !isOneway e.flags)

def linked (table : EventStore) (upTo : Int64) (e : BinderEvent) : Option BinderEvent :=
  if e.linkable then table.queryOne (linkTest e upTo) else none

/-! ### The export -/

inductive ExportPhase where
  | idle
  /-- The request is on the queue. -/
  | waiting
  /-- At the head of the loop. -/
  | scanning
  /-- A page is open; `events` are its rows that have not been read. -/
  | reading (events : List BinderEvent) (pageCount : Nat)
  | returned (count : Nat)
  | failed (message : String)
deriving DecidableEq, Repr

/-- The writer, and the variables of the export with what it has consumed. -/
structure Exporting where
  writer : Writer := {}
  phase : ExportPhase := .idle
  snapshot : ExportSnapshot := ⟨-1, 0⟩
  lastId : Int64 := -1
  count : Nat := 0
  consumed : List (BinderEvent × Option BinderEvent) := []

/-- The snapshot that was taken, with the rows that were there. -/
def Writer.taken (w : Writer) : Option (List BinderEvent × Except String ExportSnapshot) :=
  w.history.findSome? fun
    | .exported _ rows result => some (rows, result)
    | _ => none

namespace Exporting

/-- The check after the loop. -/
def finish (s : Exporting) : Exporting :=
  if s.count = s.snapshot.count then { s with phase := .returned s.count }
  else { s with phase := .failed "Events were cleared during export. Please try again." }

/-- `await`. -/
def receive (s : Exporting) : Except String ExportSnapshot → Exporting
  | .ok snapshot => { s with phase := .scanning, snapshot }
  | .error message => { s with phase := .failed message }

/-- The head of the loop: the query of a page, or the end. -/
def turn (s : Exporting) : Exporting :=
  if s.lastId < s.snapshot.lastId ∧ s.count < s.snapshot.count then
    { s with
      phase := .reading (s.writer.table.select (pageTest s.lastId s.snapshot.lastId) Writer.batchSize) 0 }
  else s.finish

/-- A row of the page is read, and consumed with its partner. -/
def consume (s : Exporting) (e : BinderEvent) (events : List BinderEvent) (pageCount : Nat) : Exporting :=
  { s with
    consumed := s.consumed ++ [(e, linked s.writer.table s.snapshot.lastId e)]
    lastId := e.id
    count := s.count + 1
    phase := .reading events (pageCount + 1) }

/-- What can happen. -/
inductive Action where
  /-- A request other than this export is put on the queue, or the writer goes on. -/
  | writer (a : Writer.Action)
  | start
  | await
  /-- The export goes on. -/
  | advance
  /-- The export is cancelled, or a statement or the consumer throws. -/
  | fail (message : String)
deriving DecidableEq, Repr

/-- The export goes on from where it is. -/
def advance (s : Exporting) : Except Blocked Exporting :=
  match s.phase with
  | .scanning => .ok s.turn
  | .reading (e :: events) pageCount => .ok (s.consume e events pageCount)
  | .reading [] pageCount => .ok (if pageCount = 0 then s.finish else { s with phase := .scanning })
  | _ => .error .blocked

def step (s : Exporting) : Action → Except Blocked Exporting
  | .writer a =>
    if a = .put .exportRequest then .error .blocked
    else
      match s.writer.step a with
      | .ok writer => .ok { s with writer }
      | .error e => .error e
  | .start =>
    match s.phase, s.writer.step (.put .exportRequest) with
    | .idle, .ok writer => .ok { s with writer, phase := .waiting }
    | _, _ => .error .blocked
  | .await =>
    match s.phase, s.writer.taken with
    | .waiting, some (_, result) => .ok (s.receive result)
    | _, _ => .error .blocked
  | .advance => s.advance
  | .fail message =>
    match s.phase with
    | .returned _ | .failed _ => .error .blocked
    | _ => .ok { s with phase := .failed message }

end Exporting

/-! ### What the writer does to the table -/

namespace Writer

/-- The request that the loop takes next. -/
def next (w : Writer) : Option WriteRequest := (w.pending.toList ++ w.queue).head?

/-- Whether an action of the writer deletes the rows. -/
def deletes (w : Writer) : Action → Bool
  | .take none => w.next = some .clear
  | _ => false

/-- What an action does: the table stays, or it is emptied, or the batch is written to it; the rest grows; and
a snapshot that is taken is one of the table as it is. -/
structure Effect (w : Writer) (a : Action) (w' : Writer) : Prop where
  table : w'.table = w.table ∨ (w'.table = EventStore.empty ∧ w.deletes a = true) ∨
    (w'.table = w.table.writeBatch w.batch ∧ w'.served = w.served ++ w.batch.map append)
  served : w.served <+: w'.served
  put : w.put <+: w'.put
  history : w.history <+: w'.history
  exported : ∀ before rows result, .exported before rows result ∈ w'.history →
    .exported before rows result ∈ w.history ∨
      (before = w.served ∧ rows = w.table.events ∧ w'.table = w.table ∧
        w'.served = w.served ++ [WriteRequest.exportRequest] ∧ ∀ snapshot, result = .ok snapshot → snapshot = w.table.snapshot)

theorem mem_snoc_of_ne {history : List Served} {s x : Served} (hne : x ≠ s) (h : x ∈ history ++ [s]) :
    x ∈ history := by
  rcases List.mem_append.1 h with h | h
  · exact h
  · exact absurd (List.mem_singleton.1 h) hne

theorem effect_serve {w : Writer} {r : WriteRequest} (hnext : w.next = some r) (failure : Option String)
    (queue : List WriteRequest) (pending : Option WriteRequest) :
    Effect w (.take failure) (serve { w with queue, pending } failure r) := by
  cases r with
  | append e =>
    exact ⟨.inl rfl, List.prefix_rfl, List.prefix_rfl, List.prefix_rfl, fun _ _ _ h => .inl h⟩
  | clear =>
    refine ⟨?_, List.prefix_append _ _, List.prefix_rfl, List.prefix_append _ _,
      fun _ _ _ h => .inl (mem_snoc_of_ne (by simp) h)⟩
    cases failure with
    | none => exact .inr (.inl ⟨rfl, by simp [deletes, hnext]⟩)
    | some message => exact .inl rfl
  | exportRequest =>
    refine ⟨.inl rfl, List.prefix_append _ _, List.prefix_rfl, List.prefix_append _ _, ?_⟩
    intro before rows result h
    rcases List.mem_append.1 h with h | h
    · exact .inl h
    · cases List.mem_singleton.1 h
      refine .inr ⟨rfl, rfl, rfl, rfl, fun snapshot hok => ?_⟩
      unfold exportResult at hok
      split at hok
      · cases failure with
        | some message => cases hok
        | none => exact (Except.ok.inj hok).symm
      · cases hok

theorem effect {w w' : Writer} {a : Action} (h : w.step a = .ok w') : Effect w a w' := by
  cases a with
  | put r =>
    cases h
    exact ⟨.inl rfl, List.prefix_rfl, List.prefix_append _ _, List.prefix_rfl, fun _ _ _ h => .inl h⟩
  | take failure =>
    simp only [step] at h
    split at h
    · split at h
      · next r hpending =>
        cases h
        exact effect_serve (by simp [next, hpending]) failure _ _
      · next r queue hpending hqueue =>
        cases h
        exact effect_serve (by simp [next, hpending, hqueue]) failure _ _
      · cases h
    · cases h
  | more =>
    simp only [step] at h
    split at h
    · split at h <;> cases h <;>
        exact ⟨.inl rfl, List.prefix_rfl, List.prefix_rfl, List.prefix_rfl, fun _ _ _ h => .inl h⟩
    · cases h
  | write failure =>
    simp only [step] at h
    split at h
    · cases h
    · cases h
      refine ⟨?_, List.prefix_append _ _, List.prefix_rfl, List.prefix_append _ _,
        fun _ _ _ h => .inl (mem_snoc_of_ne (by simp) h)⟩
      cases failure with
      | none => exact .inr (.inr ⟨rfl, rfl⟩)
      | some message => exact .inl rfl

/-- The table and the snapshot's rows: what is in the table is one of them or was appended later, and either all
of them are still there or none is. -/
structure Since (before : List WriteRequest) (rows : List BinderEvent) (w : Writer) : Prop where
  served : before ++ [WriteRequest.exportRequest] <+: w.served
  old : ∀ e ∈ rows, e ∈ appended before
  sorted : rows.Pairwise fun a b => b.id < a.id
  table : ∀ e ∈ w.table.events, e ∈ rows ∨ e ∈ appended (w.served.drop (before.length + 1))
  whole : (∀ e ∈ rows, e ∈ w.table.events) ∨ ∀ e ∈ rows, e ∉ w.table.events

theorem drop_served {before served served' : List WriteRequest}
    (h : before ++ [WriteRequest.exportRequest] <+: served) (hmore : served <+: served') :
    ∃ more, served' = served ++ more ∧
      served'.drop (before.length + 1) = served.drop (before.length + 1) ++ more := by
  obtain ⟨more, rfl⟩ := hmore
  refine ⟨more, rfl, List.drop_append_of_le_length ?_⟩
  simpa using h.length_le

/-- The events of a batch are not those of requests that were served before. -/
theorem batch_ids {w : Writer} (hw : Consistent w) (hids : DistinctIds w.put) :
    (w.batch.Pairwise fun a b => a.id ≠ b.id) ∧ ∀ e ∈ appended w.served, ∀ b ∈ w.batch, e.id ≠ b.id := by
  rw [hw.put, DistinctIds, List.append_assoc, appended_append, appended_append, appended_appends] at hids
  obtain ⟨hpairs, -, -⟩ := List.pairwise_append.1 hids
  obtain ⟨-, hbatch, hcross⟩ := List.pairwise_append.1 hpairs
  exact ⟨hbatch, hcross⟩

namespace Since

variable {before : List WriteRequest} {rows : List BinderEvent} {w w' : Writer} {a : Action}

theorem old_served (h : Since before rows w) {e : BinderEvent} (he : e ∈ rows) : e ∈ appended w.served := by
  obtain ⟨rest, hrest⟩ := h.served
  rw [← hrest, appended_append, appended_append]
  exact List.mem_append_left _ (List.mem_append_left _ (h.old e he))

theorem step (h : Since before rows w) (hw : Consistent w) (hids : DistinctIds w.put) (heffect : Effect w a w') :
    Since before rows w' := by
  obtain ⟨more, hserved, hdrop⟩ := drop_served h.served heffect.served
  obtain ⟨hbatch, hcross⟩ := batch_ids hw hids
  refine ⟨h.served.trans heffect.served, h.old, h.sorted, fun e he => ?_, ?_⟩
  · rw [hdrop, appended_append]
    rcases heffect.table with htable | ⟨htable, -⟩ | ⟨htable, hall⟩
    · rw [htable] at he
      exact (h.table e he).imp_right (List.mem_append_left _)
    · rw [htable] at he
      exact absurd he List.not_mem_nil
    · rw [htable, EventStore.mem_writeBatch hbatch] at he
      rcases he with he | ⟨he, -⟩
      · obtain rfl : more = w.batch.map append := List.append_cancel_left (hserved.symm.trans hall)
        rw [appended_appends]
        exact .inr (List.mem_append_right _ he)
      · exact (h.table e he).imp_right (List.mem_append_left _)
  · rcases heffect.table with htable | ⟨htable, -⟩ | ⟨htable, -⟩
    · rw [htable]
      exact h.whole
    · rw [htable]
      exact .inr fun _ _ => List.not_mem_nil
    · rw [htable]
      refine h.whole.imp (fun hall e he => ?_) fun hnone e he hmem => ?_
      · rw [EventStore.mem_writeBatch hbatch]
        exact .inr ⟨hall e he, hcross e (h.old_served he)⟩
      · rw [EventStore.mem_writeBatch hbatch] at hmem
        rcases hmem with hmem | ⟨hmem, -⟩
        · exact hcross e (h.old_served he) e hmem rfl
        · exact hnone e he hmem

/-- Nothing but a delete takes rows away. -/
theorem keeps (h : Since before rows w) (hw : Consistent w) (hids : DistinctIds w.put) (heffect : Effect w a w')
    (hdeletes : w.deletes a = false) (hall : ∀ e ∈ rows, e ∈ w.table.events) :
    ∀ e ∈ rows, e ∈ w'.table.events := by
  obtain ⟨hbatch, hcross⟩ := batch_ids hw hids
  intro e he
  rcases heffect.table with htable | ⟨-, hdelete⟩ | ⟨htable, -⟩
  · rw [htable]
    exact hall e he
  · rw [hdeletes] at hdelete
    cases hdelete
  · rw [htable, EventStore.mem_writeBatch hbatch]
    exact .inr ⟨hall e he, hcross e (h.old_served he)⟩

end Since

/-- The table holds events that were appended, and every snapshot is one of rows that stay together. -/
structure Tracked (w : Writer) : Prop where
  table : ∀ e ∈ w.table.events, e ∈ appended w.served
  since : ∀ before rows result, .exported before rows result ∈ w.history →
    Since before rows w ∧ ∀ snapshot, result = .ok snapshot → snapshot.Describes rows

theorem Tracked.step {w w' : Writer} {a : Action} (h : Tracked w) (hw : Consistent w) (hids : DistinctIds w.put)
    (heffect : Effect w a w') : Tracked w' := by
  obtain ⟨hbatch, -⟩ := batch_ids hw hids
  obtain ⟨more, hmore⟩ := heffect.served
  refine ⟨fun e he => ?_, fun before rows result hmem => ?_⟩
  · rcases heffect.table with htable | ⟨htable, -⟩ | ⟨htable, hall⟩
    · rw [htable] at he
      rw [← hmore, appended_append]
      exact List.mem_append_left _ (h.table e he)
    · rw [htable] at he
      exact absurd he List.not_mem_nil
    · rw [htable, EventStore.mem_writeBatch hbatch] at he
      rw [hall, appended_append, appended_appends]
      exact he.elim (List.mem_append_right _) fun he => List.mem_append_left _ (h.table e he.1)
  · rcases heffect.exported before rows result hmem with hold | ⟨rfl, rfl, htable, hserved, hresult⟩
    · obtain ⟨hsince, hdescribes⟩ := h.since before rows result hold
      exact ⟨hsince.step hw hids heffect, hdescribes⟩
    · refine ⟨⟨by rw [hserved], h.table, w.table.newestFirst, ?_, ?_⟩, fun snapshot hok => ?_⟩
      · rw [htable]
        exact fun e he => .inl he
      · rw [htable]
        exact .inl fun e he => he
      · rw [hresult snapshot hok]
        exact EventStore.snapshot_describes (List.Perm.refl _)

end Writer

/-! ### What an export should give -/

/-- `x` goes in the opposite direction of `e`, in the same call. -/
def BinderEvent.Opposite (e x : BinderEvent) : Prop := x.pairId = e.pairId ∧ x.isReply = !e.isReply

/-- The partner of an event among the rows: the one with the lowest id, or none if there is none. -/
def IsLink (rows : List BinderEvent) (e : BinderEvent) : Option BinderEvent → Prop
  | none => e.linkable = true → ∀ x ∈ rows, ¬ e.Opposite x
  | some link => e.linkable = true ∧ ∃ x ∈ rows, e.Opposite x ∧ link = x.archived ∧
      ∀ y ∈ rows, e.Opposite y → x.id ≤ y.id

/-- The rows, in increasing order, each once and with its partner. -/
structure Faithful (rows : List BinderEvent) (consumed : List (BinderEvent × Option BinderEvent)) : Prop where
  events : consumed.map Prod.fst = rows.reverse.map BinderEvent.archived
  increasing : (consumed.map Prod.fst).Pairwise fun a b => a.id < b.id
  links : ∀ c ∈ consumed, IsLink rows c.1 c.2

/-- The events of the requests have increasing ids. -/
def WriteRequest.IncreasingIds (requests : List WriteRequest) : Prop :=
  (appended requests).Pairwise fun a b => a.id < b.id

instance (requests : List WriteRequest) : Decidable (IncreasingIds requests) :=
  inferInstanceAs (Decidable (List.Pairwise _ _))

theorem WriteRequest.IncreasingIds.distinct {requests : List WriteRequest} (h : IncreasingIds requests) :
    DistinctIds requests := by
  refine List.Pairwise.imp ?_ h
  intro a b hlt heq
  exact Int64.lt_irrefl (heq ▸ hlt)

theorem WriteRequest.IncreasingIds.of_prefix {requests more : List WriteRequest} (h : IncreasingIds more)
    (hpre : requests <+: more) : IncreasingIds requests := by
  obtain ⟨rest, rfl⟩ := hpre
  rw [IncreasingIds, appended_append] at h
  exact (List.pairwise_append.1 h).1

theorem linkTest_iff {e x : BinderEvent} {upTo : Int64} :
    linkTest e upTo (toRow x) = true ↔ e.Opposite x ∧ x.id ≤ upTo := by
  have hcolumn : (toRow x).isReply = (if e.isReply then 0 else 1) ↔ x.isReply = !e.isReply := by
    show (if x.isReply then (1 : Int64) else 0) = _ ↔ _
    cases e.isReply <;> cases x.isReply <;> decide
  rw [linkTest, Bool.and_eq_true, Bool.and_eq_true, decide_eq_true_iff, decide_eq_true_iff, decide_eq_true_iff,
    hcolumn]
  rfl

theorem EventStore.queryOne_eq (table : EventStore) (test : Row → Bool) :
    table.queryOne test = (table.events.reverse.find? fun e => test (toRow e)).map BinderEvent.archived := by
  rw [queryOne, select_eq, ← List.head?_filter]
  cases table.events.reverse.filter fun e => test (toRow e) <;> rfl

theorem EventStore.ascending (table : EventStore) :
    table.events.reverse.Pairwise fun a b => a.id < b.id :=
  List.pairwise_reverse.2 table.newestFirst

/-- The first of the rows in increasing order that satisfy a test is the lowest. -/
theorem lowest_of_find? {events : List BinderEvent} (hsorted : events.Pairwise fun a b => a.id < b.id)
    {test : BinderEvent → Bool} {x : BinderEvent} (h : events.find? test = some x) :
    x ∈ events ∧ test x = true ∧ ∀ y ∈ events, test y = true → x.id ≤ y.id := by
  obtain ⟨htest, before, after, rfl, hbefore⟩ := List.find?_eq_some_iff_append.1 h
  refine ⟨by simp, htest, fun y hy hytest => ?_⟩
  obtain ⟨-, hafter, -⟩ := List.pairwise_append.1 hsorted
  rcases List.mem_append.1 hy with hy | hy
  · have := hbefore y hy
    simp [hytest] at this
  · rcases List.mem_cons.1 hy with rfl | hy
    · exact Int64.le_refl _
    · exact Int64.le_of_lt ((List.pairwise_cons.1 hafter).1 y hy)

namespace Writer.Since

variable {before : List WriteRequest} {rows : List BinderEvent} {w : Writer} {snapshot : ExportSnapshot}

/-- A row up to the last id of the snapshot is one of the snapshot: all others came later. -/
theorem mem_rows (h : Since before rows w) (hw : Consistent w) (hids : IncreasingIds w.put)
    (hsnapshot : snapshot.Describes rows) (hne : rows ≠ []) {e : BinderEvent} (he : e ∈ w.table.events)
    (hle : e.id ≤ snapshot.lastId) : e ∈ rows := by
  rcases h.table e he with hrow | hlater
  · exact hrow
  · obtain ⟨⟨last, hlast, hid⟩, -⟩ := hsnapshot.greatest hne
    have hlt : last.id < e.id := by
      obtain ⟨rest, hrest⟩ := h.served
      have hserved : IncreasingIds w.served := by
        rw [IncreasingIds, hw.put, List.append_assoc, List.append_assoc, appended_append] at hids
        exact (List.pairwise_append.1 hids).1
      rw [← hrest] at hlater hserved
      rw [IncreasingIds, appended_append, appended_append] at hserved
      have hdrop : (before ++ [exportRequest] ++ rest).drop (before.length + 1) = rest :=
        List.drop_left' (by simp)
      rw [hdrop] at hlater
      exact (List.pairwise_append.1 hserved).2.2 last (List.mem_append_left _ (h.old last hlast)) e hlater
    exact absurd (Int64.lt_of_lt_of_le hlt hle) (by rw [hid]; exact Int64.lt_irrefl)

/-- While the rows are all there, the query for a partner finds the one of the snapshot. -/
theorem isLink (h : Since before rows w) (hw : Consistent w) (hids : IncreasingIds w.put)
    (hsnapshot : snapshot.Describes rows) (hall : ∀ e ∈ rows, e ∈ w.table.events) {e : BinderEvent}
    (he : e ∈ rows) : IsLink rows e.archived (linked w.table snapshot.lastId e.archived) := by
  have hne : rows ≠ [] := List.ne_nil_of_mem he
  have hupTo : ∀ x ∈ rows, x.id ≤ snapshot.lastId := (hsnapshot.greatest hne).2
  unfold linked
  split
  · next hlinkable =>
    rw [EventStore.queryOne_eq]
    cases hfind : w.table.events.reverse.find? fun x => linkTest e.archived snapshot.lastId (toRow x) with
    | none =>
      intro _ x hx hopposite
      have hnot := List.find?_eq_none.1 hfind x (List.mem_reverse.2 (hall x hx))
      exact hnot (linkTest_iff.2 ⟨hopposite, hupTo x hx⟩)
    | some x =>
      obtain ⟨hmem, htest, hlowest⟩ := lowest_of_find? w.table.ascending hfind
      obtain ⟨hopposite, hle⟩ := linkTest_iff.1 htest
      refine ⟨hlinkable, x, h.mem_rows hw hids hsnapshot hne (List.mem_reverse.1 hmem) hle, hopposite, rfl, ?_⟩
      intro y hy hyopposite
      exact hlowest y (List.mem_reverse.2 (hall y hy)) (linkTest_iff.2 ⟨hyopposite, hupTo y hy⟩)
  · next hlinkable => exact fun h => absurd h hlinkable

end Writer.Since

theorem Writer.taken_of_effect {w w' : Writer} {a : Writer.Action} (h : Writer.Effect w a w')
    {x : List BinderEvent × Except String ExportSnapshot} (hx : w.taken = some x) : w'.taken = some x := by
  obtain ⟨more, hmore⟩ := h.history
  rw [taken, ← hmore, List.findSome?_append]
  exact Option.or_of_isSome (by rw [← taken, hx]; rfl) |>.trans hx

theorem Writer.exists_of_taken {w : Writer} {rows : List BinderEvent} {result : Except String ExportSnapshot}
    (h : w.taken = some (rows, result)) : ∃ before, .exported before rows result ∈ w.history := by
  obtain ⟨s, hmem, hs⟩ := List.exists_of_findSome?_eq_some h
  cases s with
  | exported before rows' result' =>
    cases hs
    exact ⟨before, hmem⟩
  | batch | clear => cases hs

namespace Exporting

/-- How far the export is: `done` are the rows consumed, `rest` those that the open page still holds. -/
structure Progress (rows done rest : List BinderEvent) (s : Exporting) : Prop where
  taken : s.writer.taken = some (rows, .ok s.snapshot)
  consumed : s.consumed.map Prod.fst = done.map BinderEvent.archived
  count : s.count = done.length
  bound : ∀ e ∈ done, e.id ≤ s.lastId
  sorted : (done ++ rest).Pairwise fun a b => a.id < b.id
  members : ∀ e ∈ done ++ rest, e ∈ rows
  links : ∀ c ∈ s.consumed, IsLink rows c.1 c.2

/-- What holds in each phase. While a page holds rows, the snapshot is in the table. -/
def OnTrack (s : Exporting) : Prop :=
  match s.phase with
  | .idle | .waiting => s.consumed = [] ∧ s.count = 0
  | .scanning => ∃ rows done, Progress rows done [] s
  | .reading events _ => ∃ rows done rest, Progress rows done rest s ∧ events = rest.map BinderEvent.archived ∧
      (rest ≠ [] → ∀ e ∈ rows, e ∈ s.writer.table.events)
  | .returned count => ∃ rows done, Progress rows done [] s ∧ s.count = s.snapshot.count ∧ count = s.count
  | .failed _ => True

structure Inv (s : Exporting) : Prop where
  consistent : s.writer.Consistent
  tracked : IncreasingIds s.writer.put → s.writer.Tracked
  onTrack : IncreasingIds s.writer.put → s.OnTrack

/-- Whether a page holds rows that have not been read. -/
def pageOpen (s : Exporting) : Bool :=
  match s.phase with
  | .reading (_ :: _) _ => true
  | _ => false

/-- The rows are not deleted while a page is open. -/
def KeepsPage (s : Exporting) : Action → Prop
  | .writer a => s.writer.deletes a = true → s.pageOpen = false
  | _ => True

instance (s : Exporting) : (a : Action) → Decidable (s.KeepsPage a)
  | .writer a => inferInstanceAs (Decidable (s.writer.deletes a = true → s.pageOpen = false))
  | .start => .isTrue trivial
  | .await => .isTrue trivial
  | .advance => .isTrue trivial
  | .fail _ => .isTrue trivial

/-- The writer goes on beside the export. -/
theorem Progress.of_writer {rows done rest : List BinderEvent} {s : Exporting} (h : Progress rows done rest s)
    {a : Writer.Action} {writer : Writer} (heffect : Writer.Effect s.writer a writer) (phase : ExportPhase) :
    Progress rows done rest { s with writer, phase } :=
  ⟨Writer.taken_of_effect heffect h.taken, h.consumed, h.count, h.bound, h.sorted, h.members, h.links⟩

theorem onTrack_writer {s : Exporting} (h : s.OnTrack) (hw : s.writer.Consistent) (ht : s.writer.Tracked)
    (hids : IncreasingIds s.writer.put) {a : Writer.Action} {writer : Writer}
    (heffect : Writer.Effect s.writer a writer) (hkeeps : s.writer.deletes a = true → s.pageOpen = false) :
    OnTrack { s with writer } := by
  unfold OnTrack at h ⊢
  cases hphase : s.phase with
  | idle | waiting =>
    simp only [hphase] at h ⊢
    exact h
  | scanning =>
    simp only [hphase] at h ⊢
    obtain ⟨rows, done, hprogress⟩ := h
    exact ⟨rows, done, hprogress.of_writer heffect _⟩
  | reading events pageCount =>
    simp only [hphase] at h ⊢
    obtain ⟨rows, done, rest, hprogress, rfl, hall⟩ := h
    refine ⟨rows, done, rest, hprogress.of_writer heffect _, rfl, fun hne => ?_⟩
    have hopen : s.pageOpen = true := by
      rw [pageOpen, hphase]
      cases rest with
      | nil => exact absurd rfl hne
      | cons e rest => rfl
    have hdeletes : s.writer.deletes a = false := by
      by_contra hdeletes
      rw [hkeeps (by simpa using hdeletes)] at hopen
      cases hopen
    obtain ⟨before, hmem⟩ := Writer.exists_of_taken hprogress.taken
    exact (ht.since before rows _ hmem).1.keeps hw hids.distinct heffect hdeletes (hall hne)
  | returned count =>
    simp only [hphase] at h ⊢
    obtain ⟨rows, done, hprogress, hcounts⟩ := h
    exact ⟨rows, done, hprogress.of_writer heffect _, hcounts⟩
  | failed message => trivial

/-- The end of the loop. -/
theorem onTrack_finish {s : Exporting} {rows done : List BinderEvent} (h : Progress rows done [] s) :
    s.finish.OnTrack := by
  unfold finish
  split
  · next hcount =>
    exact ⟨rows, done, ⟨h.taken, h.consumed, h.count, h.bound, h.sorted, h.members, h.links⟩, hcount, rfl⟩
  · trivial

/-- A page that finds a row of the snapshot finds the snapshot whole. -/
theorem onTrack_turn {s : Exporting} (hw : s.writer.Consistent) (ht : s.writer.Tracked)
    (hids : IncreasingIds s.writer.put) {rows done : List BinderEvent} (h : Progress rows done [] s) :
    s.turn.OnTrack := by
  unfold turn
  split
  · next hmore =>
    obtain ⟨before, hmem⟩ := Writer.exists_of_taken h.taken
    obtain ⟨hsince, hdescribes⟩ := ht.since before rows _ hmem
    have hsnapshot := hdescribes s.snapshot rfl
    have hne : rows ≠ [] := by
      rintro rfl
      have := hsnapshot.count
      simp only [List.length_nil] at this
      omega
    let test := fun e : BinderEvent => pageTest s.lastId s.snapshot.lastId (toRow e)
    let rest := (s.writer.table.events.reverse.filter test).take Writer.batchSize
    have hrest : ∀ e ∈ rest, e ∈ s.writer.table.events ∧ s.lastId < e.id ∧ e.id ≤ s.snapshot.lastId := by
      intro e he
      obtain ⟨hmem, htest⟩ := List.mem_filter.1 (List.mem_of_mem_take he)
      simp only [test, pageTest, Bool.and_eq_true, decide_eq_true_eq] at htest
      exact ⟨List.mem_reverse.1 hmem, htest⟩
    have hrows : ∀ e ∈ rest, e ∈ rows := fun e he =>
      hsince.mem_rows hw hids hsnapshot hne (hrest e he).1 (hrest e he).2.2
    refine ⟨rows, done, rest, ⟨h.taken, h.consumed, h.count, h.bound, ?_, ?_, h.links⟩, ?_, fun hpage => ?_⟩
    · have hdone := h.sorted
      rw [List.append_nil] at hdone
      refine List.pairwise_append.2 ⟨hdone, ?_, fun e he x hx => ?_⟩
      · exact (s.writer.table.ascending.filter _).sublist (List.take_sublist _ _)
      · exact Int64.lt_of_le_of_lt (h.bound e he) (hrest x hx).2.1
    · intro e he
      rcases List.mem_append.1 he with he | he
      · exact h.members e (by simpa using he)
      · exact hrows e he
    · exact EventStore.select_eq _ _ _
    · obtain ⟨e, he⟩ := List.exists_mem_of_ne_nil rest hpage
      refine hsince.whole.resolve_right fun hgone => ?_
      exact hgone e (hrows e he) (hrest e he).1
  · exact onTrack_finish h

/-- A row is consumed with the partner that the snapshot gives it. -/
theorem onTrack_consume {s : Exporting} (hw : s.writer.Consistent) (ht : s.writer.Tracked)
    (hids : IncreasingIds s.writer.put) {rows done rest : List BinderEvent} {e : BinderEvent}
    (h : Progress rows done (e :: rest) s) (hall : ∀ x ∈ rows, x ∈ s.writer.table.events) (pageCount : Nat) :
    (s.consume e.archived (rest.map BinderEvent.archived) pageCount).OnTrack := by
  obtain ⟨before, hmem⟩ := Writer.exists_of_taken h.taken
  obtain ⟨hsince, hdescribes⟩ := ht.since before rows _ hmem
  have hsplit : done ++ [e] ++ rest = done ++ e :: rest := by simp
  refine ⟨rows, done ++ [e], rest, ⟨h.taken, ?_, ?_, fun x hx => ?_, ?_, ?_, fun c hc => ?_⟩, rfl, fun _ => hall⟩
  · simp [consume, h.consumed]
  · simp [consume, h.count]
  · have hid : (s.consume e.archived (rest.map BinderEvent.archived) pageCount).lastId = e.id := rfl
    rw [hid]
    rcases List.mem_append.1 hx with hx | hx
    · exact Int64.le_of_lt ((List.pairwise_append.1 h.sorted).2.2 x hx e List.mem_cons_self)
    · rw [List.mem_singleton.1 hx]
      exact Int64.le_refl _
  · rw [hsplit]
    exact h.sorted
  · rw [hsplit]
    exact h.members
  · rcases List.mem_append.1 hc with hc | hc
    · exact h.links c hc
    · rw [List.mem_singleton.1 hc]
      exact hsince.isLink hw hids (hdescribes s.snapshot rfl) hall (h.members e (by simp))

theorem onTrack_advance {s t : Exporting} (h : s.OnTrack) (hw : s.writer.Consistent) (ht : s.writer.Tracked)
    (hids : IncreasingIds s.writer.put) (hstep : s.advance = .ok t) : t.OnTrack := by
  unfold OnTrack at h
  unfold advance at hstep
  split at hstep
  · next hphase =>
    cases hstep
    simp only [hphase] at h
    obtain ⟨rows, done, hprogress⟩ := h
    exact onTrack_turn hw ht hids hprogress
  · next e events pageCount hphase =>
    cases hstep
    simp only [hphase] at h
    obtain ⟨rows, done, rest, hprogress, hevents, hall⟩ := h
    cases rest with
    | nil => cases hevents
    | cons x rest =>
      cases hevents
      exact onTrack_consume hw ht hids hprogress (hall (List.cons_ne_nil _ _)) pageCount
  · next pageCount hphase =>
    cases hstep
    simp only [hphase] at h
    obtain ⟨rows, done, rest, hprogress, hevents, -⟩ := h
    obtain rfl : rest = [] := List.map_eq_nil_iff.1 hevents.symm
    split
    · exact onTrack_finish hprogress
    · exact ⟨rows, done, hprogress.taken, hprogress.consumed, hprogress.count, hprogress.bound, hprogress.sorted,
        hprogress.members, hprogress.links⟩
  · cases hstep

/-- The export itself leaves the writer alone. -/
theorem writer_advance {s t : Exporting} (h : s.advance = .ok t) : t.writer = s.writer := by
  have hfinish : s.finish.writer = s.writer := by
    unfold finish
    split <;> rfl
  unfold advance at h
  split at h <;> cases h
  · unfold turn
    split
    · rfl
    · exact hfinish
  · rfl
  · split
    · exact hfinish
    · rfl

/-- The export receives its snapshot. -/
theorem onTrack_receive {s : Exporting} (h : s.OnTrack) (hphase : s.phase = .waiting) {rows : List BinderEvent}
    {result : Except String ExportSnapshot} (htaken : s.writer.taken = some (rows, result)) :
    (s.receive result).OnTrack := by
  unfold OnTrack at h
  simp only [hphase] at h
  obtain ⟨hconsumed, hcount⟩ := h
  cases result with
  | error message => trivial
  | ok snapshot =>
    refine ⟨rows, [], htaken, ?_, hcount, fun e he => absurd he List.not_mem_nil, List.Pairwise.nil,
      fun e he => absurd he List.not_mem_nil, fun c hc => ?_⟩
    · simp [receive, hconsumed]
    · simp [receive, hconsumed] at hc

namespace Inv

variable {s t : Exporting}

/-- The writer goes on, and the export with it or not. -/
theorem of_writer (h : Inv s) {a : Writer.Action} {writer : Writer} (hstep : s.writer.step a = .ok writer)
    {phase : ExportPhase} (honTrack : IncreasingIds s.writer.put → OnTrack { s with writer, phase }) :
    Inv { s with writer, phase } := by
  have heffect := Writer.effect hstep
  have hbefore : IncreasingIds writer.put → IncreasingIds s.writer.put :=
    fun hids => IncreasingIds.of_prefix hids heffect.put
  refine ⟨h.consistent.step hstep, fun hids => ?_, fun hids => honTrack (hbefore hids)⟩
  exact (h.tracked (hbefore hids)).step h.consistent (hbefore hids).distinct heffect

/-- The export goes on, and the writer does nothing. -/
theorem of_export (h : Inv s) (hwriter : t.writer = s.writer)
    (honTrack : IncreasingIds s.writer.put → t.OnTrack) : Inv t := by
  refine ⟨hwriter ▸ h.consistent, fun hids => ?_, fun hids => ?_⟩
  · rw [hwriter] at hids ⊢
    exact h.tracked hids
  · rw [hwriter] at hids
    exact honTrack hids

theorem step (h : Inv s) {a : Action} (hkeeps : s.KeepsPage a) (hstep : s.step a = .ok t) : Inv t := by
  cases a with
  | writer a =>
    simp only [Exporting.step] at hstep
    split at hstep
    · cases hstep
    · split at hstep
      · next writer hwriter =>
        cases hstep
        refine h.of_writer hwriter fun hids => ?_
        exact onTrack_writer (h.onTrack hids) h.consistent (h.tracked hids) hids (Writer.effect hwriter) hkeeps
      · cases hstep
  | start =>
    simp only [Exporting.step] at hstep
    split at hstep
    · next writer hphase hwriter =>
      cases hstep
      refine h.of_writer hwriter fun hids => ?_
      have hidle := h.onTrack hids
      unfold OnTrack at hidle
      simp only [hphase] at hidle
      exact hidle
    · cases hstep
  | await =>
    simp only [Exporting.step] at hstep
    split at hstep
    · next rows result hphase htaken =>
      cases hstep
      refine h.of_export (by cases result <;> rfl) fun hids => ?_
      exact onTrack_receive (h.onTrack hids) hphase htaken
    · cases hstep
  | advance =>
    refine h.of_export (writer_advance hstep) fun hids => ?_
    exact onTrack_advance (h.onTrack hids) h.consistent (h.tracked hids) hids hstep
  | fail message =>
    simp only [Exporting.step] at hstep
    split at hstep <;> cases hstep
    exact ⟨h.consistent, h.tracked, fun _ => trivial⟩

theorem initial : Inv {} :=
  ⟨Writer.consistent_initial, fun _ => ⟨fun _ he => absurd he List.not_mem_nil,
    fun _ _ _ he => absurd he List.not_mem_nil⟩, fun _ => ⟨rfl, rfl⟩⟩

end Inv

/-- As many rows as there are, in increasing order, are all rows. -/
theorem eq_reverse_of_length {rows done : List BinderEvent} (hrows : rows.Pairwise fun a b => b.id < a.id)
    (hdone : done.Pairwise fun a b => a.id < b.id) (hmembers : ∀ e ∈ done, e ∈ rows)
    (hlength : done.length = rows.length) : done = rows.reverse := by
  have hnodup : done.Nodup := by
    refine List.Pairwise.imp ?_ hdone
    rintro a b hlt rfl
    exact Int64.lt_irrefl hlt
  have hperm : done.Perm rows := (hnodup.subperm hmembers).perm_of_length_le hlength.ge
  refine List.Perm.eq_of_pairwise ?_ hdone (List.pairwise_reverse.2 hrows) (hperm.trans rows.reverse_perm.symm)
  intro a b _ _ hab hba
  exact absurd (Int64.lt_trans hab hba) Int64.lt_irrefl

/-- **An export is a consistent snapshot**, in every run in which no rows are deleted while a page is open: if it
returns, it has consumed the rows that were there when the writer served the request, in increasing order, each
once and with its partner among them. -/
theorem export_faithful {actions : List Action} (hsteps : StepsMeet step KeepsPage {} actions) :
    ∀ done, done <+: actions → ∀ s, run step {} done = .ok s → IncreasingIds s.writer.put →
      ∀ count, s.phase = .returned count →
        ∃ rows, s.writer.taken = some (rows, .ok s.snapshot) ∧ count = rows.length ∧
          Faithful rows s.consumed := by
  intro done hdone s hrun hids count hphase
  have hinv : Inv s := by
    refine run_along (P := fun _ s => Inv s) Inv.initial ?_ hrun
    intro before a m t hpre hm hinv hstep
    exact hinv.step (hsteps before a (hpre.trans hdone) m hm) hstep
  have honTrack := hinv.onTrack hids
  unfold OnTrack at honTrack
  simp only [hphase] at honTrack
  obtain ⟨rows, read, hprogress, hcount, rfl⟩ := honTrack
  obtain ⟨before, hmem⟩ := Writer.exists_of_taken hprogress.taken
  obtain ⟨hsince, hdescribes⟩ := (hinv.tracked hids).since before rows _ hmem
  have hlength : read.length = rows.length := by
    rw [← hprogress.count, hcount, (hdescribes s.snapshot rfl).count]
  have hsorted := hprogress.sorted
  have hmembers := hprogress.members
  rw [List.append_nil] at hsorted hmembers
  have hread := eq_reverse_of_length hsince.sorted hsorted hmembers hlength
  refine ⟨rows, hprogress.taken, by rw [hprogress.count, hlength], ?_, ?_, hprogress.links⟩
  · rw [hprogress.consumed, hread]
  · rw [hprogress.consumed, List.pairwise_map]
    exact hsorted

/-- A call and its reply. -/
def callAndReply : List BinderEvent :=
  [{ Writer.plainEvent 0 with pairId := 7 }, { Writer.plainEvent 1 with pairId := 7, isReply := true }]

/-- The two are stored, the export gets its snapshot of them and opens its page. -/
def untilPage : List Action :=
  callAndReply.map (fun e => Action.writer (.put (.append e))) ++
    [Action.writer (.take none), .writer .more, .writer (.write none), .start, .writer (.take none), .await,
      .advance]

/-- The export is served, an event comes, and a clear when the page has been read. -/
def undisturbed : List Action :=
  untilPage ++
    [Action.writer (.put (.append (Writer.plainEvent 2))), .writer (.take none), .writer (.write none), .advance,
      .advance, .writer (.put .clear), .writer (.take none), .advance, .advance]

theorem undisturbed_faithful :
    ∃ s, run step {} undisturbed = .ok s ∧ s.phase = .returned 2 ∧ s.consumed.map Prod.fst =
        callAndReply.map BinderEvent.archived ∧
      ∃ rows, s.writer.taken = some (rows, .ok s.snapshot) ∧ Faithful rows s.consumed := by
  obtain ⟨s, hrun, hphase, hconsumed, hids⟩ : ∃ s, run step {} undisturbed = .ok s ∧ s.phase = .returned 2 ∧
      s.consumed.map Prod.fst = callAndReply.map BinderEvent.archived ∧ IncreasingIds s.writer.put :=
    exists_of_endsIn (by decide +kernel)
  have hsteps : StepsMeet step KeepsPage {} undisturbed := stepsMeet_of_eval (by decide +kernel)
  obtain ⟨rows, htaken, -, hfaithful⟩ :=
    export_faithful hsteps undisturbed List.prefix_rfl s hrun hids 2 hphase
  exact ⟨s, hrun, hphase, hconsumed, rows, htaken, hfaithful⟩

/-- A clear while the page is open. -/
def clearedPage : List Action :=
  untilPage ++ [Action.writer (.put .clear), .writer (.take none), .advance, .advance, .advance, .advance]

theorem clearedPage_not_faithful :
    ∃ s, run step {} clearedPage = .ok s ∧ IncreasingIds s.writer.put ∧ s.phase = .returned 2 ∧
      ¬ ∃ rows, s.writer.taken = some (rows, .ok s.snapshot) ∧ Faithful rows s.consumed := by
  obtain ⟨s, hrun, hids, hphase, hrows, hconsumed⟩ : ∃ s, run step {} clearedPage = .ok s ∧
      IncreasingIds s.writer.put ∧ s.phase = .returned 2 ∧
      s.writer.taken.map Prod.fst = some callAndReply.reverse ∧
      s.consumed = callAndReply.map fun e => (e.archived, none) := exists_of_endsIn (by decide +kernel)
  refine ⟨s, hrun, hids, hphase, ?_⟩
  rintro ⟨rows, htaken, hfaithful⟩
  rw [htaken] at hrows
  obtain rfl : rows = callAndReply.reverse := Option.some.inj hrows
  rw [hconsumed] at hfaithful
  -- the reply has its call in the snapshot, and was given no partner
  have hlink := hfaithful.links
    (BinderEvent.archived { Writer.plainEvent 1 with pairId := 7, isReply := true }, none) (by decide +kernel)
  exact hlink (by decide +kernel) { Writer.plainEvent 0 with pairId := 7 } (by decide +kernel) ⟨rfl, rfl⟩

end Exporting

end BinderTracer.App
