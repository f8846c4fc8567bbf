import BinderTracer.App.ColdEventStore
import BinderTracer.Lib.Runs

/-!
# The writer of the store

The coroutine of `ColdEventStore` that serves the queue of requests: it gathers consecutive appends into a
batch, carries the first other request over to its next turn, and remembers a failure until a clear. Requests
are put on the queue at any moment, `tryReceive` may find nothing at any moment, and each transaction, delete
or query may fail.

What the queue is for is `recent`: the events appended since the last clear. The table holds exactly those of
the requests served, unless a failure is remembered (`Consistent`).
-/

namespace BinderTracer.App

open BinderTracer.Lib

/-- `WriteRequest`. -/
inductive WriteRequest where
  | append (event : BinderEvent)
  | clear
  | exportRequest
deriving DecidableEq, Repr

structure ExportSnapshot where
  lastId : Int64
  count : Nat
deriving DecidableEq, Repr

/-! ### What the requests ask for -/

namespace WriteRequest

/-- The events of the appends among the requests. -/
def appended (requests : List WriteRequest) : List BinderEvent :=
  requests.filterMap fun
    | append e => some e
    | _ => none

/-- The events that are there after a request. -/
def apply (kept : List BinderEvent) : WriteRequest → List BinderEvent
  | append e => kept ++ [e]
  | clear => []
  | exportRequest => kept

/-- The events appended after the last clear. -/
def recent (requests : List WriteRequest) : List BinderEvent := requests.foldl apply []

/-- The events of the requests have different ids. -/
def DistinctIds (requests : List WriteRequest) : Prop :=
  (appended requests).Pairwise fun a b => a.id ≠ b.id

instance (requests : List WriteRequest) : Decidable (DistinctIds requests) :=
  inferInstanceAs (Decidable (List.Pairwise _ _))

theorem recent_snoc (requests : List WriteRequest) (r : WriteRequest) :
    recent (requests ++ [r]) = apply (recent requests) r := by
  simp [recent]

theorem recent_appends (requests : List WriteRequest) (events : List BinderEvent) :
    recent (requests ++ events.map append) = recent requests ++ events := by
  induction events using List.reverseRecOn with
  | nil => simp
  | append_singleton events e ih =>
    rw [List.map_append, ← List.append_assoc, List.map_singleton, recent_snoc, ih, apply, List.append_assoc]

@[simp] theorem appended_append (requests more : List WriteRequest) :
    appended (requests ++ more) = appended requests ++ appended more := List.filterMap_append

@[simp] theorem appended_appends (events : List BinderEvent) : appended (events.map append) = events := by
  simp [appended, List.filterMap_map]

/-- What is kept is a suffix of what was appended. -/
theorem recent_suffix (requests : List WriteRequest) : recent requests <:+ appended requests := by
  induction requests using List.reverseRecOn with
  | nil => exact List.suffix_rfl
  | append_singleton requests r ih =>
    rw [recent_snoc, appended_append]
    cases r with
    | append e =>
      obtain ⟨before, hbefore⟩ := ih
      exact ⟨before, by rw [apply, ← List.append_assoc, hbefore]; rfl⟩
    | clear => exact List.nil_suffix
    | exportRequest => simpa [apply, appended] using ih

theorem DistinctIds.of_prefix {requests more : List WriteRequest} (h : DistinctIds more)
    (hpre : requests <+: more) : DistinctIds requests := by
  obtain ⟨rest, rfl⟩ := hpre
  rw [DistinctIds, appended_append] at h
  exact (List.pairwise_append.1 h).1

theorem DistinctIds.recent {requests : List WriteRequest} (h : DistinctIds requests) :
    (recent requests).Pairwise fun a b => a.id ≠ b.id :=
  h.sublist (recent_suffix requests).sublist

end WriteRequest

open WriteRequest

/-! ### Statements -/

namespace EventStore

/-- `SELECT MAX(seq), COUNT(*)`; the rows are in decreasing order. -/
def snapshot (table : EventStore) : ExportSnapshot where
  lastId := match table.events.head? with
    | none => -1
    | some e => e.id
  count := table.events.length

end EventStore

namespace EventStore

theorem nodup_of_ids {events : List BinderEvent} (h : events.Pairwise fun a b => a.id ≠ b.id) : events.Nodup :=
  h.imp fun hne heq => hne (congrArg BinderEvent.id heq)

theorem nodup (table : EventStore) : table.events.Nodup := by
  refine nodup_of_ids (table.newestFirst.imp ?_)
  intro a b hlt heq
  exact Int64.lt_irrefl (heq ▸ hlt)

/-- A batch of new events is added to what is there. -/
theorem writeBatch_perm {table : EventStore} {kept events : List BinderEvent} (h : table.events.Perm kept)
    (hids : (kept ++ events).Pairwise fun a b => a.id ≠ b.id) :
    (table.writeBatch events).events.Perm (kept ++ events) := by
  obtain ⟨-, hevents, hcross⟩ := List.pairwise_append.1 hids
  refine (List.perm_ext_iff_of_nodup (nodup _) (nodup_of_ids hids)).2 fun x => ?_
  rw [mem_writeBatch hevents, List.mem_append, h.mem_iff]
  constructor
  · rintro (hx | ⟨hx, -⟩)
    · exact .inr hx
    · exact .inl hx
  · rintro (hx | hx)
    · exact .inr ⟨hx, fun e he => hcross x hx e he⟩
    · exact .inl hx

end EventStore

/-- The count and the greatest id of the events. -/
structure ExportSnapshot.Describes (s : ExportSnapshot) (events : List BinderEvent) : Prop where
  count : s.count = events.length
  none : events = [] → s.lastId = -1
  greatest : events ≠ [] → (∃ e ∈ events, e.id = s.lastId) ∧ ∀ e ∈ events, e.id ≤ s.lastId

theorem EventStore.snapshot_describes {table : EventStore} {events : List BinderEvent}
    (h : table.events.Perm events) : table.snapshot.Describes events := by
  have hsorted := table.newestFirst
  refine ⟨h.length_eq, fun hnil => ?_, fun hne => ?_⟩
  · have hempty : table.events = [] := List.Perm.eq_nil (hnil ▸ h)
    rw [snapshot, hempty]
    rfl
  · cases hevents : table.events with
    | nil => exact absurd (List.Perm.eq_nil (hevents ▸ h).symm) hne
    | cons first rest =>
      have hlast : table.snapshot.lastId = first.id := by
        rw [snapshot, hevents]
        rfl
      rw [hevents] at hsorted h
      refine ⟨⟨first, h.subset List.mem_cons_self, hlast.symm⟩, fun e he => ?_⟩
      rw [hlast]
      rcases List.mem_cons.1 (h.symm.subset he) with rfl | hrest
      · exact Int64.le_refl _
      · exact Int64.le_of_lt ((List.pairwise_cons.1 hsorted).1 e hrest)

/-! ### The writer -/

/-- What the writer has done: a batch written or failed, a delete done or failed, and a snapshot taken, with
the requests served before it and the rows that were there. -/
inductive Served where
  | batch (events : List BinderEvent) (failed : Bool)
  | clear (failed : Bool)
  | exported (before : List WriteRequest) (rows : List BinderEvent) (result : Except String ExportSnapshot)

def Served.failed : Served → Bool
  | batch _ failed => failed
  | clear failed => failed
  | exported _ _ _ => false

/-- The variables of the coroutine, the queue, the table, and what has happened: the requests put on the queue,
those that have been served, and how. -/
structure Writer where
  queue : List WriteRequest := []
  batch : List BinderEvent := []
  pending : Option WriteRequest := none
  writeFailure : Option String := none
  table : EventStore := EventStore.empty
  put : List WriteRequest := []
  served : List WriteRequest := []
  history : List Served := []

namespace Writer

/-- `BATCH`. -/
abbrev batchSize : Nat := 500

/-- A batch is written, or its transaction fails and leaves the table as it was. -/
def writeBatch (w : Writer) (failure : Option String) : Writer :=
  { w with
    table := if failure.isNone then w.table.writeBatch w.batch else w.table
    writeFailure := if failure.isNone then w.writeFailure else failure
    batch := []
    served := w.served ++ w.batch.map append
    history := w.history ++ [.batch w.batch failure.isSome] }

def clear (w : Writer) (failure : Option String) : Writer :=
  { w with
    table := if failure.isNone then EventStore.empty else w.table
    writeFailure := failure
    served := w.served ++ [WriteRequest.clear]
    history := w.history ++ [.clear failure.isSome] }

/-- The result of an export request, if its query does not fail. -/
def exportResult (w : Writer) (failure : Option String) : Except String ExportSnapshot :=
  if w.writeFailure = none then
    match failure with
    | none => .ok w.table.snapshot
    | some message => .error message
  else .error "Some events could not be stored. Clear the trace and try again."

def exportSnapshot (w : Writer) (failure : Option String) : Writer :=
  { w with
    served := w.served ++ [WriteRequest.exportRequest]
    history := w.history ++ [.exported w.served w.table.events (w.exportResult failure)] }

/-- The turn of the loop for a request. -/
def serve (w : Writer) (failure : Option String) : WriteRequest → Writer
  | .append e => { w with batch := [e] }
  | .clear => w.clear failure
  | .exportRequest => w.exportSnapshot failure

/-- What can happen; `failure` is the exception that a statement throws. -/
inductive Action where
  | put (r : WriteRequest)
  /-- The loop takes its next request, `pending ?: queue.receive()`. -/
  | take (failure : Option String)
  /-- `tryReceive` finds a request while the batch is filled. -/
  | more
  /-- The batch is full, another request is pending, or `tryReceive` has found nothing. -/
  | write (failure : Option String)
deriving DecidableEq, Repr

def step (w : Writer) : Action → Except Blocked Writer
  | .put r => .ok { w with queue := w.queue ++ [r], put := w.put ++ [r] }
  | .take failure =>
    if w.batch.isEmpty then
      match w.pending, w.queue with
      | some r, _ => .ok (serve { w with pending := none } failure r)
      | none, r :: queue => .ok (serve { w with queue } failure r)
      | none, [] => .error .blocked
    else .error .blocked
  | .more =>
    if w.batch.isEmpty = false ∧ w.batch.length < batchSize ∧ w.pending = none then
      match w.queue with
      | .append e :: queue => .ok { w with queue, batch := w.batch ++ [e] }
      | r :: queue => .ok { w with queue, pending := some r }
      | [] => .error .blocked
    else .error .blocked
  | .write failure => if w.batch.isEmpty then .error .blocked else .ok (w.writeBatch failure)

/-! ### The invariant -/

/-- Something has failed, and no delete has succeeded since. -/
def Unrepaired (history : List Served) : Prop :=
  ∃ before s after, history = before ++ s :: after ∧ s.failed = true ∧ Served.clear false ∉ after

theorem not_unrepaired_nil : ¬ Unrepaired [] := by
  rintro ⟨before, s, after, h, -⟩
  simp at h

/-- What one more entry does: it fails, or it does not repair what has failed. -/
theorem unrepaired_snoc {history : List Served} {s : Served} :
    Unrepaired (history ++ [s]) ↔ s.failed = true ∨ Unrepaired history ∧ s ≠ .clear false := by
  constructor
  · rintro ⟨before, x, after, heq, hfailed, hafter⟩
    rcases List.eq_nil_or_concat after with rfl | ⟨after, z, rfl⟩
    · obtain ⟨-, hlast⟩ := List.append_inj' heq rfl
      cases hlast
      exact .inl hfailed
    · rw [List.concat_eq_append] at heq hafter
      rw [← List.cons_append, ← List.append_assoc] at heq
      obtain ⟨rfl, hlast⟩ := List.append_inj' heq rfl
      cases hlast
      rw [List.mem_append, not_or, List.mem_singleton] at hafter
      exact .inr ⟨⟨before, x, after, rfl, hfailed, hafter.1⟩, Ne.symm hafter.2⟩
  · rintro (hfailed | ⟨⟨before, x, after, rfl, hfailed, hafter⟩, hne⟩)
    · exact ⟨history, s, [], rfl, hfailed, List.not_mem_nil⟩
    · refine ⟨before, x, after ++ [s], by simp, hfailed, ?_⟩
      rw [List.mem_append, not_or, List.mem_singleton]
      exact ⟨hafter, Ne.symm hne⟩

/-- A snapshot fails while a failure is not repaired; otherwise it fails or describes the events appended since
the last clear. -/
def Sound (before : List Served) : Served → Prop
  | .exported served _ result =>
    (Unrepaired before → ∃ message, result = .error message) ∧
      (DistinctIds served → ∀ snapshot, result = .ok snapshot → snapshot.Describes (recent served))
  | _ => True

/-- No request is lost or reordered; a failure is remembered until it is repaired, and without one the table
holds the recent events. -/
structure Consistent (w : Writer) : Prop where
  put : w.put = w.served ++ w.batch.map append ++ w.pending.toList ++ w.queue
  failure : Unrepaired w.history → w.writeFailure ≠ none
  table : w.writeFailure = none → DistinctIds w.served → w.table.events.Perm (recent w.served)
  sound : EachAfter Sound w.history
  positions : ∀ before rows result, .exported before rows result ∈ w.history →
    before ++ [WriteRequest.exportRequest] <+: w.served

theorem consistent_initial : Consistent {} where
  put := rfl
  failure := fun h => absurd h not_unrepaired_nil
  table := fun _ _ => List.Perm.nil
  sound := EachAfter.nil
  positions := fun _ _ _ h => absurd h List.not_mem_nil

namespace Consistent

variable {w : Writer}

/-- One more entry that is no snapshot. -/
theorem positions_snoc (h : Consistent w) {s : Served} (hs : ∀ before rows result, s ≠ .exported before rows result)
    (more : List WriteRequest) (before : List WriteRequest) (rows : List BinderEvent)
    (result : Except String ExportSnapshot) (hmem : .exported before rows result ∈ w.history ++ [s]) :
    before ++ [WriteRequest.exportRequest] <+: w.served ++ more := by
  rcases List.mem_append.1 hmem with hmem | hmem
  · exact (h.positions before rows result hmem).trans (List.prefix_append _ _)
  · exact absurd (List.mem_singleton.1 hmem).symm (hs before rows result)

theorem writeBatch (h : Consistent w) (failure : Option String) : Consistent (w.writeBatch failure) := by
  refine ⟨?_, fun hbad => ?_, fun hnone hids => ?_, h.sound.snoc trivial, h.positions_snoc (by simp) _⟩
  · simpa [Writer.writeBatch] using h.put
  · cases failure with
    | some message => simp [Writer.writeBatch]
    | none =>
      rcases unrepaired_snoc.1 hbad with hfailed | ⟨hbefore, -⟩
      · cases hfailed
      · exact h.failure hbefore
  · cases failure with
    | some message => cases hnone
    | none =>
      have hkept : DistinctIds w.served := hids.of_prefix (List.prefix_append _ _)
      have hrecent := hids.recent
      simp only [Writer.writeBatch, recent_appends] at hrecent ⊢
      exact EventStore.writeBatch_perm (h.table hnone hkept) hrecent

/-- A clear that succeeds repairs everything; one that fails is a failure. -/
theorem clear (h : Consistent w) (hbatch : w.batch = []) {queue : List WriteRequest} {pending : Option WriteRequest}
    (hnext : w.pending.toList ++ w.queue = .clear :: (pending.toList ++ queue)) (failure : Option String) :
    Consistent (Writer.clear { w with queue, pending } failure) := by
  refine ⟨?_, fun hbad => ?_, fun hnone hids => ?_, h.sound.snoc trivial, h.positions_snoc (by simp) _⟩
  · have hput := h.put
    rw [List.append_assoc, hnext] at hput
    simpa [Writer.clear, hbatch] using hput
  · rcases unrepaired_snoc.1 hbad with hfailed | ⟨-, hne⟩
    · cases failure with
      | some message => simp [Writer.clear]
      | none => cases hfailed
    · cases failure with
      | some message => simp [Writer.clear]
      | none => exact absurd rfl hne
  · cases failure with
    | some message => cases hnone
    | none =>
      simp only [Writer.clear, recent_snoc]
      exact List.Perm.nil

theorem exportSnapshot (h : Consistent w) (hbatch : w.batch = []) {queue : List WriteRequest}
    {pending : Option WriteRequest}
    (hnext : w.pending.toList ++ w.queue = .exportRequest :: (pending.toList ++ queue)) (failure : Option String) :
    Consistent (Writer.exportSnapshot { w with queue, pending } failure) := by
  refine ⟨?_, fun hbad => ?_, fun hnone hids => ?_, h.sound.snoc ⟨fun hbad => ?_, fun hids snapshot hok => ?_⟩,
    fun before rows result hmem => ?_⟩
  · have hput := h.put
    rw [List.append_assoc, hnext] at hput
    simpa [Writer.exportSnapshot, hbatch] using hput
  · rcases unrepaired_snoc.1 hbad with hfailed | ⟨hbefore, -⟩
    · cases hfailed
    · exact h.failure hbefore
  · simp only [Writer.exportSnapshot, recent_snoc]
    exact h.table hnone (hids.of_prefix (List.prefix_append _ _))
  · unfold exportResult
    rw [if_neg (h.failure hbad)]
    exact ⟨_, rfl⟩
  · unfold exportResult at hok
    split at hok
    · next hnone =>
      cases failure with
      | some message => cases hok
      | none =>
        cases hok
        exact EventStore.snapshot_describes (h.table hnone hids)
    · cases hok
  · rcases List.mem_append.1 hmem with hmem | hmem
    · exact (h.positions before rows result hmem).trans (List.prefix_append _ _)
    · cases List.mem_singleton.1 hmem
      exact List.prefix_rfl

/-- An append that is taken opens a batch. -/
theorem opens (h : Consistent w) (hbatch : w.batch = []) {e : BinderEvent} {queue : List WriteRequest}
    {pending : Option WriteRequest}
    (hnext : w.pending.toList ++ w.queue = .append e :: (pending.toList ++ queue)) :
    Consistent { w with queue, pending, batch := [e] } := by
  refine ⟨?_, h.failure, h.table, h.sound, h.positions⟩
  have hput := h.put
  rw [List.append_assoc, hnext] at hput
  simpa [hbatch] using hput

theorem serve (h : Consistent w) (hbatch : w.batch = []) {r : WriteRequest} {queue : List WriteRequest}
    {pending : Option WriteRequest}
    (hnext : w.pending.toList ++ w.queue = r :: (pending.toList ++ queue)) (failure : Option String) :
    Consistent (Writer.serve { w with queue, pending } failure r) := by
  cases r with
  | append e => exact h.opens hbatch hnext
  | clear => exact h.clear hbatch hnext failure
  | exportRequest => exact h.exportSnapshot hbatch hnext failure

/-- The batch or the pending request takes the next one over from the queue. -/
theorem receives (h : Consistent w) {queue : List WriteRequest} {batch : List BinderEvent}
    {pending : Option WriteRequest}
    (hnext : w.batch.map append ++ w.pending.toList ++ w.queue = batch.map append ++ pending.toList ++ queue) :
    Consistent { w with queue, batch, pending } := by
  refine ⟨?_, h.failure, h.table, h.sound, h.positions⟩
  rw [h.put, List.append_assoc, List.append_assoc, ← List.append_assoc (w.batch.map append), hnext]
  simp

/-- **Every turn of the writer keeps it consistent.** -/
theorem step (h : Consistent w) {w' : Writer} {a : Action} (hstep : w.step a = .ok w') : Consistent w' := by
  cases a with
  | put r =>
    cases hstep
    refine ⟨?_, h.failure, h.table, h.sound, h.positions⟩
    simp [h.put]
  | take failure =>
    simp only [Writer.step] at hstep
    split at hstep
    · next hbatch =>
      have hbatch : w.batch = [] := List.isEmpty_iff.1 hbatch
      split at hstep
      · next r hpending =>
        cases hstep
        exact h.serve hbatch (by simp [hpending]) failure
      · next r queue hpending hqueue =>
        cases hstep
        exact h.serve hbatch (by simp [hpending, hqueue]) failure
      · cases hstep
    · cases hstep
  | more =>
    simp only [Writer.step] at hstep
    split at hstep
    · next hmore =>
      split at hstep
      · next e queue hqueue =>
        cases hstep
        exact h.receives (by simp [hmore.2.2, hqueue])
      · next r queue _ hqueue =>
        cases hstep
        exact h.receives (by simp [hmore.2.2, hqueue])
      · cases hstep
    · cases hstep
  | write failure =>
    simp only [Writer.step] at hstep
    split at hstep
    · cases hstep
    · cases hstep
      exact h.writeBatch failure

end Consistent

theorem run_consistent {actions : List Action} {w : Writer} (h : run step {} actions = .ok w) : Consistent w :=
  run_invariant (fun _ _ _ hw hstep => Consistent.step hw hstep) consistent_initial h

/-- **The writer never loses or resurrects events silently.** In every run, every snapshot fails, or describes
exactly the events appended between the last clear before it in the queue and itself; and it fails if a batch or
a delete has failed and no delete has succeeded since. -/
theorem export_describes_recent {actions : List Action} {w : Writer} (h : run step {} actions = .ok w)
    (hids : DistinctIds w.put) {earlier later : List Served} {before : List WriteRequest}
    {rows : List BinderEvent} {result : Except String ExportSnapshot}
    (hserved : w.history = earlier ++ Served.exported before rows result :: later) :
    before ++ [WriteRequest.exportRequest] <+: w.put ∧
      ((∃ message, result = .error message) ∨
        ∃ snapshot, result = .ok snapshot ∧ snapshot.Describes (recent before)) ∧
      (Unrepaired earlier → ∃ message, result = .error message) := by
  have hw := run_consistent h
  have hmem : .exported before rows result ∈ w.history := by simp [hserved]
  have hput : w.served <+: w.put := by
    rw [hw.put, List.append_assoc, List.append_assoc]
    exact List.prefix_append _ _
  have hposition := (hw.positions before rows result hmem).trans hput
  obtain ⟨hfails, hdescribes⟩ := hw.sound earlier _ later hserved
  refine ⟨hposition, ?_, hfails⟩
  have hbefore : DistinctIds before := hids.of_prefix ((List.prefix_append _ _).trans hposition)
  cases result with
  | error message => exact .inl ⟨message, rfl⟩
  | ok snapshot => exact .inr ⟨snapshot, rfl, hdescribes hbefore snapshot rfl⟩

/-- The snapshots of the exports, in the order of their requests; `none` is a failure. -/
def results (w : Writer) : List (Option ExportSnapshot) :=
  w.history.filterMap fun
    | .exported _ _ result => some result.toOption
    | _ => none

/-- An event with nothing but its id. -/
def plainEvent (id : Int64) : BinderEvent :=
  { id, timestamp := 0, pid := 1, uid := 10000, code := 1, flags := 0, rawParcel := [] }

/-- A batch of two with an export pending behind it, then a batch that fails, an export, a clear and an event. -/
def failedBatch : List Action :=
  [.put (.append (plainEvent 0)), .put (.append (plainEvent 1)), .put .exportRequest, .take none, .more, .more,
    .write none, .take none, .put (.append (plainEvent 2)), .put .exportRequest, .take none, .write (some "full"),
    .put .clear, .take none, .take none, .put (.append (plainEvent 3)), .take none, .write none,
    .put .exportRequest, .take none]

theorem failedBatch_exports :
    ∃ w, run step {} failedBatch = .ok w ∧ DistinctIds w.put ∧ w.results = [some ⟨1, 2⟩, none, some ⟨3, 1⟩] ∧
      ∀ earlier before rows result later, w.history = earlier ++ Served.exported before rows result :: later →
        (∃ message, result = .error message) ∨
          ∃ snapshot, result = .ok snapshot ∧ snapshot.Describes (recent before) := by
  obtain ⟨w, h, hids, hresults⟩ : ∃ w, run step {} failedBatch = .ok w ∧ DistinctIds w.put ∧
      w.results = [some ⟨1, 2⟩, none, some ⟨3, 1⟩] := exists_of_endsIn (by decide +kernel)
  refine ⟨w, h, hids, hresults, ?_⟩
  intro earlier before rows result later hserved
  exact (export_describes_recent h hids hserved).2.1

end Writer

end BinderTracer.App
