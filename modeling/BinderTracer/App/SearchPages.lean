import BinderTracer.App.WindowLookups

/-!
# The pages of a search

The list of `MonitorViewModel` while a filter is set: the collector of the filter reads the first page, `loadMore`
the following ones, and each suspends in a query of the store. The coroutines run on the main thread, so the steps
between two suspensions are atomic; a query reads the table at some moment, and its page arrives at a later one.
`collectLatest` cancels the query of the old filter when it takes a new one. `basis` records the table from which
the first page of the list was read.

`loadMore` looks at the filter and the cursor before its query, and at neither after it; and `clearEvents` leaves the
list alone. The list belongs to the filter if neither the filter nor the events change under a query or a list
(`Orderly`).
-/

namespace BinderTracer.App

open BinderTracer.Lib WriteRequest ColdEventCodec ColdEventStore

/-! ### Steps -/

/-- A query that has been called: it is still to read the table, or its page is on the way. -/
inductive PageQuery where
  | none
  | asked (filter : EventFilter) (cursor : Option Int64)
  | answered (page : Page BinderEvent Int64) (store : EventStore)

def PageQuery.isNone : PageQuery → Bool
  | none => true
  | _ => false

/-- The list, the queries of the collector and of `loadMore`, and the filter that the collector has taken last. -/
structure MonitorViewModel where
  repository : EventRepository
  pagedEvents : List BinderEvent := []
  pageCursor : Option Int64 := none
  pageEndReached : Bool := false
  loadingPage : Bool := false
  collected : Option EventFilter := none
  firstPage : PageQuery := .none
  nextPage : PageQuery := .none
  basis : EventStore := EventStore.empty

namespace MonitorViewModel

inductive Action where
  /-- An event is added, the events are cleared, or the writer goes on. -/
  | repository (a : EventRepository.Action)
  | setFilter (filter : EventFilter)
  /-- The collector takes the filter. -/
  | collect
  | readFirst
  | resumeFirst
  | loadMore
  | readNext
  | resumeNext
deriving DecidableEq

/-- The table. -/
def table (s : MonitorViewModel) : EventStore := s.repository.coldStore.table

section
variable (tables : CharTables) (pageSize : Nat)

/-- The query reads the table. -/
def answer (s : MonitorViewModel) (filter : EventFilter) (cursor : Option Int64) : PageQuery :=
  .answered (query tables s.table filter pageSize cursor) s.table

/-- The block of the collector, up to its query. -/
def collect (s : MonitorViewModel) (filter : EventFilter) : MonitorViewModel :=
  if filter.isEmpty tables then
    { s with
      collected := some filter, firstPage := .none, pagedEvents := [], pageCursor := none, pageEndReached := false }
  else { s with collected := some filter, firstPage := .asked filter none }

/-- `loadMore`, up to its query. -/
def loadMore (s : MonitorViewModel) : MonitorViewModel :=
  let filter := s.repository.currentFilter
  if filter.isEmpty tables || s.pageEndReached || s.loadingPage then s
  else
    match s.pageCursor with
    | none => s
    | some cursor => { s with loadingPage := true, nextPage := .asked filter (some cursor) }

def step (s : MonitorViewModel) : Action → Except Blocked MonitorViewModel
  | .repository a =>
    match s.repository.step a with
    | .ok repository => .ok { s with repository }
    | .error e => .error e
  | .setFilter filter => .ok { s with repository := { s.repository with currentFilter := filter } }
  | .collect =>
    -- a flow of states gives no value twice in a row
    if s.collected = some s.repository.currentFilter then .error .blocked
    else .ok (s.collect tables s.repository.currentFilter)
  | .readFirst =>
    match s.firstPage with
    | .asked filter cursor => .ok { s with firstPage := s.answer tables pageSize filter cursor }
    | _ => .error .blocked
  | .resumeFirst =>
    match s.firstPage with
    | .answered page store =>
      .ok { s with
        firstPage := .none, pagedEvents := page.items, pageCursor := page.nextCursor
        pageEndReached := page.nextCursor.isNone, basis := store }
    | _ => .error .blocked
  | .loadMore => .ok (s.loadMore tables)
  | .readNext =>
    match s.nextPage with
    | .asked filter cursor => .ok { s with nextPage := s.answer tables pageSize filter cursor }
    | _ => .error .blocked
  | .resumeNext =>
    match s.nextPage with
    | .answered page _ =>
      .ok { s with
        nextPage := .none, pagedEvents := s.pagedEvents ++ page.items, pageCursor := page.nextCursor
        pageEndReached := page.nextCursor.isNone, loadingPage := false }
    | _ => .error .blocked

end

def initial (capacity : Nat) (positive : 0 < capacity) (now : Int64) : MonitorViewModel :=
  { repository := EventRepository.initial capacity positive now }

end MonitorViewModel

/-! ### What the writer has still to do -/

namespace Writer

/-- The requests that have not been served. -/
def outstanding (w : Writer) : List WriteRequest := w.batch.map append ++ w.pending.toList ++ w.queue

theorem Consistent.put_eq {w : Writer} (h : Consistent w) : w.put = w.served ++ w.outstanding := by
  rw [h.put, outstanding, List.append_assoc, List.append_assoc, List.append_assoc]

/-- What the writer serves next comes from what is outstanding. -/
theorem outstanding_step {w w' : Writer} (h : Consistent w) (h' : Consistent w') (hput : w'.put = w.put)
    {more : List WriteRequest} (hserved : w'.served = w.served ++ more) : w.outstanding = more ++ w'.outstanding := by
  have hall := h'.put_eq
  rw [hput, h.put_eq, hserved, List.append_assoc] at hall
  exact List.append_cancel_left hall

/-- What serving some requests makes of the table: it stays, and a clear among them has failed; it is emptied; or
the batch is written. -/
inductive Serves (w : Writer) (a : Action) : List WriteRequest → EventStore → Prop where
  | kept {more : List WriteRequest}
      (hclear : WriteRequest.clear ∈ more → w.next = some .clear ∧ ∃ message, a = .take (some message)) :
      Serves w a more w.table
  | deleted : Serves w a [.clear] EventStore.empty
  | written : Serves w a (w.batch.map append) (w.table.writeBatch w.batch)

theorem clear_not_mem_appends (events : List BinderEvent) : WriteRequest.clear ∉ events.map append := by
  simp

/-- Nothing is served. -/
theorem serves_nothing {w w' : Writer} {a : Action} (hserved : w'.served = w.served) (htable : w'.table = w.table) :
    ∃ more, w'.served = w.served ++ more ∧ Serves w a more w'.table :=
  ⟨[], by rw [hserved, List.append_nil], htable ▸ .kept fun hmem => absurd hmem List.not_mem_nil⟩

theorem serve_serves {w : Writer} {r : WriteRequest} (hnext : w.next = some r) (failure : Option String)
    (queue : List WriteRequest) (pending : Option WriteRequest) :
    ∃ more, (serve { w with queue, pending } failure r).served = w.served ++ more ∧
      Serves w (.take failure) more (serve { w with queue, pending } failure r).table := by
  cases r with
  | append e => exact serves_nothing rfl rfl
  | clear =>
    refine ⟨[.clear], rfl, ?_⟩
    cases failure with
    | none => exact .deleted
    | some message => exact .kept fun _ => ⟨hnext, message, rfl⟩
  | exportRequest => exact ⟨[.exportRequest], rfl, .kept fun hmem => absurd (List.mem_singleton.1 hmem) (by simp)⟩

/-- Every step but a put serves some requests. -/
theorem step_serves {w w' : Writer} {a : Action} (hput : ∀ r, a ≠ .put r) (h : w.step a = .ok w') :
    ∃ more, w'.served = w.served ++ more ∧ Serves w a more w'.table := by
  cases a with
  | put r => exact absurd rfl (hput r)
  | take failure =>
    simp only [step] at h
    split at h
    · split at h
      · next r hpending =>
        cases h
        exact serve_serves (by simp [next, hpending]) failure _ _
      · next r queue hpending hqueue =>
        cases h
        exact serve_serves (by simp [next, hpending, hqueue]) failure _ _
      · cases h
    · cases h
  | more =>
    simp only [step] at h
    split at h
    · split at h
      · cases h
        exact serves_nothing rfl rfl
      · cases h
        exact serves_nothing rfl rfl
      · cases h
    · cases h
  | write failure =>
    simp only [step] at h
    split at h
    · cases h
    · cases h
      refine ⟨w.batch.map append, rfl, ?_⟩
      cases failure with
      | none => exact .written
      | some message => exact .kept fun hmem => absurd hmem (clear_not_mem_appends _)

end Writer

/-- Without a clear, what is there stays. -/
theorem WriteRequest.recent_append_extends (requests : List WriteRequest) {more : List WriteRequest}
    (h : WriteRequest.clear ∉ more) : recent requests <+: recent (requests ++ more) := by
  induction more using List.reverseRecOn with
  | nil => rw [List.append_nil]
  | append_singleton more r ih =>
    rw [List.mem_append, not_or] at h
    rw [← List.append_assoc, recent_snoc]
    cases r with
    | append e => exact (ih h.1).trans (List.prefix_append _ _)
    | clear => exact absurd (List.mem_singleton_self _) h.2
    | exportRequest => exact ih h.1

namespace EventStore

/-- The newest event comes first. -/
theorem insert_newest {store : EventStore} {e : BinderEvent} (h : ∀ x ∈ store.events, x.id < e.id) :
    (store.insert e).events = e :: store.events := by
  have hnewer : store.events.filter (fun x => e.id < x.id) = [] :=
    List.filter_eq_nil_iff.2 fun x hx hlt => Int64.lt_asymm (h x hx) (of_decide_eq_true hlt)
  have holder : store.events.filter (fun x => x.id < e.id) = store.events :=
    List.filter_eq_self.2 fun x hx => decide_eq_true (h x hx)
  show store.events.filter (fun x => e.id < x.id) ++ e :: store.events.filter (fun x => x.id < e.id) = _
  rw [hnewer, holder, List.nil_append]

/-- A batch of newer events comes before what is there. -/
theorem suffix_writeBatch {store : EventStore} {events : List BinderEvent}
    (hids : events.Pairwise fun a b => a.id < b.id) (hnewer : ∀ x ∈ store.events, ∀ e ∈ events, x.id < e.id) :
    store.events <:+ (store.writeBatch events).events := by
  induction events generalizing store with
  | nil => exact List.suffix_rfl
  | cons e events ih =>
    obtain ⟨hfirst, hrest⟩ := List.pairwise_cons.1 hids
    have hinsert := insert_newest fun x hx => hnewer x hx e List.mem_cons_self
    refine List.IsSuffix.trans ?_ (@ih (store.insert e) hrest fun x hx e' he' => ?_)
    · rw [hinsert]
      exact List.suffix_cons e store.events
    · rw [hinsert] at hx
      rcases List.mem_cons.1 hx with rfl | hx
      · exact hfirst e' he'
      · exact hnewer x hx e' (List.mem_cons_of_mem _ he')

end EventStore

namespace Writer

/-- The table holds events that have not been cleared by a request that was served. -/
structure Stored (w : Writer) : Prop where
  consistent : Consistent w
  kept : ∀ e ∈ w.table.events, e ∈ recent w.served

/-- While no clear is outstanding, the table holds events that have not been cleared at all. -/
theorem Stored.recent_put {w : Writer} (h : Stored w) (hclear : WriteRequest.clear ∉ w.outstanding) :
    ∀ e ∈ w.table.events, e ∈ recent w.put := by
  intro e he
  rw [h.consistent.put_eq]
  exact (recent_append_extends _ hclear).subset (h.kept e he)

/-- The batch is newer than the table. -/
theorem Stored.newer {w : Writer} (h : Stored w) (hids : IncreasingIds w.put) :
    w.batch.Pairwise (fun a b => a.id < b.id) ∧ ∀ x ∈ w.table.events, ∀ e ∈ w.batch, x.id < e.id := by
  rw [IncreasingIds, h.consistent.put, List.append_assoc, appended_append, appended_append, appended_appends] at hids
  obtain ⟨-, hbatch, hcross⟩ := List.pairwise_append.1 (List.pairwise_append.1 hids).1
  exact ⟨hbatch, fun x hx e he => hcross x ((recent_suffix _).subset (h.kept x hx)) e he⟩

/-- **A step of the writer**: it keeps the table to what has not been cleared, and the rows stay if no clear is
outstanding. -/
theorem Stored.step {w w' : Writer} (h : Stored w) {a : Action} (hput : ∀ r, a ≠ .put r) (hstep : w.step a = .ok w')
    (hids : IncreasingIds w.put) (hfails : ∀ message, a = .take (some message) → w.next ≠ some .clear) :
    Stored w' ∧ (WriteRequest.clear ∉ w.outstanding →
      WriteRequest.clear ∉ w'.outstanding ∧ w.table.events <:+ w'.table.events) := by
  have hconsistent := h.consistent.step hstep
  obtain ⟨more, hserved, hserves⟩ := step_serves hput hstep
  have hout := outstanding_step h.consistent hconsistent (put_of_step hput hstep) hserved
  obtain ⟨hbatch, hnewer⟩ := h.newer hids
  have hquiet : WriteRequest.clear ∉ w.outstanding →
      WriteRequest.clear ∉ more ∧ WriteRequest.clear ∉ w'.outstanding := by
    rw [hout, List.mem_append, not_or]
    exact id
  generalize htable : w'.table = table at hserves
  cases hserves with
  | kept hclear =>
    have hnot : WriteRequest.clear ∉ more := by
      intro hmem
      obtain ⟨hnext, message, ha⟩ := hclear hmem
      exact hfails message ha hnext
    refine ⟨⟨hconsistent, fun e he => ?_⟩, fun hq => ⟨(hquiet hq).2, htable ▸ List.suffix_rfl⟩⟩
    rw [htable] at he
    rw [hserved]
    exact (recent_append_extends _ hnot).subset (h.kept e he)
  | deleted =>
    refine ⟨⟨hconsistent, fun e he => ?_⟩, fun hq => absurd List.mem_cons_self (hquiet hq).1⟩
    rw [htable] at he
    exact absurd he List.not_mem_nil
  | written =>
    have hdistinct : w.batch.Pairwise fun a b => a.id ≠ b.id := by
      refine hbatch.imp ?_
      intro a b hlt heq
      exact Int64.lt_irrefl (heq ▸ hlt)
    refine ⟨⟨hconsistent, fun e he => ?_⟩, fun hq => ⟨(hquiet hq).2, EventStore.suffix_writeBatch hbatch hnewer⟩⟩
    rw [htable, EventStore.mem_writeBatch hdistinct] at he
    rw [hserved, recent_appends]
    rcases he with he | ⟨he, -⟩
    · exact List.mem_append_right _ he
    · exact List.mem_append_left _ (h.kept e he)

end Writer

/-! ### The invariant -/

/-- The events that a search finds in a table, as they are read back. -/
def ColdEventStore.matching (tables : CharTables) (store : EventStore) (filter : EventFilter) : List BinderEvent :=
  (found tables store filter).map BinderEvent.archived

theorem ColdEventStore.matching_sorted (tables : CharTables) (store : EventStore) (filter : EventFilter) :
    (matching tables store filter).Pairwise fun a b => b.id < a.id := by
  rw [matching, List.pairwise_map]
  exact store.newestFirst.filter _

/-- Newer rows do not change a page below one of the old ones. -/
theorem ColdEventStore.query_of_suffix {tables : CharTables} {basis store : EventStore}
    (h : basis.events <:+ store.events) {filter : EventFilter} {k : Int64}
    (hk : ∃ e ∈ matching tables basis filter, e.id = k) (pageSize : Nat) :
    query tables store filter pageSize (some k) =
      pageBelow BinderEvent.id pageSize (matching tables basis filter) (some k) := by
  obtain ⟨new, hnew⟩ := h
  have hsplit : matching tables store filter =
      (new.filter fun e => (filterClauses tables filter).all (Clause.holds (toRow e))).map BinderEvent.archived ++
        matching tables basis filter := by
    rw [matching, matching, found, found, ← hnew, List.filter_append, List.map_append]
  have hsorted := matching_sorted tables store filter
  rw [hsplit] at hsorted
  obtain ⟨e, he, rfl⟩ := hk
  have habove := (List.pairwise_append.1 hsorted).2.2
  rw [query_eq, ← matching, hsplit]
  exact pageBelow_append (fun r hr => Int64.lt_asymm (habove r hr e he)) pageSize _

namespace MonitorViewModel

/-- A filter is set, or the collector still has one. -/
def Searching (tables : CharTables) (s : MonitorViewModel) : Prop :=
  s.repository.currentFilter.isEmpty tables = false ∨ ∃ f, s.collected = some f ∧ f.isEmpty tables = false

/-- The list is a beginning of what the filter finds in `basis`, and the rows of that are still there. -/
structure Shows (tables : CharTables) (s : MonitorViewModel) (filter : EventFilter) : Prop where
  read : ReadSoFar BinderEvent.id (matching tables s.basis filter) s.pagedEvents s.pageCursor
  ended : s.pageEndReached = s.pageCursor.isNone
  basis : s.basis.events <:+ s.table.events

/-- The collector has taken the filter and has its first page. -/
structure UpToDate (tables : CharTables) (s : MonitorViewModel) (filter : EventFilter) : Prop where
  current : s.repository.currentFilter = filter
  collected : s.collected = some filter
  set : filter.isEmpty tables = false
  free : s.firstPage = .none

/-- What the first page is or will be, by the query for it. -/
def FirstPage (tables : CharTables) (pageSize : Nat) (s : MonitorViewModel) : PageQuery → Prop
  | .none => ∀ f, s.collected = some f → f.isEmpty tables = false → Shows tables s f
  | .asked filter cursor => cursor = none ∧ s.collected = some filter ∧ filter.isEmpty tables = false
  | .answered page store =>
    ∃ f, s.collected = some f ∧ f.isEmpty tables = false ∧
      page = pageBelow BinderEvent.id pageSize (matching tables store f) none ∧ store.events <:+ s.table.events

/-- What the next page will be, by the query for it. -/
def NextPage (tables : CharTables) (pageSize : Nat) (s : MonitorViewModel) : PageQuery → Prop
  | .none => s.loadingPage = false
  | .asked filter cursor =>
    s.loadingPage = true ∧ UpToDate tables s filter ∧ ∃ k, cursor = some k ∧ s.pageCursor = some k
  | .answered page _ =>
    s.loadingPage = true ∧ ∃ f k, UpToDate tables s f ∧ s.pageCursor = some k ∧
      page = pageBelow BinderEvent.id pageSize (matching tables s.basis f) (some k)

structure Paged (tables : CharTables) (pageSize : Nat) (s : MonitorViewModel) : Prop where
  stored : s.repository.coldStore.Stored
  quiet : Searching tables s → WriteRequest.clear ∉ s.repository.coldStore.outstanding
  first : FirstPage tables pageSize s s.firstPage
  next : NextPage tables pageSize s s.nextPage

section
variable {tables : CharTables} {pageSize : Nat} {s s' : MonitorViewModel} {q : PageQuery}

/-- The rest of the state goes on: while there is a search, the rows stay. -/
theorem FirstPage.mono (h : FirstPage tables pageSize s q) (hcollected : s'.collected = s.collected)
    (hlist : s'.pagedEvents = s.pagedEvents) (hcursor : s'.pageCursor = s.pageCursor)
    (hended : s'.pageEndReached = s.pageEndReached) (hbasis : s'.basis = s.basis)
    (htable : ∀ f, s.collected = some f → f.isEmpty tables = false → s.table.events <:+ s'.table.events) :
    FirstPage tables pageSize s' q := by
  cases q with
  | none =>
    intro f hf hset
    rw [hcollected] at hf
    obtain ⟨hread, hend, hrows⟩ := h f hf hset
    refine ⟨?_, ?_, ?_⟩
    · rw [hbasis, hlist, hcursor]
      exact hread
    · rw [hended, hcursor]
      exact hend
    · rw [hbasis]
      exact hrows.trans (htable f hf hset)
  | asked filter cursor =>
    rw [FirstPage, hcollected]
    exact h
  | answered page store =>
    obtain ⟨f, hf, hset, hpage, hstore⟩ := h
    exact ⟨f, hcollected.trans hf, hset, hpage, hstore.trans (htable f hf hset)⟩

theorem NextPage.mono (h : NextPage tables pageSize s q) (hloading : s'.loadingPage = s.loadingPage)
    (hcursor : s'.pageCursor = s.pageCursor) (hbasis : s'.basis = s.basis)
    (hup : ∀ f, UpToDate tables s f → UpToDate tables s' f) : NextPage tables pageSize s' q := by
  cases q with
  | none => exact hloading.trans h
  | asked filter cursor =>
    rw [NextPage, hloading, hcursor]
    exact ⟨h.1, hup filter h.2.1, h.2.2⟩
  | answered page store =>
    rw [NextPage, hloading, hcursor, hbasis]
    obtain ⟨hload, f, k, hcurrent, hrest⟩ := h
    exact ⟨hload, f, k, hup f hcurrent, hrest⟩

/-- A query for the next page is in flight only while the list is up to date. -/
theorem NextPage.upToDate_or (h : NextPage tables pageSize s q) :
    (q = .none ∧ s.loadingPage = false) ∨ ∃ f, UpToDate tables s f := by
  cases q with
  | none => exact .inl ⟨rfl, h⟩
  | asked filter cursor => exact .inr ⟨filter, h.2.1⟩
  | answered page store =>
    obtain ⟨-, f, -, hup, -⟩ := h
    exact .inr ⟨f, hup⟩

theorem nextPage_of_none (hq : q = .none) (hloading : s.loadingPage = false) : NextPage tables pageSize s q := by
  subst hq
  exact hloading

end

namespace Paged

variable {tables : CharTables} {pageSize : Nat} {s s' : MonitorViewModel}

theorem shows (h : Paged tables pageSize s) {filter : EventFilter} (hup : UpToDate tables s filter) :
    Shows tables s filter := by
  have hfirst := h.first
  rw [hup.free] at hfirst
  exact hfirst filter hup.collected hup.set

/-- Nothing is being loaded while the list is not up to date. -/
theorem idle (h : Paged tables pageSize s) (hnot : ∀ f, ¬ UpToDate tables s f) :
    s.nextPage = .none ∧ s.loadingPage = false := by
  rcases h.next.upToDate_or with hnone | ⟨f, hup⟩
  · exact hnone
  · exact absurd hup (hnot f)

/-! The repository. -/

theorem of_repository (h : Paged tables pageSize s) {repository : EventRepository}
    (hstored : repository.coldStore.Stored) (hfilter : repository.currentFilter = s.repository.currentFilter)
    (hquiet : Searching tables s → WriteRequest.clear ∉ repository.coldStore.outstanding ∧
      s.table.events <:+ repository.coldStore.table.events) : Paged tables pageSize { s with repository } := by
  refine ⟨hstored, fun hs => (hquiet ?_).1, h.first.mono rfl rfl rfl rfl rfl ?_, h.next.mono rfl rfl rfl ?_⟩
  · rw [Searching, hfilter] at hs
    exact hs
  · exact fun f hf hset => (hquiet (.inr ⟨f, hf, hset⟩)).2
  · exact fun f hup => ⟨hfilter.trans hup.current, hup.collected, hup.set, hup.free⟩

theorem stored_offer (h : Paged tables pageSize s) (r : WriteRequest) : (s.repository.coldStore.offer r).Stored := by
  have hstep : s.repository.coldStore.step (.put r) = .ok (s.repository.coldStore.offer r) := rfl
  exact ⟨h.stored.consistent.step hstep, h.stored.kept⟩

theorem addEvent (h : Paged tables pageSize s) (event : BinderEvent) (now : Int64) :
    Paged tables pageSize { s with repository := s.repository.addEvent event now } := by
  have hstore : (s.repository.addEvent event now).coldStore = s.repository.coldStore.offer (.append event) := by
    simp [EventRepository.addEvent, EventRepository.addSection]
  refine h.of_repository (hstore ▸ h.stored_offer _) ?_ fun hs => ?_
  · simp [EventRepository.addEvent, EventRepository.addSection]
  · rw [hstore]
    refine ⟨fun hmem => ?_, List.suffix_rfl⟩
    rw [Writer.outstanding, Writer.offer, ← List.append_assoc, List.mem_append] at hmem
    rcases hmem with hmem | hmem
    · exact h.quiet hs hmem
    · exact absurd (List.mem_singleton.1 hmem) (by simp)

/-- The events are cleared while there is no search. -/
theorem clearEvents (h : Paged tables pageSize s) (now : Int64)
    (hempty : s.repository.currentFilter.isEmpty tables = true)
    (hcollected : s.collected = some s.repository.currentFilter) :
    Paged tables pageSize { s with repository := s.repository.clearEvents now } := by
  refine h.of_repository (h.stored_offer _) rfl fun hs => ?_
  rcases hs with hset | ⟨f, hf, hset⟩
  · rw [hempty] at hset
    cases hset
  · rw [hcollected] at hf
    cases hf
    rw [hempty] at hset
    cases hset

theorem writer (h : Paged tables pageSize s) (hids : IncreasingIds s.repository.coldStore.put) {a : Writer.Action}
    (hput : ∀ r, a ≠ .put r) {coldStore : Writer} (hstep : s.repository.coldStore.step a = .ok coldStore)
    (hfails : ∀ message, a = .take (some message) → s.repository.coldStore.next ≠ some .clear) :
    Paged tables pageSize { s with repository := { s.repository with coldStore } } := by
  obtain ⟨hstored, hrows⟩ := h.stored.step hput hstep hids hfails
  exact h.of_repository hstored rfl fun hs => hrows (h.quiet hs)

/-! The filter. -/

theorem setFilter (h : Paged tables pageSize s) (filter : EventFilter) (hnone : s.nextPage = .none)
    (hclear : filter.isEmpty tables = false → WriteRequest.clear ∉ s.repository.coldStore.outstanding) :
    Paged tables pageSize { s with repository := { s.repository with currentFilter := filter } } := by
  have hloading : s.loadingPage = false := by
    have hnext := h.next
    rw [hnone] at hnext
    exact hnext
  refine ⟨h.stored, fun hs => ?_, h.first.mono rfl rfl rfl rfl rfl fun _ _ _ => List.suffix_rfl,
    nextPage_of_none hnone hloading⟩
  rcases hs with hset | hcollected
  · exact hclear hset
  · exact h.quiet (.inr hcollected)

theorem collects (h : Paged tables pageSize s) (hnew : s.collected ≠ some s.repository.currentFilter) :
    Paged tables pageSize (s.collect tables s.repository.currentFilter) := by
  obtain ⟨hnone, hloading⟩ := h.idle fun f hup => hnew (hup.collected.trans (congrArg some hup.current.symm))
  unfold collect
  split
  · next hempty =>
    refine ⟨h.stored, fun hs => h.quiet (.inl ?_), fun f hf hset => ?_, nextPage_of_none hnone hloading⟩
    · rcases hs with hset | ⟨f, hf, hset⟩
      · exact hset
      · cases hf
        exact hset
    · cases hf
      rw [hempty] at hset
      cases hset
  · next hset =>
    have hset : s.repository.currentFilter.isEmpty tables = false := by simpa using hset
    exact ⟨h.stored, fun _ => h.quiet (.inl hset), ⟨rfl, rfl, hset⟩, nextPage_of_none hnone hloading⟩

/-! The queries. -/

theorem readsFirst (h : Paged tables pageSize s) {filter : EventFilter} {cursor : Option Int64}
    (hquery : s.firstPage = .asked filter cursor) :
    Paged tables pageSize { s with firstPage := s.answer tables pageSize filter cursor } := by
  have hfirst := h.first
  rw [hquery] at hfirst
  obtain ⟨rfl, hcollected, hset⟩ := hfirst
  obtain ⟨hnone, hloading⟩ := h.idle fun f hup => by cases hquery.symm.trans hup.free
  refine ⟨h.stored, h.quiet, ⟨filter, hcollected, hset, ?_, List.suffix_rfl⟩, nextPage_of_none hnone hloading⟩
  exact query_eq tables s.table filter pageSize none

/-- The first page replaces the list. -/
theorem resumesFirst (h : Paged tables pageSize s) (hsize : 1 ≤ pageSize) {page : Page BinderEvent Int64}
    {store : EventStore} (hquery : s.firstPage = .answered page store) :
    Paged tables pageSize { s with
      firstPage := .none, pagedEvents := page.items, pageCursor := page.nextCursor
      pageEndReached := page.nextCursor.isNone, basis := store } := by
  have hfirst := h.first
  rw [hquery] at hfirst
  obtain ⟨f, hcollected, -, rfl, hstore⟩ := hfirst
  obtain ⟨hnone, hloading⟩ := h.idle fun f hup => by cases hquery.symm.trans hup.free
  refine ⟨h.stored, h.quiet, fun f' hf' _ => ?_, nextPage_of_none hnone hloading⟩
  obtain rfl := Option.some.inj (hcollected.symm.trans hf')
  exact ⟨readSoFar_first hsize _, rfl, hstore⟩

theorem loadsMore (h : Paged tables pageSize s) (hcollected : s.collected = some s.repository.currentFilter)
    (hfree : s.firstPage = .none) : Paged tables pageSize (s.loadMore tables) := by
  unfold loadMore
  dsimp only
  split
  · exact h
  · next hmay =>
    simp only [Bool.or_eq_true, not_or, Bool.not_eq_true] at hmay
    split
    · exact h
    · next k hcursor =>
      have hup : UpToDate tables s s.repository.currentFilter := ⟨rfl, hcollected, hmay.1.1, hfree⟩
      refine ⟨h.stored, h.quiet, h.first.mono rfl rfl rfl rfl rfl fun _ _ _ => List.suffix_rfl, rfl, ?_, k, rfl, hcursor⟩
      exact ⟨hup.current, hup.collected, hup.set, hup.free⟩

/-- The next page is read: it is one of the rows that were there for the first page. -/
theorem readsNext (h : Paged tables pageSize s) {filter : EventFilter} {cursor : Option Int64}
    (hquery : s.nextPage = .asked filter cursor) :
    Paged tables pageSize { s with nextPage := s.answer tables pageSize filter cursor } := by
  have hnext := h.next
  rw [hquery] at hnext
  obtain ⟨hloading, hup, k, rfl, hcursor⟩ := hnext
  obtain ⟨hread, -, hbasis⟩ := h.shows hup
  rw [hcursor] at hread
  refine ⟨h.stored, h.quiet, h.first.mono rfl rfl rfl rfl rfl fun _ _ _ => List.suffix_rfl, hloading, filter, k,
    ⟨hup.current, hup.collected, hup.set, hup.free⟩, hcursor, ?_⟩
  exact query_of_suffix hbasis hread.mem pageSize

/-- The next page is appended to the list. -/
theorem resumesNext (h : Paged tables pageSize s) (hsize : 1 ≤ pageSize) {page : Page BinderEvent Int64}
    {store : EventStore} (hquery : s.nextPage = .answered page store) :
    Paged tables pageSize { s with
      nextPage := .none, pagedEvents := s.pagedEvents ++ page.items, pageCursor := page.nextCursor
      pageEndReached := page.nextCursor.isNone, loadingPage := false } := by
  have hnext := h.next
  rw [hquery] at hnext
  obtain ⟨-, f, k, hup, hcursor, rfl⟩ := hnext
  obtain ⟨hread, -, hbasis⟩ := h.shows hup
  rw [hcursor] at hread
  refine ⟨h.stored, h.quiet, ?_, rfl⟩
  show FirstPage tables pageSize _ s.firstPage
  rw [hup.free]
  intro f' hf' _
  obtain rfl := Option.some.inj (hup.collected.symm.trans hf')
  exact ⟨hread.next hsize (matching_sorted tables s.basis f), rfl, hbasis⟩

end Paged

/-! ### Runs -/

section
variable (tables : CharTables)

/-- The filter does not change while a page is being loaded, and pages are loaded only for the filter that the
collector has taken and has the first page of. Events are cleared only while no filter is set, a filter is set only
when the clears before it have been served, and no clear fails. -/
def Orderly (s : MonitorViewModel) : Action → Prop
  | .repository (.clearEvents _) =>
    s.repository.currentFilter.isEmpty tables = true ∧ s.collected = some s.repository.currentFilter
  | .repository (.writer (.take (some _))) => s.repository.coldStore.next ≠ some .clear
  | .setFilter filter =>
    s.nextPage.isNone = true ∧
      (filter.isEmpty tables = false → WriteRequest.clear ∉ s.repository.coldStore.outstanding)
  | .loadMore => s.collected = some s.repository.currentFilter ∧ s.firstPage.isNone = true
  | _ => True

instance (s : MonitorViewModel) (a : Action) : Decidable (Orderly tables s a) :=
  match a with
  | .repository (.clearEvents _) | .setFilter _ | .loadMore => instDecidableAnd
  | .repository (.writer (.take (some _))) => instDecidableNot
  | .repository (.addEvent _ _) | .repository (.writer (.put _)) | .repository (.writer (.take none))
  | .repository (.writer .more) | .repository (.writer (.write _)) | .collect | .readFirst | .resumeFirst
  | .readNext | .resumeNext => instDecidableTrue

/-- No query is in flight, and the collector has taken the filter. -/
def Settled (s : MonitorViewModel) : Prop :=
  s.firstPage.isNone = true ∧ s.nextPage.isNone = true ∧ s.collected = some s.repository.currentFilter

instance (s : MonitorViewModel) : Decidable (Settled s) := inferInstanceAs (Decidable (_ ∧ _))

end

theorem eq_none_of_isNone {q : PageQuery} (h : q.isNone = true) : q = .none := by
  cases q with
  | none => rfl
  | asked | answered => cases h

section
variable {tables : CharTables} {pageSize : Nat} {s s' : MonitorViewModel}

theorem put_extends {a : Action} (hstep : step tables pageSize s a = .ok s') :
    s.repository.coldStore.put <+: s'.repository.coldStore.put := by
  cases a with
  | repository a =>
    simp only [step] at hstep
    split at hstep
    · next repository hrepository =>
      cases hstep
      obtain ⟨event, now, -, rfl⟩ | ⟨now, -, rfl⟩ | ⟨b, coldStore, -, -, hput, rfl⟩ :=
        EventRepository.step_cases hrepository
      · simp [EventRepository.addEvent, EventRepository.addSection, Writer.offer]
      · exact List.prefix_append _ _
      · exact hput ▸ List.prefix_rfl
    · cases hstep
  | setFilter filter =>
    cases hstep
    exact List.prefix_rfl
  | collect =>
    simp only [step] at hstep
    split at hstep
    · cases hstep
    · cases hstep
      unfold collect
      split <;> exact List.prefix_rfl
  | loadMore =>
    cases hstep
    unfold loadMore
    dsimp only
    split
    · exact List.prefix_rfl
    · split <;> exact List.prefix_rfl
  | readFirst | resumeFirst | readNext | resumeNext =>
    simp only [step] at hstep
    split at hstep
    · cases hstep
      exact List.prefix_rfl
    · cases hstep

theorem Paged.step (h : Paged tables pageSize s) (hsize : 1 ≤ pageSize) {a : Action} (horderly : Orderly tables s a)
    (hids : IncreasingIds s.repository.coldStore.put)
    (hstep : MonitorViewModel.step tables pageSize s a = .ok s') : Paged tables pageSize s' := by
  cases a with
  | repository a =>
    simp only [MonitorViewModel.step] at hstep
    split at hstep
    · next repository hrepository =>
      cases hstep
      obtain ⟨event, now, rfl, rfl⟩ | ⟨now, rfl, rfl⟩ | ⟨b, coldStore, rfl, hw, -, rfl⟩ :=
        EventRepository.step_cases hrepository
      · exact h.addEvent event now
      · exact h.clearEvents now horderly.1 horderly.2
      · refine h.writer hids (fun r hr => ?_) hw fun message hb => ?_
        · subst hr
          cases hrepository
        · subst hb
          exact horderly
    · cases hstep
  | setFilter filter =>
    cases hstep
    exact h.setFilter filter (eq_none_of_isNone horderly.1) horderly.2
  | collect =>
    simp only [MonitorViewModel.step] at hstep
    split at hstep
    · cases hstep
    · next hnew =>
      cases hstep
      exact h.collects hnew
  | loadMore =>
    cases hstep
    exact h.loadsMore horderly.1 (eq_none_of_isNone horderly.2)
  | readFirst =>
    simp only [MonitorViewModel.step] at hstep
    split at hstep
    · next hquery =>
      cases hstep
      exact h.readsFirst hquery
    · cases hstep
  | resumeFirst =>
    simp only [MonitorViewModel.step] at hstep
    split at hstep
    · next hquery =>
      cases hstep
      exact h.resumesFirst hsize hquery
    · cases hstep
  | readNext =>
    simp only [MonitorViewModel.step] at hstep
    split at hstep
    · next hquery =>
      cases hstep
      exact h.readsNext hquery
    · cases hstep
  | resumeNext =>
    simp only [MonitorViewModel.step] at hstep
    split at hstep
    · next hquery =>
      cases hstep
      exact h.resumesNext hsize hquery
    · cases hstep

theorem paged_initial (capacity : Nat) (positive : 0 < capacity) (now : Int64) :
    Paged tables pageSize (initial capacity positive now) where
  stored := ⟨Writer.consistent_initial, fun e he => absurd he List.not_mem_nil⟩
  quiet := fun _ => List.not_mem_nil
  first := fun f hf => by cases hf
  next := rfl

end

/-- **The pages of a search belong to the filter while nothing changes under them.** In every orderly run, with events
whose ids increase, in every state in which no query is in flight and a filter is set: the list is, in decreasing
order, a beginning of what the filter finds among the events that were stored when its first page was read and have
not been cleared; and the cursor goes on after its last element. -/
theorem pages_belong_to_filter {tables : CharTables} {pageSize : Nat} (hsize : 1 ≤ pageSize) {capacity : Nat}
    {positive : 0 < capacity} {now : Int64} {actions : List Action} {s : MonitorViewModel}
    (h : run (MonitorViewModel.step tables pageSize) (initial capacity positive now) actions = .ok s)
    (horderly : StepsMeet (MonitorViewModel.step tables pageSize) (Orderly tables) (initial capacity positive now) actions)
    (hids : IncreasingIds s.repository.coldStore.put) (hsettled : s.Settled)
    (hset : s.repository.currentFilter.isEmpty tables = false) :
    s.pagedEvents.Pairwise (fun a b => b.id < a.id) ∧
      ReadSoFar BinderEvent.id
        (((found tables s.basis s.repository.currentFilter).filter (· ∈ recent s.repository.coldStore.put)).map
          BinderEvent.archived) s.pagedEvents s.pageCursor ∧
      s.pageEndReached = s.pageCursor.isNone := by
  have hs : Paged tables pageSize s := by
    refine run_along (P := fun _ s => IncreasingIds s.repository.coldStore.put → Paged tables pageSize s)
      (fun _ => paged_initial capacity positive now) ?_ h hids
    intro done a m t hpre hm ih hstep hids
    have hids := hids.of_prefix (put_extends hstep)
    exact (ih hids).step hsize (horderly done a hpre m hm) hids hstep
  obtain ⟨hfirst, -, hcollected⟩ := hsettled
  obtain ⟨hread, hended, hbasis⟩ := hs.shows ⟨rfl, hcollected, hset, eq_none_of_isNone hfirst⟩
  have hkept : (found tables s.basis s.repository.currentFilter).filter (· ∈ recent s.repository.coldStore.put) =
      found tables s.basis s.repository.currentFilter := by
    refine List.filter_eq_self.2 fun e he => decide_eq_true ?_
    exact hs.stored.recent_put (hs.quiet (.inl hset)) e (hbasis.subset (List.mem_filter.1 he).1)
  refine ⟨?_, by rw [hkept]; exact hread, hended⟩
  obtain ⟨rest, hrows, -⟩ := hread
  have hsorted := matching_sorted tables s.basis s.repository.currentFilter
  rw [hrows] at hsorted
  exact (List.pairwise_append.1 hsorted).1

/-- `DEFAULT_PAGE_SIZE`. -/
abbrev defaultPageSize : Nat := 100

/-- Events with the ids from 0 on are added and stored in one batch. -/
def stores (count : Nat) : List Action :=
  (List.range count).map (fun i => Action.repository (.addEvent (Writer.plainEvent (Int64.ofNat i)) 0)) ++
    Action.repository (.writer (.take none)) ::
    List.replicate (count - 1) (Action.repository (.writer .more)) ++ [Action.repository (.writer (.write none))]

/-- A filter that every plain event passes, and one that none passes. -/
def unresolved : EventFilter := { bucketsAllowed := {.unknown} }

def hidlOnly : EventFilter := { bucketsAllowed := {.hidl} }

/-- A filter is set, and the first page is read. -/
def searches (filter : EventFilter) : List Action := [.setFilter filter, .collect, .readFirst, .resumeFirst]

/-- A search of two events with pages of one, while a third event is stored. -/
def twoPages : List Action :=
  stores 2 ++ searches unresolved ++
    [.loadMore, .repository (.addEvent (Writer.plainEvent 2) 5), .repository (.writer (.take none)),
      .repository (.writer (.write none)), .readNext, .resumeNext]

theorem pages_belong_to_filter_twoPages :
    ∃ s, run (MonitorViewModel.step asciiTables 1) (initial 2 Nat.two_pos 0) twoPages = .ok s ∧ s.Settled ∧
      s.pagedEvents.map BinderEvent.id = [1, 0] ∧
      ReadSoFar BinderEvent.id
        (((found asciiTables s.basis s.repository.currentFilter).filter
          (· ∈ recent s.repository.coldStore.put)).map BinderEvent.archived) s.pagedEvents s.pageCursor := by
  obtain ⟨s, h, hids, hsettled, hset, hlist⟩ : ∃ s,
      run (MonitorViewModel.step asciiTables 1) (initial 2 Nat.two_pos 0) twoPages = .ok s ∧
        IncreasingIds s.repository.coldStore.put ∧ s.Settled ∧
        s.repository.currentFilter.isEmpty asciiTables = false ∧ s.pagedEvents.map BinderEvent.id = [1, 0] :=
    exists_of_endsIn (by decide +kernel)
  have horderly : StepsMeet (MonitorViewModel.step asciiTables 1) (Orderly asciiTables) (initial 2 Nat.two_pos 0)
      twoPages := stepsMeet_of_eval (by decide +kernel)
  exact ⟨s, h, hsettled, hlist, (pages_belong_to_filter Nat.le.refl h horderly hids hsettled hset).2.1⟩

/-- The events are cleared while a filter is set. -/
def clearedUnderFilter : List Action :=
  stores 1 ++ searches unresolved ++ [.repository (.clearEvents 5), .repository (.writer (.take none))]

/-- A page is loaded while the filter changes. -/
def loadedUnderChange : List Action :=
  stores 101 ++ searches unresolved ++ [.loadMore, .readNext] ++ searches hidlOnly ++ [.resumeNext]

/-- **The list shows events that have been cleared, or that do not match the filter.** -/
theorem pages_stale :
    (∃ s, run (MonitorViewModel.step asciiTables defaultPageSize) (initial 2 Nat.two_pos 0) clearedUnderFilter = .ok s ∧
      s.Settled ∧ s.repository.currentFilter = unresolved ∧ s.table.events = [] ∧
      recent s.repository.coldStore.put = [] ∧ s.pagedEvents.map BinderEvent.id = [0]) ∧
    ∃ s, run (MonitorViewModel.step asciiTables defaultPageSize) (initial 2 Nat.two_pos 0) loadedUnderChange = .ok s ∧
      s.Settled ∧ s.repository.currentFilter = hidlOnly ∧ found asciiTables s.table hidlOnly = [] ∧
      s.pagedEvents.map BinderEvent.id = [0] :=
  ⟨exists_of_endsIn (by decide +kernel), exists_of_endsIn (by decide +kernel)⟩

end MonitorViewModel

end BinderTracer.App
