import BinderTracer.App.EventFilter
import BinderTracer.Lib.Paging

/-!
# The store of events

`ColdEventStore`: every event is a row of a table whose key is its id, and a search is a query of one page.
`LIKE` has no escape character where the query declares none, and folds the case of ASCII letters only. A
clause holds where SQLite finds it true; on a column that is null, it does not. The names of enumerations
stand for themselves in a row, and the text of the payload for the values that it holds.
-/

namespace BinderTracer.App

open BinderTracer.Lib

/-! ### Rows -/

/-- What `EventPayloadJson` keeps. -/
structure EventPayload where
  stack : Option StackTrace
  cands : List String

structure Row where
  seq : Int64
  pairId : Int64
  ts : Int64
  pid : Int32
  uid : Int32
  code : Int32
  flags : Int32
  isReply : Int64
  toPid : Int32
  toUid : Int32
  targetRef : Int64
  binderDev : BinderDev
  targetKind : TargetKind
  iface : String
  method : String
  decodeSource : Option DecodeSource
  stackModules : Option String
  rawParcel : List UInt8
  payloadJson : EventPayload

namespace ColdEventCodec

/-- `stackModules`: the modules of the frames, once each, in lines. -/
def stackModules (stackTrace : Option StackTrace) : Option String :=
  match stackTrace with
  | none => none
  | some st =>
    let mods := (((st.uFrames ++ st.kFrames).map (·.module)).filter (· ≠ "")).eraseDups
    if mods.isEmpty then none else some ("\n".intercalate mods)

def toRow (e : BinderEvent) : Row where
  seq := e.id
  pairId := e.pairId
  ts := e.timestamp
  pid := e.pid
  uid := e.uid
  code := e.code
  flags := e.flags
  isReply := if e.isReply then 1 else 0
  toPid := e.toPid
  toUid := e.toUid
  targetRef := e.targetRef
  binderDev := e.binderDev
  targetKind := e.targetKind
  iface := e.interfaceName
  method := e.methodName
  decodeSource := e.decodeSource
  stackModules := stackModules e.stackTrace
  rawParcel := e.rawParcel
  payloadJson := { stack := e.stackTrace, cands := e.resolveCandidates }

def fromRow (r : Row) : BinderEvent where
  id := r.seq
  timestamp := r.ts
  pid := r.pid
  uid := r.uid
  code := r.code
  flags := r.flags
  rawParcel := r.rawParcel
  isReply := r.isReply = 1
  binderDev := r.binderDev
  targetKind := r.targetKind
  toPid := r.toPid
  toUid := r.toUid
  targetRef := r.targetRef
  pairId := r.pairId
  stackTrace := r.payloadJson.stack
  interfaceName? := some r.iface
  methodName? := some r.method
  resolveCandidates := r.payloadJson.cands
  decodeSource := r.decodeSource

end ColdEventCodec

open ColdEventCodec

/-- An event as it is read back from its row. -/
def BinderEvent.archived (e : BinderEvent) : BinderEvent := fromRow (toRow e)

/-- Reading an event back gives the event, with the names that it shows. -/
theorem BinderEvent.archived_eq (e : BinderEvent) :
    e.archived = { e with interfaceName? := some e.interfaceName, methodName? := some e.methodName } := by
  simp only [archived, toRow, fromRow]
  congr 1
  by_cases h : e.isReply = true <;> simp [h]

/-! ### Clauses -/

namespace ColdEventStore

/-- The comparison of characters in `LIKE`. -/
def sameAscii (c d : Char) : Bool := c.toLower = d.toLower

inductive Clause where
  /-- `(is_reply = 0 OR pair_id = 0)` -/
  | notMatchedReply
  | ifaceLike (pattern : String)
  | methodLike (pattern : String)
  | stackModulesLike (pattern : String)
  /-- `(decode_source IN (…) OR decode_source IS NULL)`, or without the second part -/
  | decodeSourceIn (sources : List DecodeSource) (orNull : Bool)
  | decodeSourceIsNull
  /-- `0` -/
  | never
  | seqBelow (cursor : Int64)
deriving DecidableEq, Repr

def Clause.holds (r : Row) : Clause → Bool
  | notMatchedReply => r.isReply = 0 || r.pairId = 0
  | ifaceLike pattern => like sameAscii pattern.toList r.iface.toList
  | methodLike pattern => like sameAscii pattern.toList r.method.toList
  | stackModulesLike pattern => r.stackModules.any fun modules => like sameAscii pattern.toList modules.toList
  | decodeSourceIn sources orNull =>
    match r.decodeSource with
    | none => orNull
    | some source => decide (source ∈ sources)
  | decodeSourceIsNull => r.decodeSource.isNone
  | never => false
  | seqBelow cursor => r.seq < cursor

/-- `s.replace(c, text)` for a text `c` of one character. -/
def replace (s : String) (c : Char) (text : String) : String :=
  String.ofList (s.toList.flatMap fun d => if d = c then text.toList else [d])

def escapeLike (s : String) : String :=
  replace (replace (replace s '\\' "\\\\") '%' "\\%") '_' "\\_"

/-- `DecodeSource.values()`. -/
def decodeSources : List DecodeSource :=
  [.reply, .specialCode, .aidlQ, .aidlP, .aidlO, .hidlDescriptor, .rawAscii, .targetRef]

def bucketClause (buckets : Finset CoverageBucket) : Option Clause :=
  if EventFilter.allowsEveryBucket buckets then none
  else
    let sources := decodeSources.filter fun source => CoverageBucket.of source ∈ buckets
    let orNull := decide (.unknown ∈ buckets)
    if sources.isEmpty then some (if orNull then .decodeSourceIsNull else .never)
    else some (.decodeSourceIn sources orNull)

/-- The clause for a text, if it takes part. -/
def likeClause (tables : CharTables) (column : String → Clause) (text : String) : List Clause :=
  if tables.isBlank text then [] else [column ("%" ++ escapeLike text ++ "%")]

/-- The clauses of a search. -/
def filterClauses (tables : CharTables) (filter : EventFilter) : List Clause :=
  .notMatchedReply ::
    (likeClause tables .ifaceLike filter.interfaceContains ++
      likeClause tables .methodLike filter.methodContains ++
      likeClause tables .stackModulesLike filter.stackModuleContains ++
      (bucketClause filter.bucketsAllowed).toList)

/-- The test of a row by a pattern. -/
def likeMatch (tables : CharTables) (text s : String) : Bool :=
  tables.isBlank text || like sameAscii (anywhere (escapeLike text).toList) s.toList

/-- The test of the column of modules by a pattern. -/
def stackModulesLikeMatch (tables : CharTables) (text : String) (stackTrace : Option StackTrace) : Bool :=
  tables.isBlank text ||
    (stackModules stackTrace).any fun modules => like sameAscii (anywhere (escapeLike text).toList) modules.toList

theorem toList_pattern (text : String) : ("%" ++ text ++ "%").toList = anywhere text.toList := by
  simp [anywhere]

theorem likeClause_all {tables : CharTables} {column : String → Clause} {text : String} {r : Row} :
    (likeClause tables column text).all (Clause.holds r) =
      (tables.isBlank text || (column ("%" ++ escapeLike text ++ "%")).holds r) := by
  rw [likeClause]
  cases tables.isBlank text <;> simp

/-- The clause of the buckets is the filter's test of them. -/
theorem bucketClause_all (filter : EventFilter) (e : BinderEvent) :
    (bucketClause filter.bucketsAllowed).toList.all (Clause.holds (toRow e)) = filter.bucketMatch e := by
  rw [bucketClause, EventFilter.bucketMatch]
  cases hall : EventFilter.allowsEveryBucket filter.bucketsAllowed with
  | true => rfl
  | false =>
    have hmem (source : DecodeSource) : source ∈ decodeSources := by cases source <;> decide
    simp only [Bool.false_eq_true, if_false, Bool.false_or]
    generalize hsources : decodeSources.filter (fun source => CoverageBucket.of source ∈ filter.bucketsAllowed) =
      sources
    have hiff (source : DecodeSource) : source ∈ sources ↔ CoverageBucket.of source ∈ filter.bucketsAllowed := by
      rw [← hsources, List.mem_filter, decide_eq_true_iff]
      exact and_iff_right (hmem source)
    cases sources with
    | nil =>
      -- no source is allowed, and so at most the events without one are
      cases hsource : e.decodeSource with
      | none =>
        by_cases hunknown : CoverageBucket.unknown ∈ filter.bucketsAllowed <;>
          simp [EventFilter.bucketOf, Clause.holds, toRow, hsource, hunknown]
      | some source =>
        have hno : CoverageBucket.of source ∉ filter.bucketsAllowed := fun h => List.not_mem_nil ((hiff source).2 h)
        by_cases hunknown : CoverageBucket.unknown ∈ filter.bucketsAllowed <;>
          simp [EventFilter.bucketOf, Clause.holds, toRow, hsource, hno, hunknown]
    | cons first rest =>
      cases hsource : e.decodeSource with
      | none => simp [EventFilter.bucketOf, Clause.holds, toRow, hsource]
      | some source =>
        simp only [List.isEmpty_cons, Bool.false_eq_true, if_false, Option.toList_some, List.all_cons, List.all_nil,
          Bool.and_true, Clause.holds, toRow, hsource, EventFilter.bucketOf, Option.map_some, Option.getD_some,
          decide_eq_decide]
        exact hiff source

/-- What the clauses of a search test on an event. -/
theorem filterClauses_all (tables : CharTables) (filter : EventFilter) (e : BinderEvent) :
    (filterClauses tables filter).all (Clause.holds (toRow e)) =
      (e.visible &&
        (likeMatch tables filter.interfaceContains e.interfaceName &&
          likeMatch tables filter.methodContains e.methodName &&
          filter.bucketMatch e &&
          stackModulesLikeMatch tables filter.stackModuleContains e.stackTrace)) := by
  have hvisible : Clause.notMatchedReply.holds (toRow e) = e.visible := by
    rw [BinderEvent.visible]
    cases h : e.isReply <;> simp [Clause.holds, toRow, h]
  rw [filterClauses, List.all_cons, hvisible, List.all_append, List.all_append, List.all_append, likeClause_all,
    likeClause_all, likeClause_all, bucketClause_all]
  simp only [Clause.holds, toList_pattern, toRow, likeMatch, stackModulesLikeMatch]
  congr 1
  rw [Bool.and_assoc, Bool.and_assoc, Bool.and_assoc, Bool.and_assoc]
  congr 2
  exact Bool.and_comm _ _

end ColdEventStore

/-! ### The table -/

/-- The events of the table, in the order in which a query gives them. -/
structure EventStore where
  events : List BinderEvent
  newestFirst : events.Pairwise fun a b => b.id < a.id

namespace EventStore

def empty : EventStore where
  events := []
  newestFirst := List.Pairwise.nil

/-- `insertWithOnConflict` with `CONFLICT_REPLACE`. -/
def insert (store : EventStore) (e : BinderEvent) : EventStore where
  events := store.events.filter (fun x => e.id < x.id) ++ e :: store.events.filter (fun x => x.id < e.id)
  newestFirst := by
    refine List.pairwise_append.2 ⟨store.newestFirst.filter _, ?_, ?_⟩
    · refine List.pairwise_cons.2 ⟨fun x hx => ?_, store.newestFirst.filter _⟩
      exact of_decide_eq_true (List.mem_filter.1 hx).2
    · intro x hx y hy
      have hx : e.id < x.id := of_decide_eq_true (List.mem_filter.1 hx).2
      rcases List.mem_cons.1 hy with rfl | hy
      · exact hx
      · have hy : y.id < e.id := of_decide_eq_true (List.mem_filter.1 hy).2
        exact Int64.lt_trans hy hx

/-- `writeBatch`, when its transaction succeeds. -/
def writeBatch (store : EventStore) (events : List BinderEvent) : EventStore := events.foldl insert store

theorem mem_insert {store : EventStore} {e x : BinderEvent} :
    x ∈ (store.insert e).events ↔ x = e ∨ x ∈ store.events ∧ x.id ≠ e.id := by
  have hne : x.id ≠ e.id ↔ e.id < x.id ∨ x.id < e.id := by
    rw [Int64.lt_iff_toInt_lt, Int64.lt_iff_toInt_lt, Ne, ← Int64.toInt_inj]
    omega
  simp only [insert, List.mem_append, List.mem_cons, List.mem_filter, decide_eq_true_eq, hne]
  tauto

/-- What is in the table after a batch of events with different ids. -/
theorem mem_writeBatch {store : EventStore} {events : List BinderEvent}
    (hids : events.Pairwise fun a b => a.id ≠ b.id) {x : BinderEvent} :
    x ∈ (store.writeBatch events).events ↔ x ∈ events ∨ x ∈ store.events ∧ ∀ e ∈ events, x.id ≠ e.id := by
  induction events generalizing store with
  | nil => simp [writeBatch]
  | cons e events ih =>
    obtain ⟨hfirst, hrest⟩ := List.pairwise_cons.1 hids
    have hstep : store.writeBatch (e :: events) = (store.insert e).writeBatch events := rfl
    rw [hstep, ih hrest, mem_insert]
    simp only [List.mem_cons, forall_eq_or_imp]
    constructor
    · rintro (hx | ⟨rfl | ⟨hx, hne⟩, hothers⟩)
      · exact .inl (.inr hx)
      · exact .inl (.inl rfl)
      · exact .inr ⟨hx, hne, hothers⟩
    · rintro ((rfl | hx) | ⟨hx, hne, hothers⟩)
      · exact .inr ⟨.inl rfl, hfirst⟩
      · exact .inl hx
      · exact .inr ⟨.inr ⟨hx, hne⟩, hothers⟩

end EventStore

/-! ### A search -/

namespace ColdEventStore

/-- `query`: `EventPage` is a page of events. -/
def query (tables : CharTables) (store : EventStore) (filter : EventFilter) (pageSize : Nat)
    (cursor : Option Int64) : Page BinderEvent Int64 :=
  let clauses := filterClauses tables filter ++ (cursor.map Clause.seqBelow).toList
  let rows := (((store.events.map toRow).filter fun r => clauses.all (Clause.holds r)).take pageSize).map fromRow
  { items := rows, nextCursor := if rows.length < pageSize then none else rows.getLast?.map (·.id) }

/-- The events that a search finds, newest first. -/
def found (tables : CharTables) (store : EventStore) (filter : EventFilter) : List BinderEvent :=
  store.events.filter fun e => (filterClauses tables filter).all (Clause.holds (toRow e))

theorem seqBelow_holds (cursor : Int64) (e : BinderEvent) :
    (Clause.seqBelow cursor).holds (toRow e) = decide (e.archived.id < cursor) := rfl

/-- A page of a search is a page of what it finds. -/
theorem query_eq (tables : CharTables) (store : EventStore) (filter : EventFilter) (pageSize : Nat)
    (cursor : Option Int64) :
    query tables store filter pageSize cursor =
      pageBelow BinderEvent.id pageSize ((found tables store filter).map BinderEvent.archived) cursor := by
  have hrows : ((store.events.map toRow).filter fun r =>
        (filterClauses tables filter ++ (cursor.map Clause.seqBelow).toList).all (Clause.holds r)).map fromRow =
      rowsBelow BinderEvent.id cursor ((found tables store filter).map BinderEvent.archived) := by
    have harchived : fromRow ∘ toRow = BinderEvent.archived := rfl
    rw [List.filter_map, List.map_map, harchived, found]
    cases cursor with
    | none => simp [rowsBelow, Function.comp_def]
    | some cursor =>
      rw [rowsBelow, List.filter_map, List.filter_filter]
      simp [Function.comp_def, List.all_append, seqBelow_holds, Bool.and_comm]
  rw [query, pageBelow]
  simp only [List.map_take, hrows]

/-- **Following the cursors of a search gives what it finds, newest first.** -/
theorem collects_query (tables : CharTables) (store : EventStore) (filter : EventFilter) {pageSize : Nat}
    (hsize : 1 ≤ pageSize) :
    Collects (query tables store filter pageSize) ((found tables store filter).map BinderEvent.archived) := by
  have hsorted : ((found tables store filter).map BinderEvent.archived).Pairwise fun a b => b.id < a.id := by
    rw [List.pairwise_map]
    exact store.newestFirst.filter _
  have hpages := collects_pageBelow hsize hsorted
  rw [← funext (query_eq tables store filter pageSize)] at hpages
  exact hpages

end ColdEventStore

end BinderTracer.App
