import BinderTracer.App.Export
import BinderTracer.Lib.SlidingWindow

/-!
# The repository of events

`EventRepository` over `BoundedEventBuffer`, `CoverageStats` and the store: every event is put on the queue of the
store and into the window in memory, and what the screen shows is written to flows. The sections under `lock` are
definitions of their own, since other threads run between them. Events come parsed; `now` is what
`System.currentTimeMillis` returns.
-/

namespace BinderTracer.App

open BinderTracer.Lib WriteRequest ColdEventCodec

/-! ### The window -/

/-- `BoundedEventBuffer`, without the listener for evictions, which nobody sets. -/
structure BoundedEventBuffer where
  capacity : Nat
  positive : 0 < capacity
  deque : List BinderEvent := []
  index : Table Int64 BinderEvent := ∅

namespace BoundedEventBuffer

def add (b : BoundedEventBuffer) (event : BinderEvent) : BoundedEventBuffer :=
  let room := makeRoom BinderEvent.id b.capacity b.deque b.index
  { b with deque := room.1 ++ [event], index := room.2.insert event.id event }

def snapshot (b : BoundedEventBuffer) : List BinderEvent := b.deque

def findById (b : BoundedEventBuffer) (id : Int64) : Option BinderEvent := b.index.lookup id

def findFirst (b : BoundedEventBuffer) (predicate : BinderEvent → Bool) : Option BinderEvent :=
  b.deque.find? predicate

def clear (b : BoundedEventBuffer) : BoundedEventBuffer := { b with deque := [], index := ∅ }

/-- The window slides. -/
theorem deque_add {b : BoundedEventBuffer} {events : List BinderEvent} (h : b.deque = events.rtake b.capacity)
    (event : BinderEvent) : (b.add event).deque = (events ++ [event]).rtake b.capacity := by
  obtain ⟨n, hn⟩ : ∃ n, b.capacity = n + 1 := Nat.exists_eq_succ_of_ne_zero (Nat.ne_of_gt b.positive)
  have hroom : (makeRoom BinderEvent.id b.capacity b.deque b.index).1 = events.rtake n := by
    rw [makeRoom_fst _ b.positive, h, hn, Nat.add_sub_cancel, rtake_rtake _ (Nat.le_succ n)]
  show (makeRoom BinderEvent.id b.capacity b.deque b.index).1 ++ [event] = _
  rw [hroom, hn, List.rtake_concat_succ]

/-- The index goes with the window, if the new event has a new id. -/
theorem indexes_add {b : BoundedEventBuffer} {event : BinderEvent} (h : Indexes BinderEvent.id b.index b.deque)
    (hids : (b.deque ++ [event]).Pairwise fun x y => x.id ≠ y.id) :
    Indexes BinderEvent.id (b.add event).index (b.add event).deque := by
  obtain ⟨hdeque, -, hnew⟩ := List.pairwise_append.1 hids
  refine (h.makeRoom hdeque).snoc fun y hy => hnew y ?_ event List.mem_cons_self
  rw [makeRoom_fst _ b.positive] at hy
  exact (rtake_sublist _ _).subset hy

end BoundedEventBuffer

/-! ### Coverage -/

/-- `CoverageSnapshot`, and the counters of `CoverageStats`. -/
structure CoverageSnapshot where
  total : Int64 := 0
  resolved : Int64 := 0
  buckets : CoverageBucket → Int64 := fun _ => 0

namespace CoverageSnapshot

def isResolved (e : BinderEvent) : Bool :=
  e.decodeSource.isSome && EventFilter.bucketOf e ≠ .unknown && e.interfaceName ≠ "Unknown"

def onEventAdded (c : CoverageSnapshot) (e : BinderEvent) : CoverageSnapshot where
  total := c.total + 1
  resolved := if isResolved e then c.resolved + 1 else c.resolved
  buckets := Function.update c.buckets (EventFilter.bucketOf e) (c.buckets (EventFilter.bucketOf e) + 1)

end CoverageSnapshot

/-! ### The point queries of the store -/

namespace EventStore

def getById (table : EventStore) (id : Int64) : Option BinderEvent := table.queryOne fun r => r.seq = id

def findPair (table : EventStore) (pairId : Int64) (wantReply : Bool) : Option BinderEvent :=
  table.queryOne fun r => r.pairId = pairId && r.isReply = if wantReply then 1 else 0

/-- A table that holds the events has them in the order of their ids. -/
theorem reverse_events {table : EventStore} {events : List BinderEvent} (h : table.events.Perm events)
    (hids : events.Pairwise fun a b => a.id < b.id) : table.events.reverse = events := by
  refine List.Perm.eq_of_pairwise (fun a b _ _ hab hba => ?_) table.ascending hids ((List.reverse_perm _).trans h)
  exact absurd (Int64.lt_trans hab hba) Int64.lt_irrefl

end EventStore

/-! ### The repository -/

/-- `offer` and `clear` of the store: `trySend` on a queue without a bound. -/
def Writer.offer (w : Writer) (r : WriteRequest) : Writer :=
  { w with queue := w.queue ++ [r], put := w.put ++ [r] }

structure EventRepository where
  coldStore : Writer := {}
  coverageStats : CoverageSnapshot := {}
  buffer : BoundedEventBuffer
  totalCount : Int32 := 0
  coverage : CoverageSnapshot := {}
  filteredEvents : List BinderEvent := []
  currentFilter : EventFilter := {}
  eventCount : Int32 := 0
  lastSecondCount : Int32 := 0
  lastSecondTime : Int64
  eventRate : Int32 := 0
  dirty : Bool := false

namespace EventRepository

/-- The repository with a window of the capacity. -/
def initial (capacity : Nat) (positive : 0 < capacity) (now : Int64) : EventRepository :=
  { buffer := { capacity, positive }, lastSecondTime := now }

/-- One more event in this second, or the first of the next one. -/
def countRate (s : EventRepository) (now : Int64) : EventRepository :=
  if now - s.lastSecondTime ≥ 1000 then
    { s with eventRate := s.lastSecondCount + 1, lastSecondCount := 0, lastSecondTime := now }
  else { s with lastSecondCount := s.lastSecondCount + 1 }

/-- The section of `addEvent` under the lock. -/
def addSection (s : EventRepository) (event : BinderEvent) (now : Int64) : EventRepository :=
  { s with
    coldStore := s.coldStore.offer (.append event)
    coverageStats := s.coverageStats.onEventAdded event
    buffer := s.buffer.add event
    totalCount := s.totalCount + 1
    eventCount := s.totalCount + 1 }.countRate now

/-- The section of `clearEvents` under the lock. -/
def clearSection (s : EventRepository) (now : Int64) : EventRepository :=
  { s with
    coldStore := s.coldStore.offer .clear
    buffer := s.buffer.clear
    coverageStats := {}
    totalCount := 0
    eventCount := 0
    eventRate := 0
    lastSecondCount := 0
    lastSecondTime := now }

def addEvent (s : EventRepository) (event : BinderEvent) (now : Int64) : EventRepository :=
  { s.addSection event now with dirty := true }

def clearEvents (s : EventRepository) (now : Int64) : EventRepository :=
  { s.clearSection now with filteredEvents := [], coverage := {}, dirty := false }

/-- The search in the window, and if it fails in the store. -/
def getEvent (s : EventRepository) (id : Int64) : Option BinderEvent :=
  (s.buffer.findById id).or (s.coldStore.table.getById id)

/-- What `findReplyForRequest` and `findRequestForReply` have in common. -/
def findPartner (s : EventRepository) (wantReply : Bool) (event : BinderEvent) : Option BinderEvent :=
  if event.isReply = wantReply then none
  else if event.pairId = 0 then none
  else
    (s.buffer.findFirst fun it => it.isReply = wantReply && it.pairId = event.pairId).or
      (s.coldStore.table.findPair event.pairId wantReply)

def findReplyForRequest (s : EventRepository) (request : BinderEvent) : Option BinderEvent :=
  s.findPartner true request

def findRequestForReply (s : EventRepository) (reply : BinderEvent) : Option BinderEvent :=
  s.findPartner false reply

section
variable (s : EventRepository) (now : Int64)

@[simp] theorem countRate_coldStore : (s.countRate now).coldStore = s.coldStore := by
  unfold countRate; split <;> rfl

@[simp] theorem countRate_buffer : (s.countRate now).buffer = s.buffer := by
  unfold countRate; split <;> rfl

@[simp] theorem countRate_currentFilter : (s.countRate now).currentFilter = s.currentFilter := by
  unfold countRate; split <;> rfl

@[simp] theorem countRate_filteredEvents : (s.countRate now).filteredEvents = s.filteredEvents := by
  unfold countRate; split <;> rfl

end

end EventRepository

end BinderTracer.App
