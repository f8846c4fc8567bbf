import BinderTracer.App.EventRepository

/-!
# The buffer and its evictions

`BoundedEventBuffer` with the listener `onEvicted`. Events leave the buffer at the old end: to make room for a new
one, when the capacity is set to less, by `trimToSize`, and all of them by `clear`. A listener is told of each, so
that what it was told so far and what is in the buffer are together the events that were added, in their order.

The repository uses the buffer without a listener (`EventRepository`); its buffer is this one without the listener
(`buffer_add`, `buffer_clear`).
-/

namespace BinderTracer.App

open BinderTracer.Lib

/-- The buffer, whether `onEvicted` is set, and what it was called with so far. -/
structure ObservedBuffer where
  buffer : BoundedEventBuffer
  listening : Bool
  evicted : List BinderEvent := []

namespace ObservedBuffer

/-- `onEvicted?.invoke` for one event after another. -/
def notify (b : ObservedBuffer) (events : List BinderEvent) : ObservedBuffer :=
  if b.listening then { b with evicted := b.evicted ++ events } else b

/-- The loop that `add`, `setCapacity` and `trimToSize` run: what it removed, and what is left. -/
def removeWhile (tooMany : Nat → Bool) (b : ObservedBuffer) : List BinderEvent × ObservedBuffer :=
  let (removed, deque, index) := trimFront BinderEvent.id tooMany b.buffer.deque b.buffer.index
  (removed, { b with buffer := { b.buffer with deque, index } }.notify removed)

def add (b : ObservedBuffer) (event : BinderEvent) : ObservedBuffer :=
  let b := (b.removeWhile fun size => b.buffer.capacity ≤ size).2
  { b with
    buffer := { b.buffer with
      deque := b.buffer.deque ++ [event]
      index := b.buffer.index.insert event.id event } }

/-- `setCapacity`, with the message of the exception if the capacity is not positive. -/
def setCapacity (b : ObservedBuffer) (newCapacity : Int32) : Except String ObservedBuffer :=
  if h : 0 < newCapacity.toInt then
    let b := { b with buffer := { b.buffer with capacity := newCapacity.toInt.toNat, positive := by omega } }
    .ok (b.removeWhile fun size => b.buffer.capacity < size).2
  else .error ("capacity must be > 0, got " ++ toString newCapacity)

def trimToSize (b : ObservedBuffer) (target : Int32) : List BinderEvent × ObservedBuffer :=
  b.removeWhile fun size => target.toInt < size

def clear (b : ObservedBuffer) : ObservedBuffer :=
  { b.notify b.buffer.deque with buffer := b.buffer.clear }

/-! ### The buffer of the repository -/

theorem buffer_notify (b : ObservedBuffer) (events : List BinderEvent) : (b.notify events).buffer = b.buffer := by
  unfold notify
  split <;> rfl

theorem buffer_clear (b : ObservedBuffer) : b.clear.buffer = b.buffer.clear := rfl

/-! ### Operations -/

inductive Operation where
  | add (event : BinderEvent)
  | setCapacity (newCapacity : Int32)
  | trimToSize (target : Int32)
  | clear

def step (b : ObservedBuffer) : Operation → Except String ObservedBuffer
  | .add event => .ok (b.add event)
  | .setCapacity newCapacity => b.setCapacity newCapacity
  | .trimToSize target => .ok (b.trimToSize target).2
  | .clear => .ok b.clear

/-- The events that are added. -/
def added (ops : List Operation) : List BinderEvent :=
  ops.filterMap fun
    | .add event => some event
    | _ => none

/-- The capacity that an operation leaves. -/
def Operation.capacityAfter (capacity : Nat) : Operation → Nat
  | .setCapacity newCapacity => newCapacity.toInt.toNat
  | _ => capacity

/-- The capacity that was set last, or the one that the buffer was made with. -/
def lastCapacity (capacity : Nat) (ops : List Operation) : Nat := ops.foldl Operation.capacityAfter capacity

/-- An empty buffer with a listener. -/
def initial (capacity : Nat) (positive : 0 < capacity) : ObservedBuffer :=
  { buffer := { capacity, positive }, listening := true }

/-- What was evicted and what is in the buffer are the events that were added, and the index goes with the buffer. -/
structure Conserves (b : ObservedBuffer) (events : List BinderEvent) : Prop where
  listening : b.listening = true
  conserved : b.evicted ++ b.buffer.deque = events
  indexed : Indexes BinderEvent.id b.buffer.index b.buffer.deque

/-- The buffer has this capacity, and does not exceed it. -/
def Bounded (b : ObservedBuffer) (capacity : Nat) : Prop :=
  b.buffer.capacity = capacity ∧ b.buffer.deque.length ≤ capacity

namespace Conserves

variable {b : ObservedBuffer} {events : List BinderEvent}

theorem start (capacity : Nat) (positive : 0 < capacity) : (initial capacity positive).Conserves [] where
  listening := rfl
  conserved := rfl
  indexed := indexes_empty _

/-- The ids in the buffer are distinct if those of all the events are. -/
theorem distinct (h : b.Conserves events) (hids : events.Pairwise fun x y => x.id ≠ y.id) :
    b.buffer.deque.Pairwise fun x y => x.id ≠ y.id := by
  rw [← h.conserved] at hids
  exact (List.pairwise_append.1 hids).2.1

/-- Removing events conserves them, whatever the condition: the listener is told of them. -/
theorem removeWhile (h : b.Conserves events) (hids : events.Pairwise fun x y => x.id ≠ y.id) (tooMany : Nat → Bool) :
    (b.removeWhile tooMany).2.Conserves events := by
  have happend := trimFront_append BinderEvent.id tooMany b.buffer.deque b.buffer.index
  have hindexed : Indexes BinderEvent.id (trimFront BinderEvent.id tooMany b.buffer.deque b.buffer.index).2.2 _ :=
    h.indexed.trimFront (h.distinct hids)
  unfold ObservedBuffer.removeWhile
  simp only [notify, h.listening, if_true]
  refine ⟨rfl, ?_, hindexed⟩
  rw [List.append_assoc, happend]
  exact h.conserved

end Conserves

/-- The capacity stays, nothing is put into the buffer, and what is left of it is not too much. -/
theorem removeWhile_length (tooMany : Nat → Bool) (b : ObservedBuffer) :
    (b.removeWhile tooMany).2.buffer.capacity = b.buffer.capacity ∧
      (b.removeWhile tooMany).2.buffer.deque.length ≤ b.buffer.deque.length ∧
      ((b.removeWhile tooMany).2.buffer.deque = [] ∨
        tooMany (b.removeWhile tooMany).2.buffer.deque.length = false) := by
  unfold removeWhile
  simp only [buffer_notify]
  refine ⟨trivial, ?_, trimFront_length BinderEvent.id tooMany b.buffer.deque b.buffer.index⟩
  have happend := congrArg List.length (trimFront_append BinderEvent.id tooMany b.buffer.deque b.buffer.index)
  rw [List.length_append] at happend
  exact (Nat.le_add_left _ _).trans_eq happend

section
variable {b : ObservedBuffer} {events : List BinderEvent}

/-- A new event comes last, after room has been made for it. -/
theorem Conserves.add (h : b.Conserves events) {event : BinderEvent}
    (hids : (events ++ [event]).Pairwise fun x y => x.id ≠ y.id) : (b.add event).Conserves (events ++ [event]) := by
  obtain ⟨hevents, -, hnew⟩ := List.pairwise_append.1 hids
  obtain ⟨hlistening, hconserved, hindexed⟩ := h.removeWhile hevents fun size => b.buffer.capacity ≤ size
  refine ⟨hlistening, ?_, hindexed.snoc fun y hy => ?_⟩
  · rw [← hconserved, List.append_assoc]
    rfl
  · refine hnew y ?_ event List.mem_cons_self
    rw [← hconserved]
    exact List.mem_append_right _ hy

theorem bounded_add {capacity : Nat} (h : b.Bounded capacity) (event : BinderEvent) :
    (b.add event).Bounded capacity := by
  obtain ⟨hcapacity, -, hroom⟩ := removeWhile_length (fun size => b.buffer.capacity ≤ size) b
  have hpositive := b.buffer.positive
  refine ⟨hcapacity.trans h.1, ?_⟩
  unfold add
  rw [List.length_append, List.length_singleton, ← h.1]
  rcases hroom with hempty | hfew
  · rw [hempty]
    exact hpositive
  · exact Nat.not_le.1 (of_decide_eq_false hfew)

/-- A positive capacity is set, and the events that exceed it are removed. -/
theorem Conserves.setCapacity (h : b.Conserves events) (hids : events.Pairwise fun x y => x.id ≠ y.id)
    {newCapacity : Int32} (hpositive : 0 < newCapacity) :
    ∃ b', b.setCapacity newCapacity = .ok b' ∧ b'.Conserves events ∧ b'.Bounded newCapacity.toInt.toNat := by
  have hint : 0 < newCapacity.toInt := Int32.lt_iff_toInt_lt.1 hpositive
  unfold ObservedBuffer.setCapacity
  rw [dif_pos hint]
  obtain ⟨hcapacity, -, hfew⟩ := removeWhile_length (fun size => newCapacity.toInt.toNat < size)
    { b with buffer := { b.buffer with capacity := newCapacity.toInt.toNat, positive := by omega } }
  refine ⟨_, rfl, ?_, hcapacity, ?_⟩
  · apply removeWhile _ hids
    exact ⟨h.listening, h.conserved, h.indexed⟩
  · rcases hfew with hempty | hfew
    · rw [hempty]
      exact Nat.zero_le _
    · exact Nat.not_lt.1 (of_decide_eq_false hfew)

theorem Bounded.trimToSize {capacity : Nat} (h : b.Bounded capacity) (target : Int32) :
    (b.trimToSize target).2.Bounded capacity := by
  obtain ⟨hcapacity, hlength, -⟩ := removeWhile_length (fun size => target.toInt < size) b
  exact ⟨hcapacity.trans h.1, hlength.trans h.2⟩

theorem Bounded.clear {capacity : Nat} (h : b.Bounded capacity) : b.clear.Bounded capacity := ⟨h.1, Nat.zero_le _⟩

theorem Conserves.clear (h : b.Conserves events) : b.clear.Conserves events := by
  unfold ObservedBuffer.clear notify
  rw [h.listening, if_pos rfl]
  refine ⟨rfl, ?_, indexes_empty _⟩
  rw [← h.conserved]
  exact List.append_nil _

/-! ### Runs -/

theorem added_snoc (ops : List Operation) (op : Operation) : added (ops ++ [op]) = added ops ++ added [op] :=
  List.filterMap_append

/-- One operation conserves what was added before and with it. -/
theorem Conserves.step (h : b.Conserves events) {capacity : Nat} (hbounded : b.Bounded capacity) {op : Operation}
    (hids : (events ++ added [op]).Pairwise fun x y => x.id ≠ y.id)
    (hpositive : ∀ newCapacity, op = .setCapacity newCapacity → 0 < newCapacity) :
    ∃ b', b.step op = .ok b' ∧ b'.Conserves (events ++ added [op]) ∧ b'.Bounded (op.capacityAfter capacity) := by
  cases op with
  | add event => exact ⟨_, rfl, h.add hids, bounded_add hbounded event⟩
  | setCapacity newCapacity =>
    rw [show added [.setCapacity newCapacity] = [] from rfl, List.append_nil] at hids ⊢
    exact h.setCapacity hids (hpositive newCapacity rfl)
  | trimToSize target =>
    rw [show added [.trimToSize target] = [] from rfl, List.append_nil] at hids ⊢
    exact ⟨_, rfl, h.removeWhile hids _, hbounded.trimToSize target⟩
  | clear =>
    rw [show added [.clear] = [] from rfl, List.append_nil]
    exact ⟨_, rfl, h.clear, hbounded.clear⟩

theorem conserves_run (capacity : Nat) (positive : 0 < capacity) (ops : List Operation)
    (hids : (added ops).Pairwise fun x y => x.id ≠ y.id)
    (hpositive : ∀ newCapacity, .setCapacity newCapacity ∈ ops → 0 < newCapacity) :
    ∃ b, run step (initial capacity positive) ops = .ok b ∧ b.Conserves (added ops) ∧
      b.Bounded (lastCapacity capacity ops) := by
  induction ops using List.reverseRecOn with
  | nil => exact ⟨_, rfl, .start capacity positive, rfl, Nat.zero_le _⟩
  | append_singleton ops op ih =>
    rw [added_snoc] at hids ⊢
    obtain ⟨b, hrun, h, hbounded⟩ := ih (List.pairwise_append.1 hids).1
      fun newCapacity hmem => hpositive newCapacity (List.mem_append_left _ hmem)
    obtain ⟨b', hstep, h'⟩ := h.step hbounded hids
      fun newCapacity hop => hpositive newCapacity (hop ▸ List.mem_append_right _ List.mem_cons_self)
    rw [lastCapacity, List.foldl_append]
    refine ⟨b', ?_, h'⟩
    rw [run_snoc, hrun]
    exact hstep

end

/-- **The buffer conserves events** over all operations: what was evicted and what is in it are the events that were
added, in order, the index has exactly those in it, and it does not exceed the capacity that was set last. -/
theorem events_conserved (capacity : Nat) (positive : 0 < capacity) (ops : List Operation)
    (hids : (added ops).Pairwise fun x y => x.id ≠ y.id)
    (hpositive : ∀ newCapacity, .setCapacity newCapacity ∈ ops → 0 < newCapacity) :
    ∃ b, run step (initial capacity positive) ops = .ok b ∧
      b.evicted ++ b.buffer.snapshot = added ops ∧
      (∀ id event, b.buffer.findById id = some event ↔ event ∈ b.buffer.snapshot ∧ event.id = id) ∧
      b.buffer.capacity = lastCapacity capacity ops ∧ b.buffer.deque.length ≤ lastCapacity capacity ops := by
  obtain ⟨b, hrun, h, hbounded⟩ := conserves_run capacity positive ops hids hpositive
  refine ⟨b, hrun, h.conserved, fun id event => ?_, hbounded⟩
  exact h.indexed.lookup_eq_some (h.distinct hids)

/-- Every operation once, with three events. -/
def everyOperation : List Operation :=
  [.add (Writer.plainEvent 0), .add (Writer.plainEvent 1), .setCapacity 1, .trimToSize 0, .add (Writer.plainEvent 2),
    .clear]

theorem events_conserved_everyOperation :
    ∃ b, run step (initial 2 Nat.two_pos) everyOperation = .ok b ∧
      b.evicted ++ b.buffer.snapshot = [Writer.plainEvent 0, Writer.plainEvent 1, Writer.plainEvent 2] ∧
      (∀ id event, b.buffer.findById id = some event ↔ event ∈ b.buffer.snapshot ∧ event.id = id) ∧
      b.buffer.capacity = 1 ∧ b.buffer.deque.length ≤ 1 := by
  refine events_conserved 2 Nat.two_pos everyOperation (by decide) ?_
  intro newCapacity hmem
  have hone : newCapacity = 1 := by simpa [everyOperation] using hmem
  rw [hone]
  decide

end ObservedBuffer

end BinderTracer.App
