import BinderTracer.App.EventRepository

/-!
# The live list

`addEvent`, `clearEvents`, `setFilter` and the tick of `EventRepository` on several threads. Each section under the
lock, each operation on the flag `dirty` and each write to a flow is one step, and an operation that is under way is
a task with the step it has to take next. The first task is the coroutine of the tick, which emits itself before it
waits again; the others come and go.

An emission that has read the filter and the window may publish them long after, and a clear resets the flag some
time after it has emptied the window. The list converges if emissions do not overlap, no clear empties the window
while an emission has it in hand, and no event is added during a clear (`Orderly`).
-/

namespace BinderTracer.App.LiveList

open BinderTracer.Lib

/-! ### Steps -/

/-- What an operation has to do next. -/
inductive Task where
  /-- `addEvent` has left the lock. -/
  | setDirty
  /-- `clearEvents` has left the lock. -/
  | clearList
  | clearCoverage
  | resetDirty
  /-- `emitSnapshot` is to begin. -/
  | emit
  | snapshot (filter : EventFilter)
  | publish (filter : EventFilter) (all : List BinderEvent)
  | publishCoverage
  | done
deriving DecidableEq

structure State where
  repository : EventRepository
  tasks : List Task

inductive Action where
  | addEvent (event : BinderEvent) (now : Int64)
  | clearEvents (now : Int64)
  | setFilter (filter : EventFilter)
  /-- The delay of the tick is over. -/
  | tick
  /-- The task at `i` goes on. -/
  | advance (i : Nat)

section
variable (tables : CharTables)

/-- The next step of a task, and what it has to do after that. -/
def perform (r : EventRepository) : Task → EventRepository × Task
  | .setDirty => ({ r with dirty := true }, .done)
  | .clearList => ({ r with filteredEvents := [] }, .clearCoverage)
  | .clearCoverage => ({ r with coverage := {} }, .resetDirty)
  | .resetDirty => ({ r with dirty := false }, .done)
  | .emit => (r, .snapshot r.currentFilter)
  | .snapshot filter => (r, .publish filter r.buffer.snapshot)
  | .publish filter all => ({ r with filteredEvents := emitSnapshot tables filter all }, .publishCoverage)
  | .publishCoverage => ({ r with coverage := r.coverageStats }, .done)
  | .done => (r, .done)

def step (s : State) : Action → Except Blocked State
  | .addEvent event now =>
    .ok { repository := s.repository.addSection event now, tasks := s.tasks ++ [.setDirty] }
  | .clearEvents now => .ok { repository := s.repository.clearSection now, tasks := s.tasks ++ [.clearList] }
  | .setFilter filter =>
    -- launching the emission has no effect of its own
    .ok { repository := { s.repository with currentFilter := filter }, tasks := s.tasks ++ [.emit] }
  | .tick =>
    if s.tasks[0]? = some .done then
      if s.repository.dirty then
        .ok { repository := { s.repository with dirty := false }, tasks := s.tasks.set 0 .emit }
      else .ok s
    else .error .blocked
  | .advance i =>
    match s.tasks[i]? with
    | none | some .done => .error .blocked
    | some task =>
      let next := perform tables s.repository task
      .ok { repository := next.1, tasks := s.tasks.set i next.2 }

end

def initial (capacity : Nat) (positive : 0 < capacity) (now : Int64) : State where
  repository := EventRepository.initial capacity positive now
  tasks := [.done]

namespace Task

def adds : Task → Bool
  | setDirty => true
  | _ => false

def launched : Task → Bool
  | emit => true
  | _ => false

/-- An emission that has read the filter and has not published. -/
def inFlight : Task → Bool
  | snapshot _ | publish _ _ => true
  | _ => false

/-- An emission that has read the window and has not published. -/
def holdsWindow : Task → Bool
  | publish _ _ => true
  | _ => false

/-- A clear that has emptied the window and not the list. -/
def empties : Task → Bool
  | clearList => true
  | _ => false

/-- A clear that has emptied the list. -/
def emptied : Task → Bool
  | clearCoverage | resetDirty => true
  | _ => false

end Task

namespace State

def count (s : State) (p : Task → Bool) : Nat := s.tasks.countP p

/-- No operation is under way. -/
def Quiet (s : State) : Prop := ∀ t ∈ s.tasks, t = .done

instance (s : State) : Decidable s.Quiet := inferInstanceAs (Decidable (∀ t ∈ s.tasks, t = .done))

/-- What the list is to show. -/
def liveEvents (tables : CharTables) (s : State) : List BinderEvent :=
  s.repository.buffer.snapshot.filter fun e => e.visible && s.repository.currentFilter.matches tables e

/-- Emissions do not overlap, a clear does not overlap one that has the window in hand, and events are not added
during a clear. -/
def Orderly (s : State) : Action → Prop
  | .addEvent _ _ => s.count Task.empties = 0 ∧ s.count Task.emptied = 0
  | .clearEvents _ => s.count Task.holdsWindow = 0
  | .advance i => s.tasks[i]? = some .emit → s.count Task.inFlight = 0
  | _ => True

instance (s : State) (a : Action) : Decidable (s.Orderly a) := by
  cases a <;> unfold Orderly <;> infer_instance

/-! ### The invariant -/

/-- Something is going to emit: the flag is set or about to be set, or an emission is to begin. -/
def Owed (s : State) : Prop :=
  s.repository.dirty = true ∨ 0 < s.count Task.adds ∨ 0 < s.count Task.launched

/-- What an emission has read is current, or another one will follow; and during a clear it has read nothing. -/
def Sees (s : State) : Task → Prop
  | .snapshot filter => filter = s.repository.currentFilter ∨ 0 < s.count Task.launched
  | .publish filter all =>
    (filter = s.repository.currentFilter ∨ 0 < s.count Task.launched) ∧
      (all = s.repository.buffer.snapshot ∨ s.Owed) ∧
      (0 < s.count Task.empties + s.count Task.emptied → all = [])
  | _ => True

/-- At most one emission is in flight and it sees what is current; if there is none, the list is current or will be.
During a clear the window is empty, and so is the list in the second part of it. -/
structure Converging (tables : CharTables) (s : State) : Prop where
  single : s.count Task.inFlight ≤ 1
  window : 0 < s.count Task.empties + s.count Task.emptied → s.repository.buffer.snapshot = []
  list : 0 < s.count Task.emptied → s.repository.filteredEvents = []
  sees : ∀ t ∈ s.tasks, s.Sees t
  shown : s.count Task.inFlight = 0 →
    s.Owed ∨ 0 < s.count Task.empties ∨ s.repository.filteredEvents = s.liveEvents tables

section
variable {tables : CharTables} {s s' : State} {t t' : Task}

theorem liveEvents_nil (h : s.repository.buffer.snapshot = []) : s.liveEvents tables = [] := by
  rw [liveEvents, h, List.filter_nil]

/-- A task of `s` is replaced in `s'`; a new one comes in the place of one that is done. -/
structure Replaces (s s' : State) (t t' : Task) : Prop where
  count : ∀ p : Task → Bool, p .done = false → s'.count p + (p t).toNat = s.count p + (p t').toNat
  mem : ∀ x ∈ s'.tasks, x ∈ s.tasks ∨ x = t'

/-- The replacement does not change how many have what both tasks have or both have not. -/
theorem Replaces.same (h : Replaces s s' t t') (p : Task → Bool) (hdone : p .done = false) (hp : p t = p t') :
    s'.count p = s.count p :=
  Nat.add_right_cancel (hp ▸ h.count p hdone)

theorem replaces_append (r : EventRepository) (t' : Task) : Replaces s ⟨r, s.tasks ++ [t']⟩ .done t' where
  count := by
    intro p hp
    rw [count, List.countP_append, List.countP_singleton, hp]
    cases p t' <;> rfl
  mem := fun x hx => (List.mem_append.1 hx).imp_right List.mem_singleton.1

theorem replaces_set {i : Nat} (hi : s.tasks[i]? = some t) (r : EventRepository) (t' : Task) :
    Replaces s ⟨r, s.tasks.set i t'⟩ t t' where
  count := by
    intro p _
    have hcount := countP_set_add (p := p) hi t'
    cases ht : p t <;> cases ht' : p t' <;> rw [ht, ht'] at hcount <;> exact hcount
  mem := fun x hx => List.mem_or_eq_of_mem_set hx

theorem count_pos (h : t ∈ s.tasks) {p : Task → Bool} (hp : p t = true) : 0 < s.count p :=
  List.countP_pos_iff.2 ⟨t, h, hp⟩

/-- An emission that is not in flight has read nothing. -/
theorem sees_of_not_inFlight (h : t.inFlight = false) : s.Sees t := by
  cases t with
  | snapshot | publish => cases h
  | _ => trivial

/-- What an emission sees stays current unless more is owed. -/
theorem Sees.mono (h : s.Sees t)
    (hfilter : s'.repository.currentFilter = s.repository.currentFilter ∨ 0 < s'.count Task.launched)
    (hlaunched : 0 < s.count Task.launched → 0 < s'.count Task.launched)
    (hwindow : s'.repository.buffer.snapshot = s.repository.buffer.snapshot ∨ s'.Owed) (howed : s.Owed → s'.Owed)
    (hclears : 0 < s'.count Task.empties + s'.count Task.emptied → 0 < s.count Task.empties + s.count Task.emptied) :
    s'.Sees t := by
  have hcurrent : ∀ filter, filter = s.repository.currentFilter ∨ 0 < s.count Task.launched →
      filter = s'.repository.currentFilter ∨ 0 < s'.count Task.launched := by
    rintro filter (rfl | hmore)
    · exact hfilter.imp_left Eq.symm
    · exact .inr (hlaunched hmore)
  cases t with
  | snapshot filter => exact hcurrent filter h
  | publish filter all =>
    obtain ⟨hread, hall, hclear⟩ := h
    refine ⟨hcurrent filter hread, ?_, fun hc => hclear (hclears hc)⟩
    rcases hall with rfl | hmore
    · exact hwindow.imp_left Eq.symm
    · exact .inr (howed hmore)
  | _ => trivial

namespace Converging

/-- An operation that leaves something owed, and as many emissions in flight and clears as before. -/
theorem of_owed (h : Converging tables s) {t t' : Task} (hr : Replaces s s' t t') (howed : s'.Owed)
    (hinFlight : s'.count Task.inFlight = s.count Task.inFlight)
    (hempties : s'.count Task.empties = s.count Task.empties) (hemptied : s'.count Task.emptied = s.count Task.emptied)
    (hlaunched : s.count Task.launched ≤ s'.count Task.launched)
    (hfilter : s'.repository.currentFilter = s.repository.currentFilter ∨ 0 < s'.count Task.launched)
    (hwindow : 0 < s.count Task.empties + s.count Task.emptied → s'.repository.buffer.snapshot = [])
    (hlist : s'.repository.filteredEvents = s.repository.filteredEvents) (hnew : t'.inFlight = false) :
    Converging tables s' := by
  refine ⟨by rw [hinFlight]; exact h.single, by rw [hempties, hemptied]; exact hwindow,
    by rw [hemptied, hlist]; exact h.list, fun x hx => ?_, fun _ => .inl howed⟩
  rcases hr.mem x hx with hold | rfl
  · refine (h.sees x hold).mono hfilter (fun hpos => hpos.trans_le hlaunched) (.inr howed) (fun _ => howed) ?_
    rw [hempties, hemptied]
    exact id
  · exact sees_of_not_inFlight hnew

theorem addEvent (h : Converging tables s) (hr : Replaces s s' .done .setDirty)
    (hclear : s.count Task.empties = 0 ∧ s.count Task.emptied = 0)
    (hfilter : s'.repository.currentFilter = s.repository.currentFilter)
    (hlist : s'.repository.filteredEvents = s.repository.filteredEvents) : Converging tables s' := by
  have hadds : s'.count Task.adds = s.count Task.adds + 1 := hr.count Task.adds rfl
  have hlaunched := hr.same Task.launched rfl rfl
  exact h.of_owed hr (.inr (.inl (by omega))) (hr.count Task.inFlight rfl) (hr.count Task.empties rfl)
    (hr.count Task.emptied rfl) hlaunched.ge (.inl hfilter) (fun hpos => absurd hpos (by omega)) hlist rfl

/-- A filter is set, or the tick takes the flag over. -/
theorem launch (h : Converging tables s) (hr : Replaces s s' .done .emit)
    (hwindow : s'.repository.buffer = s.repository.buffer)
    (hlist : s'.repository.filteredEvents = s.repository.filteredEvents) : Converging tables s' := by
  have hlaunched : s'.count Task.launched = s.count Task.launched + 1 := hr.count Task.launched rfl
  have hpos : 0 < s'.count Task.launched := by omega
  exact h.of_owed hr (.inr (.inr hpos)) (hr.count Task.inFlight rfl) (hr.count Task.empties rfl)
    (hr.count Task.emptied rfl) (by omega) (.inr hpos) (hwindow ▸ h.window) hlist rfl

theorem clearEvents (h : Converging tables s) (hr : Replaces s s' .done .clearList)
    (hholds : s.count Task.holdsWindow = 0) (hwindow : s'.repository.buffer.snapshot = [])
    (hfilter : s'.repository.currentFilter = s.repository.currentFilter)
    (hlist : s'.repository.filteredEvents = s.repository.filteredEvents) : Converging tables s' := by
  have hinFlight := hr.same Task.inFlight rfl rfl
  have hempties : s'.count Task.empties = s.count Task.empties + 1 := hr.count Task.empties rfl
  have hemptied := hr.same Task.emptied rfl rfl
  have hlaunched := hr.same Task.launched rfl rfl
  refine ⟨hinFlight ▸ h.single, fun _ => hwindow, by rw [hemptied, hlist]; exact h.list, fun x hx => ?_,
    fun _ => .inr (.inl (by omega))⟩
  rcases hr.mem x hx with hold | rfl
  · cases x with
    | publish filter all => exact absurd (count_pos hold (p := Task.holdsWindow) rfl) (by omega)
    | snapshot filter =>
      rw [Sees, hfilter, hlaunched]
      exact h.sees _ hold
    | _ => trivial
  · trivial

/-- What the emissions see after a task has gone on, which changes neither the filter nor the window. -/
theorem sees_after (h : Converging tables s) (hr : Replaces s s' t t')
    (hfilter : s'.repository.currentFilter = s.repository.currentFilter)
    (hbuffer : s'.repository.buffer = s.repository.buffer)
    (hlaunched : s.count Task.launched ≤ s'.count Task.launched) (howed : s.Owed → s'.Owed)
    (hclears : s'.count Task.empties + s'.count Task.emptied ≤ s.count Task.empties + s.count Task.emptied)
    (hnew : s'.Sees t') : ∀ x ∈ s'.tasks, s'.Sees x := by
  intro x hx
  rcases hr.mem x hx with hold | rfl
  · exact (h.sees x hold).mono (.inl hfilter) (fun hpos => hpos.trans_le hlaunched) (.inl (by rw [hbuffer])) howed
      fun hpos => hpos.trans_le hclears
  · exact hnew

/-- A step that shows in the coverage only. -/
theorem of_coverage (h : Converging tables s) (hr : Replaces s s' t t') {coverage : CoverageSnapshot}
    (hrepository : s'.repository = { s.repository with coverage })
    (hinFlight : s'.count Task.inFlight = s.count Task.inFlight)
    (hempties : s'.count Task.empties = s.count Task.empties) (hemptied : s'.count Task.emptied = s.count Task.emptied)
    (hadds : s'.count Task.adds = s.count Task.adds) (hlaunched : s'.count Task.launched = s.count Task.launched)
    (hnew : t'.inFlight = false) : Converging tables s' := by
  have howed : s.Owed ↔ s'.Owed := by rw [Owed, Owed, hadds, hlaunched, hrepository]
  refine ⟨hinFlight ▸ h.single, ?_, ?_, ?_, ?_⟩
  · rw [hempties, hemptied, hrepository]
    exact h.window
  · rw [hemptied, hrepository]
    exact h.list
  · exact h.sees_after hr (by rw [hrepository]) (by rw [hrepository]) hlaunched.ge howed.1 (by omega)
      (sees_of_not_inFlight hnew)
  · rw [hinFlight, hempties, ← howed, liveEvents, hrepository]
    exact h.shown

theorem setDirty (h : Converging tables s) (hr : Replaces s s' .setDirty .done)
    (hrepository : s'.repository = { s.repository with dirty := true }) : Converging tables s' := by
  have hlaunched := hr.same Task.launched rfl rfl
  refine h.of_owed hr (.inl (by rw [hrepository])) (hr.count Task.inFlight rfl) (hr.count Task.empties rfl)
    (hr.count Task.emptied rfl) hlaunched.ge (.inl ?_) ?_ ?_ rfl
  · rw [hrepository]
  · rw [hrepository]
    exact h.window
  · rw [hrepository]

/-- The list is emptied after the window. -/
theorem clearList (h : Converging tables s) (hr : Replaces s s' .clearList .clearCoverage)
    (hrepository : s'.repository = { s.repository with filteredEvents := [] }) : Converging tables s' := by
  have hinFlight := hr.same Task.inFlight rfl rfl
  have hempties : s'.count Task.empties + 1 = s.count Task.empties := hr.count Task.empties rfl
  have hemptied : s'.count Task.emptied = s.count Task.emptied + 1 := hr.count Task.emptied rfl
  have hadds := hr.same Task.adds rfl rfl
  have hlaunched := hr.same Task.launched rfl rfl
  have hwindow : s'.repository.buffer.snapshot = [] := by
    rw [hrepository]
    exact h.window (by omega)
  have hlist : s'.repository.filteredEvents = [] := by rw [hrepository]
  refine ⟨hinFlight ▸ h.single, fun _ => hwindow, fun _ => hlist, ?_, fun _ => .inr (.inr ?_)⟩
  · refine h.sees_after hr (by rw [hrepository]) (by rw [hrepository]) hlaunched.ge ?_ (by omega) trivial
    rw [Owed, Owed, hadds, hlaunched, hrepository]
    exact id
  · rw [hlist, liveEvents_nil hwindow]

/-- A clear is over: the window and the list are both empty. -/
theorem resetDirty (h : Converging tables s) (hr : Replaces s s' .resetDirty .done)
    (hrepository : s'.repository = { s.repository with dirty := false }) : Converging tables s' := by
  have hinFlight := hr.same Task.inFlight rfl rfl
  have hempties := hr.same Task.empties rfl rfl
  have hemptied : s'.count Task.emptied + 1 = s.count Task.emptied := hr.count Task.emptied rfl
  have hlaunched := hr.same Task.launched rfl rfl
  have hwindow : s'.repository.buffer.snapshot = [] := by
    rw [hrepository]
    exact h.window (by omega)
  have hlist : s'.repository.filteredEvents = [] := by
    rw [hrepository]
    exact h.list (by omega)
  refine ⟨hinFlight ▸ h.single, fun _ => hwindow, fun _ => hlist, fun x hx => ?_, fun _ => .inr (.inr ?_)⟩
  · rcases hr.mem x hx with hold | rfl
    · have hsees := h.sees x hold
      cases x with
      | snapshot filter =>
        rw [Sees, hrepository, hlaunched]
        exact hsees
      | publish filter all =>
        obtain ⟨hread, -, hclear⟩ := hsees
        have hall : all = [] := hclear (by omega)
        refine ⟨?_, .inl (hall.trans hwindow.symm), fun _ => hall⟩
        rw [hrepository, hlaunched]
        exact hread
      | _ => trivial
    · trivial
  · rw [hlist, liveEvents_nil hwindow]

/-- An emission begins where there is no other. -/
theorem readFilter (h : Converging tables s) (hr : Replaces s s' .emit (.snapshot s.repository.currentFilter))
    (hrepository : s'.repository = s.repository) (hfree : s.count Task.inFlight = 0) : Converging tables s' := by
  have hinFlight : s'.count Task.inFlight = s.count Task.inFlight + 1 := hr.count Task.inFlight rfl
  have hempties := hr.same Task.empties rfl rfl
  have hemptied := hr.same Task.emptied rfl rfl
  refine ⟨by omega, ?_, ?_, fun x hx => ?_, fun hnone => absurd hnone (by omega)⟩
  · rw [hempties, hemptied, hrepository]
    exact h.window
  · rw [hemptied, hrepository]
    exact h.list
  · rcases hr.mem x hx with hold | rfl
    · refine sees_of_not_inFlight (Bool.eq_false_iff.2 fun hx => ?_)
      exact absurd (count_pos hold hx) (by omega)
    · exact .inl (by rw [hrepository])

theorem readWindow (h : Converging tables s) {filter : EventFilter} (hmem : .snapshot filter ∈ s.tasks)
    (hr : Replaces s s' (.snapshot filter) (.publish filter s.repository.buffer.snapshot))
    (hrepository : s'.repository = s.repository) : Converging tables s' := by
  have hinFlight := hr.same Task.inFlight rfl rfl
  have hempties := hr.same Task.empties rfl rfl
  have hemptied := hr.same Task.emptied rfl rfl
  have hadds := hr.same Task.adds rfl rfl
  have hlaunched := hr.same Task.launched rfl rfl
  have hpos := count_pos hmem (p := Task.inFlight) rfl
  refine ⟨hinFlight ▸ h.single, ?_, ?_, ?_, fun hnone => absurd hnone (by omega)⟩
  · rw [hempties, hemptied, hrepository]
    exact h.window
  · rw [hemptied, hrepository]
    exact h.list
  · refine h.sees_after hr (by rw [hrepository]) (by rw [hrepository]) hlaunched.ge ?_ (by omega) ⟨?_, .inl ?_, ?_⟩
    · rw [Owed, Owed, hadds, hlaunched, hrepository]
      exact id
    · rw [hrepository, hlaunched]
      exact h.sees _ hmem
    · rw [hrepository]
    · rw [hempties, hemptied]
      exact h.window

/-- What is published is current, or another emission follows. -/
theorem publish (h : Converging tables s) {filter : EventFilter} {all : List BinderEvent}
    (hmem : .publish filter all ∈ s.tasks) (hr : Replaces s s' (.publish filter all) .publishCoverage)
    (hrepository : s'.repository = { s.repository with filteredEvents := emitSnapshot tables filter all }) :
    Converging tables s' := by
  have hinFlight : s'.count Task.inFlight + 1 = s.count Task.inFlight := hr.count Task.inFlight rfl
  have hempties := hr.same Task.empties rfl rfl
  have hemptied := hr.same Task.emptied rfl rfl
  have hadds := hr.same Task.adds rfl rfl
  have hlaunched := hr.same Task.launched rfl rfl
  have howed : s.Owed → s'.Owed := by
    rw [Owed, Owed, hadds, hlaunched, hrepository]
    exact id
  have hsingle := h.single
  obtain ⟨hread, hwindow, hclear⟩ := h.sees _ hmem
  refine ⟨by omega, ?_, ?_, ?_, fun _ => ?_⟩
  · rw [hempties, hemptied, hrepository]
    exact h.window
  · intro hpos
    rw [hrepository, hclear (by omega), emitSnapshot_eq, List.filter_nil]
  · exact h.sees_after hr (by rw [hrepository]) (by rw [hrepository]) hlaunched.ge howed (by omega) trivial
  · rcases hread with rfl | hmore
    · rcases hwindow with rfl | hmore
      · refine .inr (.inr ?_)
        rw [liveEvents, hrepository, emitSnapshot_eq]
      · exact .inl (howed hmore)
    · exact .inl (howed (.inr (.inr hmore)))

/-- A task goes on. -/
theorem advance (h : Converging tables s) {i : Nat} (hi : s.tasks[i]? = some t)
    (horderly : t = .emit → s.count Task.inFlight = 0) :
    Converging tables
      ⟨(perform tables s.repository t).1, s.tasks.set i (perform tables s.repository t).2⟩ := by
  have hmem : t ∈ s.tasks := List.mem_of_getElem? hi
  have hr := replaces_set hi (perform tables s.repository t).1 (perform tables s.repository t).2
  cases t with
  | setDirty => exact h.setDirty hr rfl
  | clearList => exact h.clearList hr rfl
  | clearCoverage =>
    have hemptied := hr.count Task.emptied rfl
    exact h.of_coverage hr rfl (hr.count Task.inFlight rfl) (hr.count Task.empties rfl) (Nat.succ.inj hemptied)
      (hr.count Task.adds rfl) (hr.count Task.launched rfl) rfl
  | resetDirty => exact h.resetDirty hr rfl
  | emit => exact h.readFilter hr rfl (horderly rfl)
  | snapshot filter => exact h.readWindow hmem hr rfl
  | publish filter all => exact h.publish hmem hr rfl
  | publishCoverage | done =>
    exact h.of_coverage hr rfl (hr.count Task.inFlight rfl) (hr.count Task.empties rfl)
      (hr.count Task.emptied rfl) (hr.count Task.adds rfl) (hr.count Task.launched rfl) rfl

theorem step (h : Converging tables s) {a : Action} (horderly : s.Orderly a)
    (hstep : LiveList.step tables s a = .ok s') : Converging tables s' := by
  cases a with
  | addEvent event now =>
    cases hstep
    refine h.addEvent (replaces_append _ _) horderly ?_ ?_ <;> simp [EventRepository.addSection]
  | clearEvents now =>
    cases hstep
    exact h.clearEvents (replaces_append _ _) horderly rfl rfl rfl
  | setFilter filter =>
    cases hstep
    exact h.launch (replaces_append _ _) rfl rfl
  | tick =>
    simp only [LiveList.step] at hstep
    split at hstep
    · next hidle =>
      split at hstep
      · cases hstep
        exact h.launch (replaces_set hidle _ _) rfl rfl
      · cases hstep
        exact h
    · cases hstep
  | advance i =>
    simp only [LiveList.step] at hstep
    split at hstep
    · cases hstep
    · cases hstep
    · next task hi =>
      cases hstep
      exact h.advance hi fun hemit => horderly (hemit ▸ hi)

end Converging

theorem converging_initial (capacity : Nat) (positive : 0 < capacity) (now : Int64) :
    Converging tables (initial capacity positive now) where
  single := Nat.zero_le 1
  window := fun _ => rfl
  list := fun _ => rfl
  sees := fun t ht => by rw [List.mem_singleton.1 ht]; trivial
  shown := fun _ => .inr (.inr rfl)

/-- Where no operation is under way and the flag is not set, the list is current. -/
theorem Converging.converged (h : Converging tables s) (hquiet : s.Quiet) (hdirty : s.repository.dirty = false) :
    s.repository.filteredEvents = s.liveEvents tables := by
  have hnone : ∀ p : Task → Bool, p .done = false → s.count p = 0 := by
    intro p hp
    refine List.countP_eq_zero.2 fun t ht => ?_
    rw [hquiet t ht, hp]
    exact Bool.false_ne_true
  have hadds := hnone Task.adds rfl
  have hlaunched := hnone Task.launched rfl
  have hempties := hnone Task.empties rfl
  rcases h.shown (hnone Task.inFlight rfl) with (hflag | hpos | hpos) | hpos | hlist
  · rw [hdirty] at hflag
    cases hflag
  · omega
  · omega
  · omega
  · exact hlist

end

/-- **The live list converges while emissions and clears keep out of each other's way.** In every orderly run, in
every state in which no operation is under way and the flag is not set, the list holds exactly the events of the
window that are visible and match the filter. -/
theorem live_list_converges {tables : CharTables} {capacity : Nat} {positive : 0 < capacity} {now : Int64}
    {actions : List Action} {s : State} (h : run (LiveList.step tables) (initial capacity positive now) actions = .ok s)
    (horderly : StepsMeet (LiveList.step tables) Orderly (initial capacity positive now) actions)
    (hquiet : s.Quiet) (hdirty : s.repository.dirty = false) :
    s.repository.filteredEvents = s.repository.buffer.snapshot.filter fun e =>
      e.visible && s.repository.currentFilter.matches tables e := by
  have hs : Converging tables s := by
    refine run_along (P := fun _ s => Converging tables s) (converging_initial capacity positive now) ?_ h
    intro done a m t hpre hm ih hstep
    exact ih.step (horderly done a hpre m hm) hstep
  exact hs.converged hquiet hdirty

/-- An event is emitted, a filter hides it, the events are cleared, and another event is emitted. -/
def inTurn : List Action :=
  [.addEvent (Writer.plainEvent 0) 1, .advance 1, .tick, .advance 0, .advance 0, .advance 0, .advance 0,
    .setFilter { bucketsAllowed := {.hidl} }, .advance 2, .advance 2, .advance 2, .advance 2,
    .clearEvents 2, .advance 3, .advance 3, .advance 3, .setFilter {}, .advance 4, .advance 4, .advance 4, .advance 4,
    .addEvent (Writer.plainEvent 1) 3, .advance 5, .tick, .advance 0, .advance 0, .advance 0, .advance 0]

theorem live_list_converges_inTurn :
    ∃ s, run (LiveList.step asciiTables) (initial 2 Nat.two_pos 0) inTurn = .ok s ∧ s.Quiet ∧
      s.repository.buffer.snapshot = [Writer.plainEvent 1] ∧
      s.repository.filteredEvents = s.repository.buffer.snapshot.filter fun e =>
        e.visible && s.repository.currentFilter.matches asciiTables e := by
  obtain ⟨s, h, hquiet, hdirty, hwindow⟩ : ∃ s,
      run (LiveList.step asciiTables) (initial 2 Nat.two_pos 0) inTurn = .ok s ∧ s.Quiet ∧
        s.repository.dirty = false ∧ s.repository.buffer.snapshot = [Writer.plainEvent 1] :=
    exists_of_endsIn (by decide +kernel)
  exact ⟨s, h, hquiet, hwindow, live_list_converges h (stepsMeet_of_eval (by decide +kernel)) hquiet hdirty⟩

/-- The run comes to rest with another list than it should. -/
def Diverges (tables : CharTables) (actions : List Action) : Prop :=
  ∃ s, run (LiveList.step tables) (initial 2 Nat.two_pos 0) actions = .ok s ∧ s.Quiet ∧
    s.repository.dirty = false ∧ s.repository.filteredEvents ≠ s.liveEvents tables

/-- An event is added while the events are cleared. -/
def addedDuringClear : List Action :=
  [.clearEvents 1, .addEvent (Writer.plainEvent 0) 2, .advance 2, .advance 1, .advance 1, .advance 1]

/-- The events are cleared while an emission has the window in hand. -/
def clearedDuringEmission : List Action :=
  [.addEvent (Writer.plainEvent 0) 1, .advance 1, .tick, .advance 0, .advance 0, .clearEvents 2, .advance 2, .advance 2,
    .advance 2, .advance 0, .advance 0]

/-- The emission for a new filter overtakes one that has read the old one. -/
def overtaken : List Action :=
  [.addEvent (Writer.plainEvent 0) 1, .advance 1, .tick, .advance 0, .advance 0,
    .setFilter { bucketsAllowed := {.hidl} }, .advance 2, .advance 2, .advance 2, .advance 2, .advance 0, .advance 0]

/-- **The live list need not converge**: an event is never listed, cleared events come back, or the list belongs to
the old filter. -/
theorem live_list_diverges :
    Diverges asciiTables addedDuringClear ∧ Diverges asciiTables clearedDuringEmission ∧
      Diverges asciiTables overtaken :=
  ⟨exists_of_endsIn (by decide +kernel), exists_of_endsIn (by decide +kernel), exists_of_endsIn (by decide +kernel)⟩

end State

end BinderTracer.App.LiveList
