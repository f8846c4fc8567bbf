import BinderTracer.Lib.Runs

/-!
# Coroutines over a shared variable

A coroutine works on one shared variable and on other shared data, and suspends where it calls its
environment; between two calls it runs without interruption. A `Machine` interleaves coroutines at their
calls, with any answers, and logs every assignment of the variable together with what the coroutine had seen
or set last.

The rule of this file is about a diagram for the variable: if every assignment in the text of a coroutine is
an edge from what the coroutine saw or set last (`Follows`), then so is every logged assignment
(`run_sound`). It is a step of the variable itself unless somebody else moved the variable in between.
-/

namespace BinderTracer.Lib

/-- A coroutine on a variable of type `V` and data of type `D`, updated by `W`, with calls `Q` answered by
`A`. -/
inductive Coroutine (V D W Q A : Type) where
  | finish
  /-- Read the variable. -/
  | look (next : V → Coroutine V D W Q A)
  /-- Read the data. -/
  | get (next : D → Coroutine V D W Q A)
  /-- Assign the variable. -/
  | set (v : V) (next : Coroutine V D W Q A)
  /-- Update the data. -/
  | update (w : W) (next : Coroutine V D W Q A)
  /-- Suspend until the call is answered. -/
  | call (q : Q) (next : A → Coroutine V D W Q A)

/-- An assignment: what the coroutine had seen or set last, what it found, and what it set. -/
structure Assignment (V : Type) where
  left : V
  found : V
  set : V
deriving DecidableEq, Repr

/-- The assignments lead from one value to another. -/
def Chained {V : Type} : V → List (Assignment V) → V → Prop
  | v, [], w => w = v
  | v, a :: as, w => a.found = v ∧ Chained a.set as w

theorem Chained.append {V : Type} {u v w : V} {as bs : List (Assignment V)} (ha : Chained u as v)
    (hb : Chained v bs w) : Chained u (as ++ bs) w := by
  induction as generalizing u with
  | nil => exact (ha : v = u) ▸ hb
  | cons a as ih => exact ⟨ha.1, ih ha.2⟩

theorem Chained.split {V : Type} {u w : V} {as bs : List (Assignment V)} (h : Chained u (as ++ bs) w) :
    ∃ v, Chained u as v ∧ Chained v bs w := by
  induction as generalizing u with
  | nil => exact ⟨u, rfl, h⟩
  | cons a as ih =>
    obtain ⟨v, hv, hw⟩ := ih h.2
    exact ⟨v, ⟨h.1, hv⟩, hw⟩

/-- Assignments that change nothing lead nowhere. -/
theorem Chained.eq_of_forall {V : Type} {v w : V} {as : List (Assignment V)} (h : Chained v as w)
    (hsame : ∀ a ∈ as, a.found = a.set) : w = v := by
  induction as generalizing v with
  | nil => exact h
  | cons a as ih =>
    have hrest := ih h.2 fun b hb => hsame b (List.mem_cons_of_mem a hb)
    rw [hrest, ← hsame a List.mem_cons_self, h.1]

namespace Coroutine

variable {V D W Q A : Type}

/-- What is there when a coroutine has suspended or finished. -/
structure Segment (V D W Q A : Type) where
  value : V
  data : D
  left : V
  rest : Coroutine V D W Q A
  log : List (Assignment V)

/-- Run up to the next call. `left` is what the coroutine saw or set last. -/
def advance (apply : W → D → D) : Coroutine V D W Q A → V → V → D → Segment V D W Q A
  | finish, left, v, d => ⟨v, d, left, finish, []⟩
  | look next, _, v, d => (next v).advance apply v v d
  | get next, left, v, d => (next d).advance apply left v d
  | set v' next, left, v, d =>
    let seg := next.advance apply v' v' d
    { seg with log := ⟨left, v, v'⟩ :: seg.log }
  | update w next, left, v, d => next.advance apply left v (apply w d)
  | call q next, left, v, d => ⟨v, d, left, call q next, []⟩

/-- Run to the end alone, in an environment that answers every call. -/
def complete {E : Type} (apply : W → D → D) (answer : Q → E → A × E) :
    Coroutine V D W Q A → V → D → E → V × D × E
  | finish, v, d, e => (v, d, e)
  | look next, v, d, e => (next v).complete apply answer v d e
  | get next, v, d, e => (next d).complete apply answer v d e
  | set v' next, _, d, e => next.complete apply answer v' d e
  | update w next, v, d, e => next.complete apply answer v (apply w d) e
  | call q next, v, d, e => (next (answer q e).1).complete apply answer v d (answer q e).2

/-- Every assignment is an edge from what the coroutine saw or set last. The flag of an edge says whether the
coroutine has not suspended yet. -/
def Follows (edge : Bool → V → V → Prop) : Coroutine V D W Q A → Bool → V → Prop
  | finish, _, _ => True
  | look next, first, _ => ∀ v, (next v).Follows edge first v
  | get next, first, left => ∀ d, (next d).Follows edge first left
  | set v next, first, left => edge first left v ∧ next.Follows edge first v
  | update _ next, first, left => next.Follows edge first left
  | call _ next, _, left => ∀ a, (next a).Follows edge false left

variable (apply : W → D → D)

theorem advance_chained (c : Coroutine V D W Q A) (left v : V) (d : D) :
    Chained v (c.advance apply left v d).log (c.advance apply left v d).value := by
  induction c generalizing left v d with
  | finish => exact rfl
  | look next ih => exact ih v v v d
  | get next ih => exact ih d left v d
  | set v' next ih => exact ⟨rfl, ih v' v' d⟩
  | update w next ih => exact ih left v (apply w d)
  | call q next ih => exact rfl

theorem advance_follows {edge : Bool → V → V → Prop} {c : Coroutine V D W Q A} {first : Bool} {left : V}
    (h : c.Follows edge first left) (v : V) (d : D) :
    (∀ a ∈ (c.advance apply left v d).log, edge first a.left a.set) ∧
      (c.advance apply left v d).rest.Follows edge false (c.advance apply left v d).left := by
  induction c generalizing left v d with
  | finish => exact ⟨fun _ ha => absurd ha List.not_mem_nil, trivial⟩
  | look next ih => exact ih v (h v) v d
  | get next ih => exact ih d (h d) v d
  | set v' next ih =>
    obtain ⟨hlog, hrest⟩ := ih h.2 v' d
    refine ⟨fun a ha => ?_, hrest⟩
    rcases List.mem_cons.1 ha with rfl | ha
    · exact h.1
    · exact hlog a ha
  | update w next ih => exact ih h v (apply w d)
  | call q next ih => exact ⟨fun _ ha => absurd ha List.not_mem_nil, h⟩

end Coroutine

/-! ### Interleaving -/

/-- The programs, those of them that run at once in their caller, and the updates of the data. -/
structure Programs (P V D W Q A : Type) where
  body : P → Coroutine V D W Q A
  synchronous : P → Bool
  apply : W → D → D

/-- A program that has been issued: what the coroutine saw or set last, and what it still has to do. -/
structure Task (P V D W Q A : Type) where
  program : P
  begun : Bool
  left : V
  rest : Coroutine V D W Q A

/-- An assignment in the log, with the task that made it, and whether the task had not suspended yet. -/
structure Entry (P V : Type) extends Assignment V where
  task : Nat
  program : P
  first : Bool
deriving DecidableEq, Repr

/-- The variable, the data, the tasks in the order of their issue, and the log. -/
structure Machine (P V D W Q A : Type) where
  value : V
  data : D
  tasks : List (Task P V D W Q A) := []
  log : List (Entry P V) := []

/-- What can happen. -/
inductive Action (P A : Type) where
  /-- A program is launched as a coroutine. -/
  | issue (p : P)
  /-- A coroutine begins. -/
  | begin (i : Nat)
  /-- A call is answered. -/
  | answer (i : Nat) (a : A)
  /-- A program runs in its caller. -/
  | perform (p : P)

namespace Machine

variable {P V D W Q A : Type} (programs : Programs P V D W Q A)

def launch (m : Machine P V D W Q A) (p : P) : Machine P V D W Q A :=
  { m with tasks := m.tasks ++ [⟨p, false, m.value, programs.body p⟩] }

/-- The task that is launched comes last. -/
theorem launched (m : Machine P V D W Q A) (p : P) :
    (m.launch programs p).tasks[m.tasks.length]? = some ⟨p, false, m.value, programs.body p⟩ := by
  rw [launch, List.getElem?_append_right (Nat.le_refl _), Nat.sub_self]
  rfl

/-- Task `i` runs `c` up to its next call. -/
def move (m : Machine P V D W Q A) (i : Nat) (p : P) (first : Bool) (left : V) (c : Coroutine V D W Q A) :
    Machine P V D W Q A :=
  let seg := c.advance programs.apply left m.value m.data
  { value := seg.value
    data := seg.data
    tasks := m.tasks.set i ⟨p, true, seg.left, seg.rest⟩
    log := m.log ++ seg.log.map fun a => { a with task := i, program := p, first } }

def begin (m : Machine P V D W Q A) (i : Nat) : Except Blocked (Machine P V D W Q A) :=
  match m.tasks[i]? with
  | some t => if t.begun then .error .blocked else .ok (m.move programs i t.program true m.value t.rest)
  | none => .error .blocked

def step (m : Machine P V D W Q A) : Action P A → Except Blocked (Machine P V D W Q A)
  | .issue p => if programs.synchronous p then .error .blocked else .ok (m.launch programs p)
  | .begin i => m.begin programs i
  | .answer i a =>
    match m.tasks[i]? with
    | some ⟨p, true, left, .call _ next⟩ => .ok (m.move programs i p false left (next a))
    | _ => .error .blocked
  | .perform p =>
    if programs.synchronous p then (m.launch programs p).begin programs m.tasks.length else .error .blocked

variable {programs}

theorem begin_ok {m m' : Machine P V D W Q A} {i : Nat} (h : m.begin programs i = .ok m') :
    ∃ t, m.tasks[i]? = some t ∧ t.begun = false ∧ m' = m.move programs i t.program true m.value t.rest := by
  unfold begin at h
  split at h
  · next t ht =>
    split at h
    · cases h
    · next hbegun => exact ⟨t, ht, by simpa using hbegun, (Except.ok.inj h).symm⟩
  · cases h

theorem answer_ok {m m' : Machine P V D W Q A} {i : Nat} {a : A}
    (h : m.step programs (.answer i a) = .ok m') :
    ∃ t q next, m.tasks[i]? = some t ∧ t.begun = true ∧ t.rest = .call q next ∧
      m' = m.move programs i t.program false t.left (next a) := by
  simp only [step] at h
  split at h
  · next p left q next ht => exact ⟨_, q, next, ht, rfl, rfl, (Except.ok.inj h).symm⟩
  · cases h

/-- What is kept by launching a task, by beginning one and by answering a call, is kept by every step. -/
theorem step_preserves (Inv : Machine P V D W Q A → Prop)
    (hlaunch : ∀ m p, Inv m → Inv (m.launch programs p))
    (hbegin : ∀ m i t, Inv m → m.tasks[i]? = some t → t.begun = false →
      Inv (m.move programs i t.program true m.value t.rest))
    (hanswer : ∀ m i t q next a, Inv m → m.tasks[i]? = some t → t.begun = true → t.rest = .call q next →
      Inv (m.move programs i t.program false t.left (next a)))
    {m m' : Machine P V D W Q A} {o : Action P A} (h : Inv m) (hstep : m.step programs o = .ok m') :
    Inv m' := by
  cases o with
  | issue p =>
    simp only [step] at hstep
    split at hstep
    · cases hstep
    · cases hstep
      exact hlaunch m p h
  | begin i =>
    obtain ⟨t, ht, hbegun, rfl⟩ := begin_ok hstep
    exact hbegin m i t h ht hbegun
  | answer i a =>
    obtain ⟨t, q, next, ht, hbegun, hrest, rfl⟩ := answer_ok hstep
    exact hanswer m i t q next a h ht hbegun hrest
  | perform p =>
    simp only [step] at hstep
    split at hstep
    · obtain ⟨t, ht, hbegun, rfl⟩ := begin_ok hstep
      exact hbegin _ _ t (hlaunch m p h) ht hbegun
    · cases hstep

/-- The variable was led from `init` to where it is by the log; every logged assignment is an edge of its
program from what the task saw or set last, and belongs to a task; and every task follows its diagram. -/
structure Sound (programs : Programs P V D W Q A) (edge : P → Bool → V → V → Prop) (init : V)
    (m : Machine P V D W Q A) : Prop where
  chained : Chained init (m.log.map Entry.toAssignment) m.value
  edges : ∀ e ∈ m.log, edge e.program e.first e.left e.set
  owners : ∀ e ∈ m.log, ∃ t, m.tasks[e.task]? = some t ∧ t.begun = true ∧ t.program = e.program
  waiting : ∀ (i : Nat) (t : Task P V D W Q A), m.tasks[i]? = some t → t.begun = false →
    t.rest = programs.body t.program
  following : ∀ (i : Nat) (t : Task P V D W Q A), m.tasks[i]? = some t → t.begun = true →
    t.rest.Follows (edge t.program) false t.left

namespace Sound

variable {edge : P → Bool → V → V → Prop} {init : V} {m : Machine P V D W Q A}

theorem initial (d : D) : Sound programs edge init { value := init, data := d } where
  chained := rfl
  edges := fun e he => by cases he
  owners := fun e he => by cases he
  waiting := fun i t ht => by cases ht
  following := fun i t ht => by cases ht

theorem launch (h : Sound programs edge init m) (p : P) : Sound programs edge init (m.launch programs p) := by
  refine ⟨h.chained, h.edges, fun e he => ?_, fun i t ht hbegun => ?_, fun i t ht hbegun => ?_⟩
  · obtain ⟨t, ht, hrest⟩ := h.owners e he
    exact ⟨t, List.getElem?_append_left (List.getElem?_eq_some_iff.1 ht).1 ▸ ht, hrest⟩
  · rcases getElem?_append_cases ht with ⟨-, rfl⟩ | ht
    · rfl
    · exact h.waiting i t ht hbegun
  · rcases getElem?_append_cases ht with ⟨-, rfl⟩ | ht
    · cases hbegun
    · exact h.following i t ht hbegun

theorem move (h : Sound programs edge init m) {i : Nat} {t : Task P V D W Q A} {first : Bool} {left : V}
    {c : Coroutine V D W Q A} (ht : m.tasks[i]? = some t) (hfollows : c.Follows (edge t.program) first left) :
    Sound programs edge init (m.move programs i t.program first left c) := by
  obtain ⟨hlog, hrest⟩ := Coroutine.advance_follows programs.apply hfollows m.value m.data
  have hi : i < m.tasks.length := (List.getElem?_eq_some_iff.1 ht).1
  let seg := c.advance programs.apply left m.value m.data
  have hself : (m.move programs i t.program first left c).tasks[i]? =
      some ⟨t.program, true, seg.left, seg.rest⟩ := List.getElem?_set_self hi
  refine ⟨?_, fun e he => ?_, fun e he => ?_, fun j t' ht' hbegun => ?_, fun j t' ht' hbegun => ?_⟩
  · have hchain := Coroutine.advance_chained programs.apply c left m.value m.data
    simp only [Machine.move, List.map_append, List.map_map]
    refine h.chained.append ?_
    convert hchain using 1
    exact List.map_id _
  · rcases List.mem_append.1 he with he | he
    · exact h.edges e he
    · obtain ⟨a, ha, rfl⟩ := List.mem_map.1 he
      exact hlog a ha
  · rcases List.mem_append.1 he with he | he
    · obtain ⟨t', ht', hbegun, hprogram⟩ := h.owners e he
      by_cases hj : e.task = i
      · rw [hj, ht] at ht'
        cases ht'
        rw [hj]
        exact ⟨_, hself, rfl, hprogram⟩
      · refine ⟨t', ?_, hbegun, hprogram⟩
        exact (List.getElem?_set_ne (Ne.symm hj)).trans ht'
    · obtain ⟨a, -, rfl⟩ := List.mem_map.1 he
      exact ⟨_, hself, rfl, rfl⟩
  · rcases getElem?_set_cases ht' with ⟨-, rfl⟩ | ⟨-, ht'⟩
    · cases hbegun
    · exact h.waiting j t' ht' hbegun
  · rcases getElem?_set_cases ht' with ⟨-, rfl⟩ | ⟨-, ht'⟩
    · exact hrest
    · exact h.following j t' ht' hbegun

end Sound

/-- **Programs that follow a diagram**: over every run, every logged assignment is an edge of its program,
from what the task had seen or set last. -/
theorem run_sound {edge : P → Bool → V → V → Prop} {init : V} {d : D} {m : Machine P V D W Q A}
    {ops : List (Action P A)} (hbodies : ∀ p v, (programs.body p).Follows (edge p) true v)
    (h : run (step programs) { value := init, data := d } ops = .ok m) : Sound programs edge init m := by
  refine run_invariant (fun m o m' hm hstep => ?_) (Sound.initial d) h
  refine step_preserves _ (fun m p hm => hm.launch p) (fun m i t hm ht hbegun => ?_)
    (fun m i t q next a hm ht hbegun hrest => ?_) hm hstep
  · rw [hm.waiting i t ht hbegun]
    exact hm.move ht (hbodies t.program m.value)
  · have hfollows := hm.following i t ht hbegun
    rw [hrest] at hfollows
    exact hm.move ht (hfollows a)

/-- The entries that a step adds to the log. -/
def added (programs : Programs P V D W Q A) (m : Machine P V D W Q A) (o : Action P A) : List (Entry P V) :=
  match m.step programs o with
  | .ok m' => m'.log.drop m.log.length
  | .error _ => []

theorem log_step {m m' : Machine P V D W Q A} {o : Action P A} (h : m.step programs o = .ok m') :
    m'.log = m.log ++ m.added programs o := by
  have hgrows : ∀ m₀ i p first left c, m.log <+: m₀.log → m.log <+: (move programs m₀ i p first left c).log :=
    fun _ _ _ _ _ _ hpre => hpre.trans (List.prefix_append _ _)
  have hpre : m.log <+: m'.log :=
    step_preserves (fun m' => m.log <+: m'.log) (fun _ _ hpre => hpre)
      (fun m₀ i t hpre _ _ => hgrows m₀ i _ _ _ _ hpre) (fun m₀ i t _ _ _ hpre _ _ _ => hgrows m₀ i _ _ _ _ hpre)
      List.prefix_rfl h
  obtain ⟨new, hnew⟩ := hpre
  have hadded : m.added programs o = m'.log.drop m.log.length := by rw [added, h]
  rw [hadded, ← hnew, List.drop_left]

/-- A condition on the entries of every step is one on the log. -/
theorem run_log_forall {C : Entry P V → Prop} {m m' : Machine P V D W Q A} {ops : List (Action P A)}
    (hsteps : StepsMeet (step programs) (fun m o => ∀ e ∈ m.added programs o, C e) m ops)
    (hstart : ∀ e ∈ m.log, C e) (h : run (step programs) m ops = .ok m') : ∀ e ∈ m'.log, C e := by
  refine run_along (P := fun _ (m : Machine P V D W Q A) => ∀ e ∈ m.log, C e) hstart ?_ h
  intro done o m₁ m₂ hpre hrun hlog hstep e he
  rw [log_step hstep, List.mem_append] at he
  rcases he with he | he
  · exact hlog e he
  · exact hsteps done o hpre m₁ hrun e he

/-- A coroutine begins only if none that was issued after it has begun. -/
def BeginsInOrder (programs : Programs P V D W Q A) (m : Machine P V D W Q A) : Action P A → Prop
  | .begin i => ∀ t ∈ m.tasks.drop (i + 1), t.begun = true → programs.synchronous t.program = true
  | _ => True

instance (m : Machine P V D W Q A) : (o : Action P A) → Decidable (BeginsInOrder programs m o)
  | .begin i => inferInstanceAs (Decidable (∀ t ∈ m.tasks.drop (i + 1), _))
  | .issue _ => .isTrue trivial
  | .answer _ _ => .isTrue trivial
  | .perform _ => .isTrue trivial

/-- If the later of two entries was made by a coroutine that had not suspended yet, the coroutine of the
earlier one was not issued later. -/
def IssuedInOrder (programs : Programs P V D W Q A) (e e' : Entry P V) : Prop :=
  programs.synchronous e.program = false → programs.synchronous e'.program = false → e'.first = true →
    e.task ≤ e'.task

/-- The entries of one segment are by one task; if that comes after those in the log, they are in order. -/
theorem pairwise_move {m : Machine P V D W Q A} (hpairwise : m.log.Pairwise (IssuedInOrder programs)) (i : Nat)
    (p : P) (first : Bool) (left : V) (c : Coroutine V D W Q A)
    (hold : ∀ e ∈ m.log, programs.synchronous e.program = false → programs.synchronous p = false →
      first = true → e.task ≤ i) :
    (m.move programs i p first left c).log.Pairwise (IssuedInOrder programs) := by
  refine List.pairwise_append.2 ⟨hpairwise, ?_, fun e he e' he' => ?_⟩
  · refine List.pairwise_map.2 (List.pairwise_of_forall fun _ _ => ?_)
    exact fun _ _ _ => Nat.le_refl i
  · obtain ⟨a, -, rfl⟩ := List.mem_map.1 he'
    exact hold e he

/-- What was logged before a coroutine begins in order is not by one issued later. -/
theorem task_le_of_begin {edge : P → Bool → V → V → Prop} {init : V} {m : Machine P V D W Q A} {i : Nat}
    (hsound : Sound programs edge init m) (horder : BeginsInOrder programs m (.begin i)) {e : Entry P V}
    (he : e ∈ m.log) (hsync : programs.synchronous e.program = false) : e.task ≤ i := by
  obtain ⟨t, ht, hbegun, hprogram⟩ := hsound.owners e he
  by_contra hlater
  have hmem : t ∈ m.tasks.drop (i + 1) := by
    refine List.mem_of_getElem? (i := e.task - (i + 1)) ?_
    rw [List.getElem?_drop, ← ht]
    congr 1
    omega
  have hwas := horder t hmem hbegun
  rw [hprogram, hsync] at hwas
  cases hwas

/-- **Coroutines that begin in order** make their first entries in that order. -/
theorem run_in_order {edge : P → Bool → V → V → Prop} {init : V} {d : D} {m : Machine P V D W Q A}
    {ops : List (Action P A)} (hbodies : ∀ p v, (programs.body p).Follows (edge p) true v)
    (horder : StepsMeet (step programs) (BeginsInOrder programs) { value := init, data := d } ops)
    (h : run (step programs) { value := init, data := d } ops = .ok m) :
    m.log.Pairwise (IssuedInOrder programs) := by
  refine run_along (P := fun _ (m : Machine P V D W Q A) => m.log.Pairwise (IssuedInOrder programs))
    List.Pairwise.nil ?_ h
  intro done o m m' hpre hrun hpairwise hstep
  have hsound : Sound programs edge init m := run_sound hbodies hrun
  cases o with
  | issue p =>
    simp only [step] at hstep
    split at hstep
    · cases hstep
    · cases hstep
      exact hpairwise
  | begin i =>
    have hcondition := horder done _ hpre m hrun
    obtain ⟨t, ht, -, rfl⟩ := begin_ok hstep
    apply pairwise_move hpairwise
    intro e he hsync _ _
    exact task_le_of_begin hsound hcondition he hsync
  | answer i a =>
    obtain ⟨t, q, next, -, -, -, rfl⟩ := answer_ok hstep
    apply pairwise_move hpairwise
    intro _ _ _ _ hfirst
    cases hfirst
  | perform p =>
    simp only [step] at hstep
    split at hstep
    · next hsync =>
      obtain ⟨t, ht, -, rfl⟩ := begin_ok hstep
      obtain rfl := Option.some.inj (ht.symm.trans (launched programs m p))
      apply pairwise_move hpairwise
      intro _ _ _ hasync _
      rw [show programs.synchronous p = false from hasync] at hsync
      cases hsync
    · cases hstep

end Machine

end BinderTracer.Lib
