import BinderTracer.Lib.Coroutine

/-!
# Rely and guarantee for coroutines

What may be assumed when a coroutine goes on after a call, and what it has to keep. A `Discipline` speaks about
the variable, the data, and a context that stands for the rest of the world: it says what others may do to the
variable and the data meanwhile, which updates and calls are allowed in a context, and which context an answered
call leaves. `Obeys` is the check of a coroutine's text against it; `advance_obeys` carries it over a segment, and
`Obeys.of_rely` over what others do while the coroutine waits.
-/

namespace BinderTracer.Lib

/-- The rules for a coroutine with variable `V`, data `D` and contexts `C`. -/
structure Discipline (V D W Q A C : Type) where
  /-- What holds of the variable and the data whenever a coroutine waits. -/
  valid : V → D → Prop
  /-- What others may do to the variable and the data while it waits. -/
  rely : V → D → V → D → Prop
  mayUpdate : W → D → C → Prop
  mayCall : Q → D → C → Prop
  /-- The context after a call, from its answer. -/
  after : Q → A → C → C

/-- The rules are stable: what others do, one after another, is what they may do, and it takes no call away. -/
structure Discipline.Stable {V D W Q A C : Type} (rules : Discipline V D W Q A C) : Prop where
  trans : ∀ {v d v' d' v'' d''}, rules.rely v d v' d' → rules.rely v' d' v'' d'' → rules.rely v d v'' d''
  mayCall : ∀ {v d v' d' q c}, rules.rely v d v' d' → rules.mayCall q d c → rules.mayCall q d' c

namespace Coroutine

variable {V D W Q A C : Type}

/-- The call in which a coroutine waits. -/
def pending : Coroutine V D W Q A → Option Q
  | call q _ => some q
  | _ => none

/-- The text keeps to the rules, from the given variable, data and context. -/
def Obeys (rules : Discipline V D W Q A C) (apply : W → D → D) : Coroutine V D W Q A → V → D → C → Prop
  | finish, v, d, _ => rules.valid v d
  | look next, v, d, c => (next v).Obeys rules apply v d c
  | get next, v, d, c => (next d).Obeys rules apply v d c
  | set v next, _, d, c => next.Obeys rules apply v d c
  | update w next, v, d, c => rules.mayUpdate w d c ∧ next.Obeys rules apply v (apply w d) c
  | call q next, v, d, c =>
    rules.valid v d ∧ rules.mayCall q d c ∧
      ∀ a v' d', rules.rely v d v' d' → rules.valid v' d' → (next a).Obeys rules apply v' d' (rules.after q a c)

variable {rules : Discipline V D W Q A C} {apply : W → D → D}

/-- A segment keeps to the rules, and leaves a text that does. -/
theorem advance_obeys {co : Coroutine V D W Q A} {v : V} {d : D} {c : C} (h : co.Obeys rules apply v d c)
    (left : V) :
    let seg := co.advance apply left v d
    seg.rest.Obeys rules apply seg.value seg.data c ∧ rules.valid seg.value seg.data := by
  induction co generalizing left v d with
  | finish => exact ⟨h, h⟩
  | look next ih => exact ih v h v
  | get next ih => exact ih d h left
  | set v' next ih => exact ih h v'
  | update w next ih => exact ih h.2 left
  | call q next => exact ⟨h, h.1⟩

/-- What every allowed update does to the data, a segment does. -/
theorem advance_guarantee {G : D → D → Prop} (hrefl : ∀ d, G d d)
    (htrans : ∀ {d d' d''}, G d d' → G d' d'' → G d d'') {c : C}
    (hupdate : ∀ w d, rules.mayUpdate w d c → G d (apply w d)) {co : Coroutine V D W Q A} {v : V} {d : D}
    (h : co.Obeys rules apply v d c) (left : V) : G d (co.advance apply left v d).data := by
  induction co generalizing left v d with
  | finish => exact hrefl d
  | look next ih => exact ih v h v
  | get next ih => exact ih d h left
  | set v' next ih => exact ih h v'
  | update w next ih => exact htrans (hupdate w d h.1) (ih h.2 left)
  | call q next => exact hrefl d

/-- A coroutine that waits still keeps to the rules after what others do. -/
theorem Obeys.of_rely (hstable : rules.Stable) {q : Q} {next : A → Coroutine V D W Q A} {v v' : V}
    {d d' : D} {c : C} (h : (call q next).Obeys rules apply v d c) (hrely : rules.rely v d v' d')
    (hvalid : rules.valid v' d') :
    (call q next).Obeys rules apply v' d' c :=
  ⟨hvalid, hstable.mayCall hrely h.2.1, fun a v'' d'' hmore hvalid' =>
    h.2.2 a v'' d'' (hstable.trans hrely hmore) hvalid'⟩

end Coroutine

/-- The task has begun and waits in a call. -/
def Task.inCall {P V D W Q A : Type} (t : Task P V D W Q A) : Bool := t.begun && t.rest.pending.isSome

/-! ### One coroutine at a time -/

theorem Task.inCall_of_rest {P V D W Q A : Type} {t : Task P V D W Q A} {q : Q} {next : A → Coroutine V D W Q A}
    (hbegun : t.begun = true) (hrest : t.rest = .call q next) : t.inCall = true := by
  rw [inCall, hbegun, hrest]
  rfl

namespace Machine

variable {P V D W Q A C : Type} {programs : Programs P V D W Q A} {rules : Discipline V D W Q A C}

/-- Launching a program adds a task. -/
theorem issue_ok {m m' : Machine P V D W Q A} {p : P} (h : m.step programs (.issue p) = .ok m') :
    m' = m.launch programs p := by
  simp only [step] at h
  split at h
  · cases h
  · exact (Except.ok.inj h).symm

/-- A program that runs in its caller adds a task that has begun. -/
theorem perform_ok {m m' : Machine P V D W Q A} {p : P} (h : m.step programs (.perform p) = .ok m') :
    programs.synchronous p = true ∧
      m' = (m.launch programs p).move programs m.tasks.length p true m.value (programs.body p) := by
  simp only [step] at h
  split at h
  · next hsync =>
    obtain ⟨t, ht, -, rfl⟩ := begin_ok h
    obtain rfl := Option.some.inj (ht.symm.trans (launched programs m p))
    exact ⟨hsync, rfl⟩
  · cases h

theorem tasks_launch {m : Machine P V D W Q A} (p : P) {j : Nat} {t : Task P V D W Q A}
    (ht : m.tasks[j]? = some t) : (m.launch programs p).tasks[j]? = some t :=
  (List.getElem?_append_left (List.getElem?_eq_some_iff.1 ht).1).trans ht

theorem tasks_move {m : Machine P V D W Q A} {i j : Nat} (hne : j ≠ i) (p : P) (first : Bool) (left : V)
    (co : Coroutine V D W Q A) : (m.move programs i p first left co).tasks[j]? = m.tasks[j]? :=
  List.getElem?_set_ne (Ne.symm hne)

/-- At most one task waits in a call, and what it still has to do keeps to the rules in a context that holds. -/
structure Serial (programs : Programs P V D W Q A) (rules : Discipline V D W Q A C) (holds : C → Prop)
    (m : Machine P V D W Q A) : Prop where
  waiting : ∀ (i : Nat) t, m.tasks[i]? = some t → t.begun = false → t.rest = programs.body t.program
  alone : ∀ (i j : Nat) t u, m.tasks[i]? = some t → m.tasks[j]? = some u → t.inCall = true → u.inCall = true → i = j
  valid : rules.valid m.value m.data
  obeys : ∀ (i : Nat) t, m.tasks[i]? = some t → t.inCall = true →
    ∃ c, holds c ∧ t.rest.Obeys rules programs.apply m.value m.data c

namespace Serial

variable {holds holds' : C → Prop} {m m' : Machine P V D W Q A}

theorem initial {v : V} {d : D} (hvalid : rules.valid v d) : Serial programs rules holds { value := v, data := d } where
  waiting := fun i t ht => by cases ht
  alone := fun i j t u ht => by cases ht
  valid := hvalid
  obeys := fun i t ht => by cases ht

/-- The rest of the world moves on and the context still holds. -/
theorem mono (h : Serial programs rules holds m) (hholds : ∀ c, holds c → holds' c) :
    Serial programs rules holds' m := by
  refine ⟨h.waiting, h.alone, h.valid, fun i t ht hcall => ?_⟩
  obtain ⟨c, hc, hobeys⟩ := h.obeys i t ht hcall
  exact ⟨c, hholds c hc, hobeys⟩

/-- While one task is in a call, the others are not. -/
theorem others (h : Serial programs rules holds m) {i : Nat} {t : Task P V D W Q A} (ht : m.tasks[i]? = some t)
    (hcall : t.inCall = true) (j : Nat) (u : Task P V D W Q A) (hne : j ≠ i) (hu : m.tasks[j]? = some u) :
    u.inCall = false := by
  rw [← Bool.not_eq_true]
  intro hother
  exact hne (h.alone j i u t hu ht hother hcall)

/-- **A segment**: a task runs up to its next call while no other is in one. -/
theorem move (hwaiting : ∀ (i : Nat) t, m.tasks[i]? = some t → t.begun = false → t.rest = programs.body t.program)
    {i : Nat} (hothers : ∀ (j : Nat) t, j ≠ i → m.tasks[j]? = some t → t.inCall = false) (p : P) (first : Bool)
    (left : V) {co : Coroutine V D W Q A} {c : C} (hc : holds c)
    (hobeys : co.Obeys rules programs.apply m.value m.data c) :
    Serial programs rules holds (m.move programs i p first left co) := by
  obtain ⟨hrest, hvalid⟩ := Coroutine.advance_obeys hobeys left
  have hme : ∀ (j : Nat) t, (m.move programs i p first left co).tasks[j]? = some t → t.inCall = true → j = i := by
    intro j t ht hcall
    rcases getElem?_set_cases ht with ⟨rfl, -⟩ | ⟨hne, hold⟩
    · rfl
    · rw [hothers j t hne hold] at hcall
      cases hcall
  refine ⟨fun j t ht hbegun => ?_, fun j k t u ht hu hcall hcall' => ?_, hvalid, fun j t ht hcall => ?_⟩
  · rcases getElem?_set_cases ht with ⟨-, rfl⟩ | ⟨-, hold⟩
    · cases hbegun
    · exact hwaiting j t hold hbegun
  · rw [hme j t ht hcall, hme k u hu hcall']
  · obtain rfl := hme j t ht hcall
    rcases getElem?_set_cases ht with ⟨-, rfl⟩ | ⟨hne, -⟩
    · exact ⟨c, hc, hrest⟩
    · exact absurd rfl hne

/-- A task begins while none is in a call. -/
theorem begin (h : Serial programs rules holds m)
    (hbodies : ∀ p v d c, rules.valid v d → (programs.body p).Obeys rules programs.apply v d c)
    (hquiet : ∀ t ∈ m.tasks, t.inCall = false) {c : C} (hc : holds c) {i : Nat}
    (hstep : m.begin programs i = .ok m') : Serial programs rules holds m' := by
  obtain ⟨t, ht, hbegun, rfl⟩ := begin_ok hstep
  refine move h.waiting (fun j u _ hu => hquiet u (List.mem_of_getElem? hu)) t.program true _ hc ?_
  rw [h.waiting i t ht hbegun]
  exact hbodies t.program m.value m.data c h.valid

/-- The call of a task is answered: the context after it has to hold. -/
theorem answer (h : Serial programs rules holds m) {i : Nat} {a : A} (hstep : m.step programs (.answer i a) = .ok m')
    (hcontext : ∀ t q next c, m.tasks[i]? = some t → t.begun = true → t.rest = .call q next → holds c →
      rules.mayCall q m.data c → holds' (rules.after q a c))
    (hrely : rules.rely m.value m.data m.value m.data) : Serial programs rules holds' m' := by
  obtain ⟨t, q, next, ht, hbegun, hrest, rfl⟩ := answer_ok hstep
  have hcall := Task.inCall_of_rest hbegun hrest
  obtain ⟨c, hc, hobeys⟩ := h.obeys i t ht hcall
  rw [hrest] at hobeys
  exact move h.waiting (h.others ht hcall) t.program false t.left (hcontext t q next c ht hbegun hrest hc hobeys.2.1)
    (hobeys.2.2 a m.value m.data hrely h.valid)

/-- Other tasks come that are in no call, and the variable and the data become what others may make of them. -/
theorem of_others (h : Serial programs rules holds m) (hstable : rules.Stable)
    (hnew : ∀ (j : Nat) t, m'.tasks[j]? = some t → m.tasks[j]? = some t ∨
      (t.inCall = false ∧ (t.begun = false → t.rest = programs.body t.program)))
    (hrely : rules.rely m.value m.data m'.value m'.data) (hvalid : rules.valid m'.value m'.data) :
    Serial programs rules holds m' := by
  have hold : ∀ (j : Nat) t, m'.tasks[j]? = some t → t.inCall = true → m.tasks[j]? = some t := by
    intro j t ht hcall
    rcases hnew j t ht with hold | ⟨hnot, -⟩
    · exact hold
    · rw [hnot] at hcall
      cases hcall
  refine ⟨fun j t ht hbegun => ?_, fun j k t u ht hu hcall hcall' => ?_, hvalid, fun j t ht hcall => ?_⟩
  · rcases hnew j t ht with hold | ⟨-, hwaiting⟩
    · exact h.waiting j t hold hbegun
    · exact hwaiting hbegun
  · exact h.alone j k t u (hold j t ht hcall) (hold k u hu hcall') hcall hcall'
  · obtain ⟨c, hc, hobeys⟩ := h.obeys j t (hold j t ht hcall) hcall
    refine ⟨c, hc, ?_⟩
    obtain ⟨p, begun, left, rest⟩ := t
    cases rest with
    | call q next => exact hobeys.of_rely hstable hrely hvalid
    | _ => simp [Task.inCall, Coroutine.pending] at hcall

theorem launch (h : Serial programs rules holds m) (hstable : rules.Stable)
    (hrely : rules.rely m.value m.data m.value m.data) (p : P) :
    Serial programs rules holds (m.launch programs p) := by
  refine h.of_others hstable (fun j t ht => ?_) hrely h.valid
  rcases getElem?_append_cases ht with ⟨-, rfl⟩ | hold
  · exact .inr ⟨rfl, fun _ => rfl⟩
  · exact .inl hold

/-- A program runs in its caller and ends there. -/
theorem perform (h : Serial programs rules holds m) (hstable : rules.Stable) (p : P)
    (hends : ((programs.body p).advance programs.apply m.value m.value m.data).rest = .finish)
    (hrely : rules.rely m.value m.data ((programs.body p).advance programs.apply m.value m.value m.data).value
      ((programs.body p).advance programs.apply m.value m.value m.data).data)
    (hvalid : rules.valid ((programs.body p).advance programs.apply m.value m.value m.data).value
      ((programs.body p).advance programs.apply m.value m.value m.data).data) :
    Serial programs rules holds
      ((m.launch programs p).move programs m.tasks.length p true m.value (programs.body p)) := by
  refine h.of_others hstable (fun j t ht => ?_) hrely hvalid
  rcases getElem?_set_cases ht with ⟨-, rfl⟩ | ⟨hne, hold⟩
  · refine .inr ⟨?_, fun hbegun => by cases hbegun⟩
    exact congrArg (fun rest => (Coroutine.pending rest).isSome) hends
  · rcases getElem?_append_cases hold with ⟨hlast, -⟩ | hold
    · exact absurd hlast hne
    · exact .inl hold

end Serial

end Machine

end BinderTracer.Lib
