import Mathlib.Data.List.Induction

/-!
# Runs of a fallible transition function

`run step s ops` performs the operations `ops` one after another from `s`; the first one that
fails ends the run. Safety properties come from `run_invariant` (what one step preserves, a run
preserves) and statements that follow a given schedule from `run_schedule`, whose hypothesis
speaks about the operations performed so far.
-/

namespace BinderTracer.Lib

/-- Why an operation of a system cannot be performed: it is not possible in the state. -/
inductive Blocked where
  | blocked
deriving DecidableEq, Repr

/-- What succeeded with a result that was then converted. -/
theorem exists_of_map_eq_ok {E A B : Type} {x : Except E A} {f : A → B} {b : B} (h : x.map f = .ok b) :
    ∃ a, x = .ok a ∧ f a = b := by
  cases x with
  | error e => cases h
  | ok a => exact ⟨a, rfl, Except.ok.inj h⟩

section
variable {S O E : Type} (step : S → O → Except E S)

/-- The state after the operations `ops`, or the failure that ended the run. -/
def run (s : S) (ops : List O) : Except E S := ops.foldlM step s

@[simp] theorem run_nil (s : S) : run step s [] = .ok s := rfl

theorem run_cons (s : S) (o : O) (ops : List O) :
    run step s (o :: ops) = (step s o).bind fun s' => run step s' ops := rfl

theorem run_append (s : S) (ops more : List O) :
    run step s (ops ++ more) = (run step s ops).bind fun s' => run step s' more :=
  List.foldlM_append

theorem run_snoc (s : S) (ops : List O) (o : O) :
    run step s (ops ++ [o]) = (run step s ops).bind fun s' => step s' o := by
  rw [run_append]
  cases run step s ops with
  | error e => rfl
  | ok s' =>
    change run step s' [o] = step s' o
    rw [run_cons]
    cases step s' o <;> rfl

/-- Running the images of operations is running the operations with the composed step. -/
theorem run_map {Q : Type} (f : Q → O) (s : S) (qs : List Q) :
    run step s (qs.map f) = run (fun s q => step s (f q)) s qs :=
  List.foldlM_map

/-- **Refinement rule**: a system whose operations are passed on to another one, or skipped, runs as the other
one does on what is passed on. -/
theorem run_filterMap {Q : Type} {outer : S → Q → Except E S} {f : Q → Option O}
    (skipped : ∀ s q, f q = none → outer s q = .ok s)
    (passed : ∀ s q o, f q = some o → outer s q = step s o) (s : S) (qs : List Q) :
    run outer s qs = run step s (qs.filterMap f) := by
  induction qs generalizing s with
  | nil => rfl
  | cons q qs ih =>
    cases hq : f q with
    | none =>
      rw [run_cons, skipped s q hq, List.filterMap_cons_none hq]
      exact ih s
    | some o =>
      rw [run_cons, passed s q o hq, List.filterMap_cons_some hq, run_cons]
      cases step s o with
      | error e => rfl
      | ok t => exact ih t

variable {step}

/-- A run of `ops ++ [o]` that succeeds is a run of `ops` followed by one step. -/
theorem run_snoc_ok {s t : S} {ops : List O} {o : O} (h : run step s (ops ++ [o]) = .ok t) :
    ∃ m, run step s ops = .ok m ∧ step m o = .ok t := by
  rw [run_snoc] at h
  cases hm : run step s ops with
  | error e => rw [hm] at h; cases h
  | ok m => rw [hm] at h; exact ⟨m, rfl, h⟩

/-- **Invariant rule**: what every step preserves holds at the end of every run. -/
theorem run_invariant {Inv : S → Prop}
    (preserved : ∀ s o t, Inv s → step s o = .ok t → Inv t) {s t : S} {ops : List O}
    (start : Inv s) (h : run step s ops = .ok t) : Inv t := by
  induction ops using List.reverseRecOn generalizing t with
  | nil => cases h; exact start
  | append_singleton ops o ih =>
    obtain ⟨m, hm, hs⟩ := run_snoc_ok h
    exact preserved m o t (ih hm) hs

theorem run_append_ok {s t : S} {ops more : List O} (h : run step s (ops ++ more) = .ok t) :
    ∃ m, run step s ops = .ok m ∧ run step m more = .ok t := by
  rw [run_append] at h
  cases hm : run step s ops with
  | error e => rw [hm] at h; cases h
  | ok m => rw [hm] at h; exact ⟨m, rfl, h⟩

theorem run_cons_ok {s t : S} {o : O} {ops : List O} (h : run step s (o :: ops) = .ok t) :
    ∃ m, step s o = .ok m ∧ run step m ops = .ok t := by
  rw [run_cons] at h
  cases hm : step s o with
  | error e => rw [hm] at h; cases h
  | ok m => rw [hm] at h; exact ⟨m, rfl, h⟩

/-- **Invariant rule with the operations performed so far**, for every run that succeeds. -/
theorem run_history {P : List O → S → Prop} {s : S} (start : P [] s)
    (preserved : ∀ ops m o t, run step s ops = .ok m → P ops m → step m o = .ok t →
      P (ops ++ [o]) t) {t : S} {ops : List O} (h : run step s ops = .ok t) : P ops t := by
  induction ops using List.reverseRecOn generalizing t with
  | nil => cases h; exact start
  | append_singleton ops o ih =>
    obtain ⟨m, hm, hs⟩ := run_snoc_ok h
    exact preserved ops m o t hm (ih hm) hs

/-- Every operation of a run meets a condition on the state in which it is performed. -/
def StepsMeet (step : S → O → Except E S) (C : S → O → Prop) (s : S) (ops : List O) : Prop :=
  ∀ done o, done ++ [o] <+: ops → ∀ m, run step s done = .ok m → C m o

/-- **Invariant rule along a run**: each step may use that it is one of the run. -/
theorem run_along {P : List O → S → Prop} {s : S} {ops : List O} (start : P [] s)
    (next : ∀ done o m t, done ++ [o] <+: ops → run step s done = .ok m → P done m → step m o = .ok t →
      P (done ++ [o]) t) {t : S} (h : run step s ops = .ok t) : P ops t := by
  suffices hall : ∀ done, done <+: ops → ∀ m, run step s done = .ok m → P done m from
    hall ops List.prefix_rfl t h
  intro done
  induction done using List.reverseRecOn with
  | nil => rintro - m ⟨⟩; exact start
  | append_singleton done o ih =>
    intro hpre t ht
    obtain ⟨m, hm, hstep⟩ := run_snoc_ok ht
    exact next done o m t hpre hm (ih ((List.prefix_append done [o]).trans hpre) m hm) hstep

/-- What an observer notes who sees each step of a run: the state before it, the operation and the
state after it. -/
def observations {A : Type} (step : S → O → Except E S) (note : S → O → S → List A) : S → List O → List A
  | _, [] => []
  | s, o :: ops =>
    match step s o with
    | .ok t => note s o t ++ observations step note t ops
    | .error _ => []

theorem observations_snoc {A : Type} {note : S → O → S → List A} {s m t : S} {ops : List O} {o : O}
    (hrun : run step s ops = .ok m) (hstep : step m o = .ok t) :
    observations step note s (ops ++ [o]) = observations step note s ops ++ note m o t := by
  induction ops generalizing s with
  | nil =>
    cases hrun
    simp only [List.nil_append, observations, hstep, List.append_nil]
  | cons first ops ih =>
    rw [run_cons] at hrun
    cases hfirst : step s first with
    | error e =>
      rw [hfirst] at hrun
      cases hrun
    | ok s' =>
      rw [hfirst] at hrun
      simp only [List.cons_append, observations, hfirst]
      rw [ih hrun, List.append_assoc]

/-- **Schedule rule**: if each operation of the schedule `ops` succeeds from every state that
satisfies the property of the operations before it, the schedule succeeds up to every point. -/
theorem run_schedule {P : List O → S → Prop} {s : S} {ops : List O} (start : P [] s)
    (next : ∀ done o, done ++ [o] <+: ops → ∀ m, P done m →
      ∃ t, step m o = .ok t ∧ P (done ++ [o]) t) (done : List O) (hdone : done <+: ops) :
    ∃ t, run step s done = .ok t ∧ P done t := by
  revert hdone
  induction done using List.reverseRecOn with
  | nil => exact fun _ => ⟨s, rfl, start⟩
  | append_singleton done o ih =>
    intro hpre
    obtain ⟨m, hm, hP⟩ := ih ((List.prefix_append done [o]).trans hpre)
    obtain ⟨t, ht, hPt⟩ := next done o hpre m hP
    refine ⟨t, ?_, hPt⟩
    rw [run_snoc, hm]
    exact ht

/-- **Schedule rule for a step that cannot fail.** -/
theorem foldl_schedule {step : S → O → S} {P : List O → S → Prop} {s : S} {ops : List O} (start : P [] s)
    (next : ∀ done o, done ++ [o] <+: ops → P done (done.foldl step s) →
      P (done ++ [o]) (step (done.foldl step s) o)) (done : List O) (hdone : done <+: ops) :
    P done (done.foldl step s) := by
  revert hdone
  induction done using List.reverseRecOn with
  | nil => exact fun _ => start
  | append_singleton done o ih =>
    intro hpre
    rw [List.foldl_append]
    exact next done o hpre (ih ((List.prefix_append done [o]).trans hpre))

/-- The operation that comes after `done` in a schedule. -/
theorem next_in_schedule {ops done : List O} {o : O} (h : done ++ [o] <+: ops) :
    done = ops.take done.length ∧ ops[done.length]? = some o := by
  obtain ⟨rest, rfl⟩ := h
  simp

/-- Whether a run succeeds in a state that satisfies `p`; a concrete run is settled by evaluating this. -/
def endsIn (p : S → Bool) : Except E S → Bool
  | .ok s => p s
  | .error _ => false

theorem exists_of_endsIn {x : Except E S} {P : S → Prop} [DecidablePred P]
    (h : endsIn (fun s => decide (P s)) x = true) : ∃ s, x = .ok s ∧ P s := by
  cases x with
  | error e => cases h
  | ok s => exact ⟨s, rfl, of_decide_eq_true h⟩

/-- Evaluates whether every operation of a run meets a condition. -/
def stepsMeet (step : S → O → Except E S) (C : S → O → Prop) [∀ s o, Decidable (C s o)] : S → List O → Bool
  | _, [] => true
  | s, o :: ops =>
    decide (C s o) &&
      match step s o with
      | .ok t => stepsMeet step C t ops
      | .error _ => true

theorem stepsMeet_of_eval {C : S → O → Prop} [∀ s o, Decidable (C s o)] {s : S} {ops : List O}
    (h : stepsMeet step C s ops = true) : StepsMeet step C s ops := by
  induction ops generalizing s with
  | nil =>
    intro done o hpre
    exact absurd (List.prefix_nil.1 hpre) (by simp)
  | cons o ops ih =>
    rw [stepsMeet, Bool.and_eq_true] at h
    obtain ⟨hfirst, hrest⟩ := h
    intro done o' hpre m hm
    cases done with
    | nil =>
      cases hm
      obtain rfl : o' = o := (List.cons_prefix_cons.1 hpre).1
      exact of_decide_eq_true hfirst
    | cons d done =>
      obtain ⟨rfl, hrestPre⟩ := List.cons_prefix_cons.1 hpre
      rw [run_cons] at hm
      cases hstep : step s d with
      | error e =>
        rw [hstep] at hm
        cases hm
      | ok t =>
        rw [hstep] at hrest hm
        exact ih hrest done o' hrestPre m hm

end

/-! ### Participants

The participants of a system are a list in the order of their arrival; each goes on by replacing its entry. -/

section
variable {X : Type}

/-- Who a participant is after the one at `i` has gone on. -/
theorem getElem?_set_cases {xs : List X} {i j : Nat} {y z : X} (h : (xs.set i y)[j]? = some z) :
    (j = i ∧ z = y) ∨ (j ≠ i ∧ xs[j]? = some z) := by
  by_cases hj : j = i
  · subst hj
    rw [List.getElem?_set] at h
    simp only [if_true] at h
    split at h
    · exact .inl ⟨rfl, (Option.some.inj h).symm⟩
    · cases h
  · rw [List.getElem?_set_ne (Ne.symm hj)] at h
    exact .inr ⟨hj, h⟩

/-- Who a participant is after one has arrived. -/
theorem getElem?_append_cases {xs : List X} {j : Nat} {y z : X} (h : (xs ++ [y])[j]? = some z) :
    (j = xs.length ∧ z = y) ∨ xs[j]? = some z := by
  rw [List.getElem?_append] at h
  split at h
  · exact .inr h
  · next hlen =>
    have hj := (List.getElem?_eq_some_iff.1 h).1
    simp only [List.length_singleton] at hj
    exact .inl ⟨by omega, List.mem_singleton.1 (List.mem_of_getElem? h)⟩

/-- How many participants satisfy `p` after one has gone on. -/
theorem countP_set_add {p : X → Bool} {xs : List X} {i : Nat} {x : X} (hx : xs[i]? = some x) (y : X) :
    (xs.set i y).countP p + (if p x then 1 else 0) = xs.countP p + (if p y then 1 else 0) := by
  obtain ⟨hi, rfl⟩ := List.getElem?_eq_some_iff.1 hx
  have hpos : p xs[i] = true → 0 < xs.countP p :=
    fun hp => List.countP_pos_iff.2 ⟨xs[i], List.getElem_mem hi, hp⟩
  rw [List.countP_set hi]
  split
  · next hp =>
    have := hpos hp
    omega
  · rfl

/-- What the participants hold, after one has gone on. -/
theorem filterMap_set_perm {Y : Type} {f : X → Option Y} {xs : List X} {i : Nat} {x : X} (hx : xs[i]? = some x)
    (y : X) : ((f y).toList ++ xs.filterMap f).Perm ((f x).toList ++ (xs.set i y).filterMap f) := by
  obtain ⟨hi, rfl⟩ := List.getElem?_eq_some_iff.1 hx
  have hset : xs.set i y = xs.take i ++ y :: xs.drop (i + 1) := List.set_eq_take_append_cons_drop ▸ if_pos hi
  have hcons : ∀ (z : X) (zs : List X), (z :: zs).filterMap f = (f z).toList ++ zs.filterMap f := by
    intro z zs
    rw [List.filterMap_cons]
    cases f z <;> rfl
  nth_rewrite 1 [← List.take_append_drop i xs, List.drop_eq_getElem_cons hi]
  rw [hset, List.filterMap_append, List.filterMap_append, hcons, hcons]
  exact ((List.perm_append_comm_assoc _ _ _).append_left _).trans
    ((List.perm_append_comm_assoc _ _ _).trans ((List.perm_append_comm_assoc _ _ _).append_left _))

/-! ### Histories -/

/-- Entries that come in the order of their keys are those of one key after those of another. -/
theorem flatMap_filter_keys {key : X → Nat} {xs : List X} (sorted : (xs.map key).Pairwise (· ≤ ·)) (n : Nat) :
    (List.range n).flatMap (fun k => xs.filter fun x => key x = k) = xs.filter fun x => key x < n := by
  induction n with
  | zero => simp
  | succ n ih =>
    rw [List.range_succ, List.flatMap_append, ih, List.flatMap_singleton]
    clear ih
    induction xs with
    | nil => rfl
    | cons x xs ih =>
      obtain ⟨hle, sorted⟩ := List.pairwise_cons.1 sorted
      simp only [List.filter_cons, decide_eq_true_eq]
      rcases Nat.lt_trichotomy (key x) n with hlt | heq | hgt
      · rw [if_pos hlt, if_neg (by omega), if_pos (by omega), List.cons_append, ih sorted]
      · -- no entry after this one has a smaller key
        have hnone : xs.filter (fun y => key y < n) = [] := by
          rw [List.filter_eq_nil_iff]
          intro y hy
          have := hle (key y) (List.mem_map_of_mem hy)
          simp only [decide_eq_true_eq]
          omega
        rw [if_neg (by omega), if_pos heq, if_pos (by omega), ← ih sorted, hnone]
        rfl
      · rw [if_neg (by omega), if_neg (by omega), if_neg (by omega), ih sorted]

/-- Every entry of a history satisfies a property of what came before it. -/
def EachAfter (P : List X → X → Prop) (xs : List X) : Prop :=
  ∀ before x after, xs = before ++ x :: after → P before x

theorem EachAfter.nil {P : List X → X → Prop} : EachAfter P [] := by
  intro before x after h
  simp at h

theorem EachAfter.snoc {P : List X → X → Prop} {xs : List X} (h : EachAfter P xs) {x : X} (hx : P xs x) :
    EachAfter P (xs ++ [x]) := by
  intro before y after heq
  rcases List.eq_nil_or_concat after with rfl | ⟨after, z, rfl⟩
  · obtain ⟨rfl, hlast⟩ := List.append_inj' heq rfl
    cases hlast
    exact hx
  · rw [List.concat_eq_append, ← List.cons_append, ← List.append_assoc] at heq
    exact h before y after (List.append_inj' heq rfl).1

end

end BinderTracer.Lib
