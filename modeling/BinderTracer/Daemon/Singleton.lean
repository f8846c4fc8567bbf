import BinderTracer.Lib.Runs
import BinderTracer.Lib.Decimal

/-!
# One daemon at a time

`acquireSingleton` and `releasePidFile` of daemons that share a PID file. A step is one operation of one
process on the file or on the process table, or the death of a process; steps of different processes
interleave freely.

Check and write are separate operations, so two daemons can both pass the check. Among runs in which they do
not overlap (`Undisturbed`), a daemon past `acquireSingleton` has its pid in the file until it removes it, and
that is what turns the others away (`Exclusive`).
-/

namespace BinderTracer.Daemon

open BinderTracer.Lib

/-- Where a daemon process is. -/
inductive Phase where
  /-- Before `acquireSingleton` reads the PID file. -/
  | starting
  /-- The PID file names `oldPid`; its process is to be probed. -/
  | probing (oldPid : Int)
  /-- The check is passed; the own pid is to be written. -/
  | writing
  /-- Past a successful `acquireSingleton`. -/
  | running
  /-- In `releasePidFile`: the PID file names the own pid and is to be removed. -/
  | removing
  /-- `releasePidFile` has returned; the process is to exit. -/
  | leaving
  /-- Exited, killed or turned away. -/
  | gone
deriving DecidableEq, Repr

structure DaemonProcess where
  pid : UInt32
  phase : Phase
deriving DecidableEq, Repr

namespace DaemonProcess

/-- Alive and past a successful `acquireSingleton`. -/
def owns (p : DaemonProcess) : Bool :=
  match p.phase with
  | .running | .removing | .leaving => true
  | _ => false

/-- Between the read and the write of `acquireSingleton`. -/
def acquiring (p : DaemonProcess) : Bool :=
  match p.phase with
  | .probing _ | .writing => true
  | _ => false

/-- The text that a daemon writes to the PID file. -/
def pidText (p : DaemonProcess) : List Char := itoa p.pid.toNat ++ ['\n']

end DaemonProcess

/-- The pid that a PID file names. -/
def parsePid (text : List Char) : Option Int := atoi (trimSpace text)

/-- What becomes of a write of the PID file. -/
inductive WriteOutcome where
  | written
  | failed
  /-- The file was truncated before the write failed. -/
  | truncated
deriving DecidableEq, Repr

/-- The PID file and the daemon processes, in the order of their start. -/
structure Daemons where
  file : Option (List Char)
  processes : List DaemonProcess := []
deriving DecidableEq, Repr

namespace Daemons

/-- `os.ReadFile` of the PID file; it may fail although the file exists. -/
def readFile (s : Daemons) (failed : Bool) : Option (List Char) :=
  if failed then none else s.file

/-- `isProcessAlive`. Some other process than a daemon may have the pid. -/
def isProcessAlive (s : Daemons) (pid : Int) (other : Bool) : Bool :=
  if pid ≤ 1 then false
  else other || s.processes.any fun p => (p.pid.toNat : Int) == pid && p.phase != .gone

/-- `acquireSingleton` after the read. -/
def afterRead (data : Option (List Char)) : Phase :=
  match data.bind parsePid with
  | some oldPid => if 1 < oldPid then .probing oldPid else .writing
  | none => .writing

/-- `releasePidFile` after the read. -/
def afterOwnerRead (p : DaemonProcess) (data : Option (List Char)) : Phase :=
  if data.bind parsePid = some (p.pid.toNat : Int) then .removing else .leaving

/-- An operation of a daemon process. -/
inductive Operation where
  | read (failed : Bool)
  | probe (other : Bool)
  | write (outcome : WriteOutcome)
  /-- `Run` returns or `shutdown` is called: `releasePidFile` reads the file. -/
  | release (failed : Bool)
  | remove (failed : Bool)
  | exit
  | die
deriving DecidableEq, Repr

/-- What an operation does: where process `p` is after it, and what is in the PID file. -/
def perform (s : Daemons) (p : DaemonProcess) : Operation → Except Blocked (Phase × Option (List Char))
  | .read failed =>
    if p.phase = .starting then .ok (afterRead (s.readFile failed), s.file) else .error .blocked
  | .probe other =>
    match p.phase with
    | .probing oldPid => .ok (if s.isProcessAlive oldPid other then .gone else .writing, s.file)
    | _ => .error .blocked
  | .write outcome =>
    if p.phase = .writing then
      match outcome with
      | .written => .ok (.running, some p.pidText)
      | .failed => .ok (.gone, s.file)
      | .truncated => .ok (.gone, some [])
    else .error .blocked
  | .release failed =>
    if p.phase = .running then .ok (afterOwnerRead p (s.readFile failed), s.file) else .error .blocked
  | .remove failed =>
    if p.phase = .removing then .ok (.leaving, if failed then s.file else none) else .error .blocked
  | .exit => if p.phase = .leaving then .ok (.gone, s.file) else .error .blocked
  | .die => if p.phase = .gone then .error .blocked else .ok (.gone, s.file)

/-- Process `i`, which was `p`, goes on. -/
def move (s : Daemons) (i : Nat) (p : DaemonProcess) (phase : Phase) (file : Option (List Char)) : Daemons :=
  { file, processes := s.processes.set i { p with phase } }

inductive Action where
  /-- A daemon process starts, with a pid that no live process has. -/
  | start (pid : UInt32)
  | perform (i : Nat) (o : Operation)
deriving DecidableEq, Repr

def step (s : Daemons) : Action → Except Blocked Daemons
  | .start pid =>
    if s.processes.any fun p => p.pid == pid && p.phase != .gone then .error .blocked
    else .ok { s with processes := s.processes ++ [⟨pid, .starting⟩] }
  | .perform i o =>
    match s.processes[i]? with
    | some p =>
      match s.perform p o with
      | .ok (phase, file) => .ok (s.move i p phase file)
      | .error e => .error e
    | none => .error .blocked

/-- No two live daemons are past a successful `acquireSingleton`. -/
def AtMostOneOwner (s : Daemons) : Prop :=
  ∀ (i j : Nat) (p q : DaemonProcess), s.processes[i]? = some p → s.processes[j]? = some q →
    p.owns = true → q.owns = true → i = j

/-- A daemon reads the PID file, if it exists, while no other is inside `acquireSingleton` or between
`releasePidFile` and its exit; and no daemon is process 1. -/
def Undisturbed (s : Daemons) : Action → Prop
  | .start pid => 1 < pid.toNat
  | .perform _ (.read failed) =>
    (failed = true → s.file = none) ∧ ∀ p ∈ s.processes, p.acquiring = false ∧ p.phase ≠ .leaving
  | _ => True

instance (s : Daemons) : (a : Action) → Decidable (s.Undisturbed a)
  | .start pid => inferInstanceAs (Decidable (1 < pid.toNat))
  | .perform _ (.read failed) => inferInstanceAs (Decidable ((failed = true → s.file = none) ∧ _))
  | .perform _ (.probe _) => .isTrue trivial
  | .perform _ (.write _) => .isTrue trivial
  | .perform _ (.release _) => .isTrue trivial
  | .perform _ (.remove _) => .isTrue trivial
  | .perform _ .exit => .isTrue trivial
  | .perform _ .die => .isTrue trivial

/-! ### The invariant -/

/-- The PID file names the daemon, unless it has begun to give the file up. -/
def Named (file : Option (List Char)) (p : DaemonProcess) : Prop :=
  p.phase = .running ∨ p.phase = .removing → file.bind parsePid = some (p.pid.toNat : Int)

/-- What one daemon's progress says about another: who is inside `acquireSingleton` is there alone, who has
passed the check has no owner beside it, and who is about to probe will probe the owner. -/
structure Compatible (p q : DaemonProcess) : Prop where
  acquiring : p.acquiring = true → q.acquiring = false
  owns : p.owns = true → q.owns = false
  probing : ∀ oldPid, p.phase = .probing oldPid → q.owns = true → (q.pid.toNat : Int) = oldPid
  writing : p.phase = .writing → q.owns = false

structure Exclusive (s : Daemons) : Prop where
  pids : ∀ p ∈ s.processes, 1 < p.pid.toNat
  named : ∀ p ∈ s.processes, Named s.file p
  compatible : ∀ (i j : Nat) (p q : DaemonProcess), i ≠ j → s.processes[i]? = some p →
    s.processes[j]? = some q → Compatible p q

theorem parsePid_pidText (p : DaemonProcess) : parsePid p.pidText = some (p.pid.toNat : Int) :=
  atoi_trimSpace_itoa (Nat.lt_of_lt_of_le p.pid.toNat_lt (by decide))

theorem named_of_ne {file : Option (List Char)} {p : DaemonProcess} (hrunning : p.phase ≠ .running)
    (hremoving : p.phase ≠ .removing) : Named file p :=
  fun h => (h.elim hrunning hremoving).elim

theorem named_of_not_owns {file : Option (List Char)} {p : DaemonProcess} (h : p.owns = false) :
    Named file p := by
  apply named_of_ne
  · intro hphase
    simp [DaemonProcess.owns, hphase] at h
  · intro hphase
    simp [DaemonProcess.owns, hphase] at h

theorem Exclusive.atMostOneOwner {s : Daemons} (h : Exclusive s) : s.AtMostOneOwner := by
  intro i j p q hp hq hpo hqo
  by_contra hne
  have hnot := (h.compatible i j p q hne hp hq).owns hpo
  rw [hqo] at hnot
  cases hnot

theorem not_acquiring_of_owns {p : DaemonProcess} (h : p.owns = true) : p.acquiring = false := by
  obtain ⟨pid, phase⟩ := p
  cases phase <;> first | rfl | cases h

theorem afterRead_cases (data : Option (List Char)) :
    afterRead data = .writing ∨ ∃ oldPid, afterRead data = .probing oldPid := by
  unfold afterRead
  split
  · split
    · exact .inr ⟨_, rfl⟩
    · exact .inl rfl
  · exact .inl rfl

/-- A process that neither acquires nor owns is compatible with all. -/
theorem compatible_of_idle {p : DaemonProcess} (hacq : p.acquiring = false) (hown : p.owns = false)
    (q : DaemonProcess) : Compatible p q ∧ Compatible q p := by
  have hphase : ∀ oldPid, p.phase ≠ .probing oldPid := by
    intro oldPid hp
    simp [DaemonProcess.acquiring, hp] at hacq
  have hwriting : p.phase ≠ .writing := by
    intro hp
    simp [DaemonProcess.acquiring, hp] at hacq
  refine ⟨⟨?_, ?_, fun oldPid hp => absurd hp (hphase oldPid), fun hp => absurd hp hwriting⟩,
    ⟨fun _ => hacq, fun _ => hown, ?_, fun _ => hown⟩⟩
  · simp [hacq]
  · simp [hown]
  · simp [hown]

/-- **Step rule**: one process goes on. -/
theorem Exclusive.moves {s : Daemons} (h : Exclusive s) {i : Nat} {p : DaemonProcess}
    (hp : s.processes[i]? = some p) {phase : Phase} {file : Option (List Char)}
    (hnamed : Named file { p with phase })
    (hothers : ∀ (j : Nat) (q : DaemonProcess), j ≠ i → s.processes[j]? = some q →
      Named file q ∧ Compatible { p with phase } q ∧ Compatible q { p with phase }) :
    Exclusive (s.move i p phase file) := by
  refine ⟨fun q hq => ?_, fun q hq => ?_, fun j k q r hne hq hr => ?_⟩
  · obtain ⟨j, hj⟩ := List.mem_iff_getElem?.1 hq
    rcases getElem?_set_cases hj with ⟨-, rfl⟩ | ⟨-, hold⟩
    · exact h.pids p (List.mem_of_getElem? hp)
    · exact h.pids q (List.mem_of_getElem? hold)
  · obtain ⟨j, hj⟩ := List.mem_iff_getElem?.1 hq
    rcases getElem?_set_cases hj with ⟨-, rfl⟩ | ⟨hne, hold⟩
    · exact hnamed
    · exact (hothers j q hne hold).1
  · rcases getElem?_set_cases hq with ⟨rfl, rfl⟩ | ⟨hj, hqold⟩
    · rcases getElem?_set_cases hr with ⟨rfl, rfl⟩ | ⟨hk, hrold⟩
      · exact absurd rfl hne
      · exact (hothers k r hk hrold).2.1
    · rcases getElem?_set_cases hr with ⟨rfl, rfl⟩ | ⟨hk, hrold⟩
      · exact (hothers j q hj hqold).2.2
      · exact h.compatible j k q r hne hqold hrold

/-- An owner that stays one is to the others what it was. -/
theorem compatible_of_owner {p q : DaemonProcess} {phase : Phase} (hpq : Compatible p q) (hqp : Compatible q p)
    (hp : p.owns = true) (hown : ({ p with phase } : DaemonProcess).owns = true) :
    Compatible { p with phase } q ∧ Compatible q { p with phase } := by
  have hacq : ({ p with phase } : DaemonProcess).acquiring = false := not_acquiring_of_owns hown
  have hwriting : phase ≠ .writing := by
    rintro rfl
    cases hown
  have hprobing : ∀ oldPid, phase ≠ .probing oldPid := by
    rintro oldPid rfl
    cases hown
  have hq : q.owns = false := hpq.owns hp
  refine ⟨⟨?_, fun _ => hq, fun oldPid h => absurd h (hprobing oldPid), fun h => absurd h hwriting⟩,
    ⟨fun _ => hacq, ?_, fun oldPid h _ => hqp.probing oldPid h hp, fun h => ?_⟩⟩
  · simp [hacq]
  · simp [hq]
  · have := hqp.writing h
    rw [hp] at this
    cases this

/-- Who is about to probe the owner is compatible with it. -/
theorem compatible_of_probing {p q : DaemonProcess} (hp : p.phase = .probing q.pid.toNat) (hq : q.owns = true) :
    Compatible p q ∧ Compatible q p := by
  obtain ⟨pid, phase⟩ := p
  obtain rfl : phase = .probing q.pid.toNat := hp
  have hacq := not_acquiring_of_owns hq
  refine ⟨⟨fun _ => hacq, fun h => (Bool.false_ne_true h).elim, fun oldPid h _ => Phase.probing.inj h, ?_⟩,
    ⟨fun h => ?_, fun _ => rfl, fun _ _ h => (Bool.false_ne_true h).elim, fun _ => rfl⟩⟩
  · exact fun h => absurd h (by simp)
  · rw [hacq] at h
    cases h

namespace Exclusive

variable {s : Daemons} {i : Nat} {p : DaemonProcess}

/-- A process that is gone restricts nobody. -/
theorem goes (h : Exclusive s) (hp : s.processes[i]? = some p) :
    Exclusive (s.move i p .gone s.file) := by
  refine h.moves hp (named_of_not_owns rfl) fun j q _ hq => ?_
  exact ⟨h.named q (List.mem_of_getElem? hq), compatible_of_idle rfl rfl q⟩

/-- The read finds the pid of the owner, if there is one. -/
theorem reads (h : Exclusive s) (hp : s.processes[i]? = some p) {failed : Bool}
    (hcondition : s.Undisturbed (.perform i (.read failed))) :
    Exclusive (s.move i p (afterRead (s.readFile failed)) s.file) := by
  obtain ⟨hread, hundisturbed⟩ := hcondition
  refine h.moves hp ?_ fun j q _ hq => ⟨h.named q (List.mem_of_getElem? hq), ?_⟩
  · rcases afterRead_cases (s.readFile failed) with hafter | ⟨oldPid, hafter⟩ <;>
      exact named_of_ne (by simp [hafter]) (by simp [hafter])
  · have hmem := List.mem_of_getElem? hq
    obtain ⟨hacq, hleaving⟩ := hundisturbed q hmem
    cases hqo : q.owns with
    | false => exact (compatible_of_idle hacq hqo _).symm
    | true =>
      have hqphase : q.phase = .running ∨ q.phase = .removing := by
        cases hphase : q.phase <;> simp_all [DaemonProcess.owns]
      have hfile : s.file.bind parsePid = some (q.pid.toNat : Int) := h.named q hmem hqphase
      have hdata : s.readFile failed = s.file := by
        cases failed with
        | false => rfl
        | true =>
          rw [hread rfl] at hfile
          cases hfile
      have hlarge : (1 : Int) < q.pid.toNat := by exact_mod_cast h.pids q hmem
      refine compatible_of_probing ?_ hqo
      show afterRead (s.readFile failed) = _
      rw [hdata, afterRead, hfile]
      exact if_pos hlarge

/-- A probe that finds nobody alive leaves no owner. -/
theorem probes (h : Exclusive s) (hp : s.processes[i]? = some p) {oldPid : Int} (hphase : p.phase = .probing oldPid)
    {other : Bool} (hdead : s.isProcessAlive oldPid other = false) :
    Exclusive (s.move i p .writing s.file) := by
  have hacq : p.acquiring = true := by simp [DaemonProcess.acquiring, hphase]
  refine h.moves hp (named_of_not_owns rfl) fun j q hne hq => ?_
  have hmem := List.mem_of_getElem? hq
  have hpq := h.compatible i j p q hne.symm hp hq
  refine ⟨h.named q hmem, (compatible_of_idle (hpq.acquiring hacq) ?_ _).symm⟩
  by_contra hqo
  rw [Bool.not_eq_false] at hqo
  have hpid := hpq.probing oldPid hphase hqo
  have hlarge : ¬ oldPid ≤ 1 := by
    have := h.pids q hmem
    omega
  have hlive : q.phase ≠ .gone := by
    intro hgone
    simp [DaemonProcess.owns, hgone] at hqo
  rw [isProcessAlive, if_neg hlarge, Bool.or_eq_false_iff, List.any_eq_false] at hdead
  exact hdead.2 q hmem (by simp [hpid, hlive])

/-- Who writes the PID file has no owner beside it. -/
theorem writes (h : Exclusive s) (hp : s.processes[i]? = some p) (hphase : p.phase = .writing) {phase : Phase}
    {file : Option (List Char)} (hnamed : Named file { p with phase }) :
    Exclusive (s.move i p phase file) := by
  refine h.moves hp hnamed fun j q hne hq => ?_
  have hpq := h.compatible i j p q hne.symm hp hq
  have hqo : q.owns = false := hpq.writing hphase
  have hqacq : q.acquiring = false := hpq.acquiring (by simp [DaemonProcess.acquiring, hphase])
  exact ⟨named_of_not_owns hqo, (compatible_of_idle hqacq hqo _).symm⟩

/-- An owner gives the PID file up, or what is in it stays. -/
theorem releases (h : Exclusive s) (hp : s.processes[i]? = some p) (howns : p.owns = true) {phase : Phase}
    {file : Option (List Char)} (hstays : ({ p with phase } : DaemonProcess).owns = true)
    (hnamed : Named file { p with phase }) : Exclusive (s.move i p phase file) := by
  refine h.moves hp hnamed fun j q hne hq => ?_
  have hpq := h.compatible i j p q hne.symm hp hq
  exact ⟨named_of_not_owns (hpq.owns howns), compatible_of_owner hpq (h.compatible j i q p hne hq hp) howns hstays⟩

/-- **Every operation that meets the condition keeps the daemons apart.** -/
theorem performs (h : Exclusive s) (hp : s.processes[i]? = some p) {o : Operation}
    (hcondition : s.Undisturbed (.perform i o)) {phase : Phase} {file : Option (List Char)}
    (hok : s.perform p o = .ok (phase, file)) : Exclusive (s.move i p phase file) := by
  cases o with
  | read failed =>
    simp only [perform] at hok
    split at hok <;> cases hok
    exact h.reads hp hcondition
  | probe other =>
    simp only [perform] at hok
    split at hok
    · next oldPid hphase =>
      cases hok
      split
      · exact h.goes hp
      · next hdead => exact h.probes hp hphase (by simpa using hdead)
    · cases hok
  | write outcome =>
    simp only [perform] at hok
    split at hok
    · next hphase =>
      cases outcome with
      | written =>
        cases hok
        exact h.writes hp hphase fun _ => parsePid_pidText p
      | failed =>
        cases hok
        exact h.goes hp
      | truncated =>
        cases hok
        exact h.writes hp hphase (named_of_not_owns rfl)
    · cases hok
  | release failed =>
    simp only [perform] at hok
    split at hok
    · next hphase =>
      cases hok
      have howns : p.owns = true := by simp [DaemonProcess.owns, hphase]
      have hfile := h.named p (List.mem_of_getElem? hp) (.inl hphase)
      refine h.releases hp howns ?_ fun _ => hfile
      unfold afterOwnerRead
      split <;> rfl
    · cases hok
  | remove failed =>
    simp only [perform] at hok
    split at hok
    · next hphase =>
      cases hok
      have howns : p.owns = true := by simp [DaemonProcess.owns, hphase]
      exact h.releases hp howns rfl (named_of_ne (by simp) (by simp))
    · cases hok
  | exit =>
    simp only [perform] at hok
    split at hok <;> cases hok
    exact h.goes hp
  | die =>
    simp only [perform] at hok
    split at hok <;> cases hok
    exact h.goes hp

theorem starts (h : Exclusive s) {pid : UInt32} (hpid : 1 < pid.toNat) :
    Exclusive { s with processes := s.processes ++ [⟨pid, .starting⟩] } := by
  refine ⟨fun q hq => ?_, fun q hq => ?_, fun j k q r hne hq hr => ?_⟩
  · rcases List.mem_append.1 hq with hq | hq
    · exact h.pids q hq
    · rw [List.mem_singleton.1 hq]
      exact hpid
  · rcases List.mem_append.1 hq with hq | hq
    · exact h.named q hq
    · rw [List.mem_singleton.1 hq]
      exact named_of_not_owns rfl
  · rcases getElem?_append_cases hq with ⟨-, rfl⟩ | hq
    · exact (compatible_of_idle rfl rfl r).1
    · rcases getElem?_append_cases hr with ⟨-, rfl⟩ | hr
      · exact (compatible_of_idle rfl rfl q).2
      · exact h.compatible j k q r hne hq hr

theorem step (h : Exclusive s) {t : Daemons} {a : Action} (hcondition : s.Undisturbed a)
    (hstep : s.step a = .ok t) : Exclusive t := by
  cases a with
  | start pid =>
    simp only [Daemons.step] at hstep
    split at hstep <;> cases hstep
    exact h.starts hcondition
  | perform i o =>
    simp only [Daemons.step] at hstep
    split at hstep
    · next p hp =>
      split at hstep
      · next phase file hok =>
        cases hstep
        exact h.performs hp hcondition hok
      · cases hstep
    · cases hstep

end Exclusive

/-- **At most one daemon owns the probes**, at every moment of every run in which no daemon reads the PID file
while another is inside `acquireSingleton` or between `releasePidFile` and its exit. -/
theorem atMostOneOwner_of_undisturbed {file : Option (List Char)} {actions : List Action}
    (hsteps : StepsMeet step Undisturbed { file } actions) :
    ∀ done, done <+: actions → ∀ s, run step { file } done = .ok s → s.AtMostOneOwner := by
  intro done hdone s hrun
  have hstart : Exclusive { file } := by
    constructor <;> simp
  refine Exclusive.atMostOneOwner (run_along (P := fun _ s => Exclusive s) hstart ?_ hrun)
  intro before a m t hpre hm hexclusive hstep
  exact hexclusive.step (hsteps before a (hpre.trans hdone) m hm) hstep

/-- A stale PID file, a daemon that takes over, one that is turned away, and one that comes after a crash. -/
def takeover : List Action :=
  [.start 100, .perform 0 (.read false), .perform 0 (.probe false), .perform 0 (.write .written),
    .start 101, .perform 1 (.read false), .perform 1 (.probe false), .perform 0 .die,
    .start 102, .perform 2 (.read false), .perform 2 (.probe false), .perform 2 (.write .written),
    .perform 2 (.release false), .perform 2 (.remove false), .perform 2 .exit]

theorem takeover_atMostOneOwner :
    (∃ s, run step { file := some ['7', '7', '\n'] } takeover = .ok s ∧ s.file = none ∧
      s.processes = [⟨100, .gone⟩, ⟨101, .gone⟩, ⟨102, .gone⟩]) ∧
    ∀ done, done <+: takeover → ∀ s, run step { file := some ['7', '7', '\n'] } done = .ok s →
      s.AtMostOneOwner :=
  ⟨exists_of_endsIn (by decide +kernel), atMostOneOwner_of_undisturbed (stepsMeet_of_eval (by decide +kernel))⟩

/-- Two daemons read the PID file before either writes it. -/
def bothRead : List Action :=
  [.start 100, .start 101, .perform 0 (.read false), .perform 1 (.read false), .perform 0 (.write .written),
    .perform 1 (.write .written)]

theorem bothRead_two_owners :
    ∃ s, run step { file := none } bothRead = .ok s ∧ ¬ s.AtMostOneOwner := by
  obtain ⟨s, hrun, hprocesses⟩ : ∃ s, run step { file := none } bothRead = .ok s ∧
      s.processes = [⟨100, .running⟩, ⟨101, .running⟩] := exists_of_endsIn (by decide +kernel)
  refine ⟨s, hrun, fun hone => ?_⟩
  have hsame : (0 : Nat) = 1 := by
    apply hone 0 1 ⟨100, .running⟩ ⟨101, .running⟩ <;> simp [hprocesses, DaemonProcess.owns]
  cases hsame

end Daemons

end BinderTracer.Daemon
