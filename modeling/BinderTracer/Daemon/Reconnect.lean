import BinderTracer.Lib.Runs

/-!
# Reconnecting to the app

The connection of the daemon's `SocketClient`. Its goroutines share `running`, `reconnecting` and `conn`
under one mutex. A step is one lock-protected section together with what its goroutine does up to the next
one, for any outcome of the read, the write or the dial in between; sections of different goroutines
interleave freely, and `Stop` may be called at any time.

`running` and `conn` determine the rest while the client runs: it is reconnecting, with exactly one
`reconnectLoop`, when there is no connection, and without one otherwise (`Disciplined`).
-/

namespace BinderTracer.Daemon

open BinderTracer.Lib

/-- A connection, named by the number of its dial. -/
abbrev Conn := Nat

abbrev reconnectRetryCount : Nat := 3

/-- The outcome of a read, a write or a dial. -/
inductive Outcome where
  | success
  | endOfFile
  | failure
deriving DecidableEq, Repr

/-- A goroutine, by the lock-protected section that it enters next. -/
inductive Goroutine where
  /-- `readLoop`, at the test of `running` in its head. -/
  | readLoop (conn : Conn)
  /-- `readLoop`, at the test of `running` before a read error is logged. -/
  | readError (conn : Conn)
  /-- `readLoop`, in `handleConnectionLoss`. -/
  | readLoss (conn : Conn)
  /-- `broadcastEvents`, at `currentConn` for its next event. -/
  | broadcast
  /-- `broadcastEvents`, in `handleConnectionLoss`. -/
  | broadcastLoss (conn : Conn)
  /-- `reconnectLoop`, at the test of `running` in round `i`. -/
  | round (i : Nat)
  /-- `reconnectLoop`, with a connection to install. -/
  | dialled (conn : Conn)
  /-- `reconnectLoop`, after its last round. -/
  | giveUp
  | returned
deriving DecidableEq, Repr

/-- A `reconnectLoop` that has not returned, or has not entered its first section yet. -/
def Goroutine.isReconnectLoop : Goroutine → Bool
  | round _ | dialled _ | giveUp => true
  | _ => false

/-- A report to `handleConnectionLoss`: the connection that failed, the one that was installed, the one that
was installed afterwards, and those that were closed. -/
structure Loss where
  failed : Conn
  found : Option Conn
  left : Option Conn
  closed : List Conn
deriving DecidableEq, Repr

/-- A report acts on the reported connection only, and only if it is the installed one. -/
def Loss.Harmless (l : Loss) : Prop :=
  (l.left = l.found ∧ l.closed = []) ∨ (l.found = some l.failed ∧ l.closed = [l.failed])

/-- The client's fields, its goroutines, the number of dials that succeeded, and what has happened: the
connections installed, the losses reported, and how often `onDisconnectFatal` was invoked. -/
structure SocketClient where
  running : Bool := false
  reconnecting : Bool := false
  conn : Option Conn := none
  eventLoopStarted : Bool := false
  stopped : Bool := false
  goroutines : List Goroutine := []
  dials : Nat := 0
  installed : List Conn := []
  losses : List Loss := []
  fatal : Nat := 0
deriving DecidableEq, Repr

namespace SocketClient

/-- The number of live `reconnectLoop`s. -/
def reconnectLoops (s : SocketClient) : Nat := s.goroutines.countP Goroutine.isReconnectLoop

/-- `Connect`, when it obtains a connection. -/
def connect (s : SocketClient) : SocketClient :=
  { s with
    running := true
    reconnecting := false
    conn := some s.dials
    eventLoopStarted := true
    goroutines := s.goroutines ++ (if s.eventLoopStarted then [] else [.broadcast]) ++ [.readLoop s.dials]
    dials := s.dials + 1
    installed := s.installed ++ [s.dials] }

/-- `Stop`. -/
def stop (s : SocketClient) : SocketClient :=
  { s with running := false, reconnecting := false, conn := none, stopped := true }

/-- Goroutine `i` goes on to its next section. -/
def move (s : SocketClient) (i : Nat) (g : Goroutine) : SocketClient :=
  { s with goroutines := s.goroutines.set i g }

/-- A report that changes nothing. -/
def ignoreLoss (s : SocketClient) (failed : Conn) : SocketClient :=
  { s with losses := s.losses ++ [⟨failed, s.conn, s.conn, []⟩] }

/-- `handleConnectionLoss`. -/
def handleConnectionLoss (s : SocketClient) (failed : Conn) : SocketClient :=
  if s.running = false ∨ s.conn ≠ some failed then s.ignoreLoss failed
  else if s.reconnecting then s.ignoreLoss failed
  else
    { s with
      reconnecting := true
      conn := none
      goroutines := s.goroutines ++ [.round 1]
      losses := s.losses ++ [⟨failed, s.conn, none, [failed]⟩] }

/-- `readLoop` on `conn`: what it does after the test of `running`. -/
def readFrame (conn : Conn) : Outcome → Goroutine
  -- the frame goes to `handleCommand`, which does not touch the mutex
  | .success => .readLoop conn
  | .endOfFile => .readLoss conn
  | .failure => .readError conn

/-- `broadcastEvents` with the connection that `currentConn` returned. -/
def sendEvent : Option Conn → Outcome → Goroutine
  | none, _ => .broadcast
  | some _, .success => .broadcast
  | some conn, _ => .broadcastLoss conn

/-- A round of `reconnectLoop` that found the client running: dial. -/
def dial (s : SocketClient) (i round : Nat) : Outcome → SocketClient
  | .success => { s.move i (.dialled s.dials) with dials := s.dials + 1 }
  | _ => s.move i (if round < reconnectRetryCount then .round (round + 1) else .giveUp)

/-- `reconnectLoop` after a successful dial. A connection that comes too late is closed. -/
def install (s : SocketClient) (conn : Conn) : SocketClient :=
  if s.running then
    { s with
      conn := some conn
      reconnecting := false
      goroutines := s.goroutines ++ [.readLoop conn]
      installed := s.installed ++ [conn] }
  else s

/-- `reconnectLoop` after its last round. -/
def abandon (s : SocketClient) : SocketClient :=
  if s.running then { s with reconnecting := false, running := false, fatal := s.fatal + 1 }
  else { s with reconnecting := false }

/-- Goroutine `i` enters its next section and goes on to the one after it. -/
def enter (s : SocketClient) (i : Nat) (outcome : Outcome) : Except Blocked SocketClient :=
  match s.goroutines[i]? with
  | some (.readLoop conn) => .ok (s.move i (if s.running then readFrame conn outcome else .returned))
  | some (.readError conn) => .ok (s.move i (.readLoss conn))
  | some (.readLoss conn) => .ok ((s.handleConnectionLoss conn).move i .returned)
  | some .broadcast => .ok (s.move i (sendEvent s.conn outcome))
  | some (.broadcastLoss conn) => .ok ((s.handleConnectionLoss conn).move i .broadcast)
  | some (.round round) => .ok (if s.running then s.dial i round outcome else s.move i .returned)
  | some (.dialled conn) => .ok ((s.install conn).move i .returned)
  | some .giveUp => .ok (s.abandon.move i .returned)
  | some .returned => .error .blocked
  | none => .error .blocked

/-- What can happen. -/
inductive Action where
  | stop
  | enter (i : Nat) (outcome : Outcome)
  /-- `broadcastEvents` finds `stopCh` closed. -/
  | quit (i : Nat)
deriving DecidableEq, Repr

def step (s : SocketClient) : Action → Except Blocked SocketClient
  | .stop => .ok s.stop
  | .enter i outcome => s.enter i outcome
  | .quit i =>
    if s.goroutines[i]? = some .broadcast ∧ s.stopped = true then .ok (s.move i .returned)
    else .error .blocked

/-- After one successful `Connect`. -/
def connected : SocketClient := connect {}

/-! ### The invariant -/

/-- While the client runs it is reconnecting, with one loop for it, exactly when it has no connection; when it
does not run, there is nothing left of the connection. -/
structure Disciplined (s : SocketClient) : Prop where
  reconnecting : s.running = true → s.reconnecting = s.conn.isNone
  exact_loops : s.running = true → s.reconnectLoops = if s.conn.isNone then 1 else 0
  not_fatal : s.running = true → s.fatal = 0
  down : s.running = false → s.conn = none
  loops_le : s.reconnectLoops ≤ 1
  fatal_le : s.fatal ≤ 1
  losses : ∀ l ∈ s.losses, l.Harmless

theorem reconnectLoops_move {s : SocketClient} {i : Nat} {g : Goroutine} (hg : s.goroutines[i]? = some g)
    (g' : Goroutine) :
    (s.move i g').reconnectLoops + (if g.isReconnectLoop then 1 else 0) =
      s.reconnectLoops + (if g'.isReconnectLoop then 1 else 0) :=
  countP_set_add hg g'

theorem disciplined_connected : Disciplined connected := by
  constructor <;> simp [connected, connect, reconnectLoops, Goroutine.isReconnectLoop]

namespace Disciplined

variable {s : SocketClient}

theorem of_down (hdown : s.running = false) (hconn : s.conn = none) (hloops : s.reconnectLoops ≤ 1)
    (hfatal : s.fatal ≤ 1) (hlosses : ∀ l ∈ s.losses, l.Harmless) : Disciplined s := by
  have hnot : ¬ s.running = true := by simp [hdown]
  exact ⟨fun hup => absurd hup hnot, fun hup => absurd hup hnot, fun hup => absurd hup hnot, fun _ => hconn,
    hloops, hfatal, hlosses⟩

theorem stop (h : Disciplined s) : Disciplined s.stop :=
  of_down rfl rfl h.loops_le h.fatal_le h.losses

/-- A goroutine that goes on as what it was, a loop or not. -/
theorem move (h : Disciplined s) {i : Nat} {g g' : Goroutine} (hg : s.goroutines[i]? = some g)
    (hsame : g'.isReconnectLoop = g.isReconnectLoop) : Disciplined (s.move i g') := by
  have hloops : (s.move i g').reconnectLoops = s.reconnectLoops := by
    have := reconnectLoops_move hg g'
    rw [hsame] at this
    omega
  exact ⟨h.reconnecting, fun hrun => hloops.trans (h.exact_loops hrun), h.not_fatal, h.down,
    hloops ▸ h.loops_le, h.fatal_le, h.losses⟩

/-- Once the client is down, a goroutine may return. -/
theorem returns (h : Disciplined s) (hdown : s.running = false) {i : Nat} {g : Goroutine}
    (hg : s.goroutines[i]? = some g) : Disciplined (s.move i .returned) := by
  have hloops : (s.move i .returned).reconnectLoops ≤ s.reconnectLoops := by
    have hmove := reconnectLoops_move hg .returned
    rw [if_neg (show ¬ Goroutine.returned.isReconnectLoop = true by decide)] at hmove
    omega
  exact of_down hdown (h.down hdown) (Nat.le_trans hloops h.loops_le) h.fatal_le h.losses

/-- A loop is the only one; with it gone there is none. -/
theorem no_loop_left (h : Disciplined s) {i : Nat} {g : Goroutine} (hg : s.goroutines[i]? = some g)
    (hloop : g.isReconnectLoop = true) : (s.move i .returned).reconnectLoops = 0 := by
  have hmove := reconnectLoops_move hg .returned
  have hle := h.loops_le
  rw [if_pos hloop, if_neg (by decide)] at hmove
  omega

theorem ignoreLoss (h : Disciplined s) (failed : Conn) : Disciplined (s.ignoreLoss failed) where
  reconnecting := h.reconnecting
  exact_loops := h.exact_loops
  not_fatal := h.not_fatal
  down := h.down
  loops_le := h.loops_le
  fatal_le := h.fatal_le
  losses := by
    intro l hl
    rcases List.mem_append.1 hl with hl | hl
    · exact h.losses l hl
    · rw [List.mem_singleton.1 hl]
      exact .inl ⟨rfl, rfl⟩

/-- The loss of the installed connection starts the one loop. -/
theorem handleConnectionLoss (h : Disciplined s) (failed : Conn) :
    Disciplined (s.handleConnectionLoss failed) := by
  unfold SocketClient.handleConnectionLoss
  split
  · exact h.ignoreLoss failed
  · next hcurrent =>
    split
    · exact h.ignoreLoss failed
    · obtain ⟨hrun, hconn⟩ : s.running = true ∧ s.conn = some failed := by simpa using hcurrent
      have hnone : s.goroutines.countP Goroutine.isReconnectLoop = 0 := by
        simpa [hconn, reconnectLoops] using h.exact_loops hrun
      have hone : (s.goroutines ++ [Goroutine.round 1]).countP Goroutine.isReconnectLoop = 1 := by
        rw [List.countP_append, hnone]
        rfl
      refine ⟨fun _ => rfl, fun _ => hone, h.not_fatal, fun _ => rfl, Nat.le_of_eq hone, h.fatal_le, ?_⟩
      intro l hl
      rcases List.mem_append.1 hl with hl | hl
      · exact h.losses l hl
      · rw [List.mem_singleton.1 hl]
        exact .inr ⟨hconn, rfl⟩

/-- The loop that installs a connection returns. -/
theorem install (h : Disciplined s) {i : Nat} {conn : Conn} (hg : s.goroutines[i]? = some (.dialled conn)) :
    Disciplined ((s.install conn).move i .returned) := by
  unfold SocketClient.install
  split
  · next hrun =>
    have hi : i < s.goroutines.length := (List.getElem?_eq_some_iff.1 hg).1
    have hnone : ((s.goroutines ++ [Goroutine.readLoop conn]).set i .returned).countP
        Goroutine.isReconnectLoop = 0 := by
      rw [List.set_append_left _ _ hi, List.countP_append]
      exact Nat.add_eq_zero_iff.2 ⟨h.no_loop_left hg rfl, rfl⟩
    refine ⟨fun _ => rfl, fun _ => hnone, h.not_fatal, fun hdown => ?_, ?_, h.fatal_le, h.losses⟩
    · exact absurd hrun (by simp [show s.running = false from hdown])
    · exact Nat.le_trans (Nat.le_of_eq hnone) (Nat.zero_le 1)
  · next hdown => exact h.returns (by simpa using hdown) hg

/-- Only a running client invokes the handler, so it has not been invoked before. -/
theorem abandon (h : Disciplined s) {i : Nat} (hg : s.goroutines[i]? = some .giveUp) :
    Disciplined (s.abandon.move i .returned) := by
  have hnone : (s.goroutines.set i .returned).countP Goroutine.isReconnectLoop = 0 := h.no_loop_left hg rfl
  unfold SocketClient.abandon
  split
  · next hrun =>
    have hconn : s.conn = none := by
      by_contra hsome
      have hzero : s.reconnectLoops = 0 := by simpa [hsome] using h.exact_loops hrun
      exact List.countP_eq_zero.1 hzero _ (List.mem_of_getElem? hg) rfl
    have hfatal := h.not_fatal hrun
    refine of_down rfl hconn (Nat.le_trans (Nat.le_of_eq hnone) (Nat.zero_le 1)) ?_ h.losses
    show s.fatal + 1 ≤ 1
    omega
  · next hdown =>
    have hstays : s.running = false := by simpa using hdown
    exact of_down hstays (h.down hstays) (Nat.le_trans (Nat.le_of_eq hnone) (Nat.zero_le 1)) h.fatal_le h.losses

/-- The sections of a goroutine that is not a `reconnectLoop`, after a report to `handleConnectionLoss`. -/
theorem report (h : Disciplined s) {i : Nat} {g : Goroutine} (g' : Goroutine) (hg : s.goroutines[i]? = some g)
    (hsame : g'.isReconnectLoop = g.isReconnectLoop) (failed : Conn) :
    Disciplined ((s.handleConnectionLoss failed).move i g') := by
  refine (h.handleConnectionLoss failed).move ?_ hsame
  have hi : i < s.goroutines.length := (List.getElem?_eq_some_iff.1 hg).1
  unfold SocketClient.handleConnectionLoss
  split
  · exact hg
  · split
    · exact hg
    · exact (List.getElem?_append_left hi).trans hg

/-- **Every section keeps the discipline.** -/
theorem enter (h : Disciplined s) {t : SocketClient} {i : Nat} {outcome : Outcome}
    (hstep : s.enter i outcome = .ok t) : Disciplined t := by
  unfold SocketClient.enter at hstep
  split at hstep <;> cases hstep
  · next conn hg =>
    refine h.move hg ?_
    split
    · cases outcome <;> rfl
    · rfl
  · next conn hg => exact h.move hg rfl
  · next conn hg => exact h.report .returned hg rfl conn
  · next hg =>
    refine h.move hg ?_
    cases s.conn <;> cases outcome <;> rfl
  · next conn hg => exact h.report .broadcast hg rfl conn
  · next round hg =>
    split
    · cases outcome with
      | success =>
        have hmove : Disciplined (s.move i (.dialled s.dials)) := h.move hg rfl
        exact ⟨hmove.reconnecting, hmove.exact_loops, hmove.not_fatal, hmove.down, hmove.loops_le,
          hmove.fatal_le, hmove.losses⟩
      | endOfFile | failure =>
        refine h.move hg ?_
        split <;> rfl
    · next hdown => exact h.returns (by simpa using hdown) hg
  · next conn hg => exact h.install hg
  · next hg => exact h.abandon hg

theorem step (h : Disciplined s) {t : SocketClient} {a : Action} (hstep : s.step a = .ok t) :
    Disciplined t := by
  cases a with
  | stop =>
    cases hstep
    exact h.stop
  | enter i outcome => exact h.enter hstep
  | quit i =>
    simp only [SocketClient.step] at hstep
    split at hstep
    · next hquit =>
      cases hstep
      exact h.move hquit.1 rfl
    · cases hstep

end Disciplined

/-- Over every run, from a disciplined client. -/
theorem run_disciplined {s t : SocketClient} {actions : List Action} (h : Disciplined s)
    (hrun : run step s actions = .ok t) : Disciplined t :=
  run_invariant (fun _ _ _ hs hstep => Disciplined.step hs hstep) h hrun

/-! ### A client that has stopped running -/

/-- The client is down for good: no connection, and none installed since. -/
structure Down (installed : List Conn) (s : SocketClient) : Prop where
  not_running : s.running = false
  conn : s.conn = none
  installed : s.installed = installed

namespace Down

variable {installed : List Conn} {s : SocketClient}

theorem handleConnectionLoss (h : Down installed s) (failed : Conn) :
    Down installed (s.handleConnectionLoss failed) := by
  unfold SocketClient.handleConnectionLoss
  rw [if_pos (.inl h.not_running)]
  exact ⟨h.not_running, h.conn, h.installed⟩

theorem enter (h : Down installed s) {t : SocketClient} {i : Nat} {outcome : Outcome}
    (hstep : s.enter i outcome = .ok t) : Down installed t := by
  have hmove : ∀ {s : SocketClient} (g : Goroutine), Down installed s → Down installed (s.move i g) :=
    fun g hs => ⟨hs.not_running, hs.conn, hs.installed⟩
  unfold SocketClient.enter at hstep
  simp only [h.not_running, Bool.false_eq_true, if_false] at hstep
  split at hstep <;> cases hstep
  · exact hmove _ h
  · exact hmove _ h
  · next conn hg => exact hmove _ (h.handleConnectionLoss conn)
  · exact hmove _ h
  · next conn hg => exact hmove _ (h.handleConnectionLoss conn)
  · exact hmove _ h
  · simp only [install, h.not_running, Bool.false_eq_true, if_false]
    exact hmove _ h
  · simp only [abandon, h.not_running, Bool.false_eq_true, if_false]
    exact ⟨rfl, h.conn, h.installed⟩

theorem step (h : Down installed s) {t : SocketClient} {a : Action} (hstep : s.step a = .ok t) :
    Down installed t := by
  cases a with
  | stop =>
    cases hstep
    exact ⟨rfl, rfl, h.installed⟩
  | enter i outcome => exact h.enter hstep
  | quit i =>
    simp only [SocketClient.step] at hstep
    split at hstep
    · cases hstep
      exact ⟨h.not_running, h.conn, h.installed⟩
    · cases hstep

end Down

/-- **Reconnect discipline**, after one successful `Connect`, in every state of every run: at most one
`reconnectLoop`, and one while the client runs without a connection; a report about one connection leaves every
other installed and open; a client that no longer runs never runs again, and never installs a connection; and
`onDisconnectFatal` is invoked at most once. -/
theorem reconnect_discipline {actions : List Action} {s : SocketClient}
    (hrun : run step connected actions = .ok s) :
    s.reconnectLoops ≤ 1 ∧
      (s.running = true → s.conn = none → ∃ g ∈ s.goroutines, g.isReconnectLoop = true) ∧
      (∀ l ∈ s.losses, ∀ conn, conn ≠ l.failed →
        conn ∉ l.closed ∧ (l.found = some conn → l.left = some conn)) ∧
      (s.running = false → ∀ more t, run step s more = .ok t →
        t.running = false ∧ t.conn = none ∧ t.installed = s.installed) ∧
      s.fatal ≤ 1 := by
  have h : Disciplined s := run_disciplined disciplined_connected hrun
  refine ⟨h.loops_le, fun hup hconn => ?_, fun l hl conn hne => ?_, fun hdown more t hmore => ?_, h.fatal_le⟩
  · have hone := h.exact_loops hup
    rw [hconn] at hone
    have hpos : 0 < s.goroutines.countP Goroutine.isReconnectLoop := Nat.lt_of_lt_of_eq Nat.one_pos hone.symm
    exact List.countP_pos_iff.1 hpos
  · rcases h.losses l hl with ⟨hleft, hclosed⟩ | ⟨hfound, hclosed⟩
    · rw [hclosed, hleft]
      exact ⟨List.not_mem_nil, id⟩
    · rw [hclosed, hfound]
      refine ⟨fun hmem => hne (List.mem_singleton.1 hmem), fun heq => ?_⟩
      exact absurd (Option.some.inj heq).symm hne
  · have hstart : Down s.installed s := ⟨hdown, h.down hdown, rfl⟩
    have hend : Down s.installed t := run_invariant (fun _ _ _ hs hstep => Down.step hs hstep) hstart hmore
    exact ⟨hend.not_running, hend.conn, hend.installed⟩

/-- The reader's connection fails, the loop reconnects in its second round, the broadcaster reports the old
connection late, and `Stop` is called during the next reconnect. -/
def lateReport : List Action :=
  [.enter 0 .failure, .enter 1 .failure, .enter 1 .success, .enter 1 .success, .enter 2 .failure,
    .enter 2 .success, .enter 2 .success, .enter 0 .success, .enter 3 .endOfFile, .enter 3 .success,
    .enter 4 .success, .stop, .enter 4 .success]

theorem lateReport_disciplined :
    ∃ s, run step connected lateReport = .ok s ∧ s.losses.length = 3 ∧ s.installed = [0, 1] ∧ s.dials = 3 ∧
      s.reconnectLoops ≤ 1 ∧ s.fatal ≤ 1 := by
  obtain ⟨s, hrun, hlosses, hinstalled, hdials⟩ : ∃ s, run step connected lateReport = .ok s ∧
      s.losses.length = 3 ∧ s.installed = [0, 1] ∧ s.dials = 3 := exists_of_endsIn (by decide +kernel)
  obtain ⟨hloops, -, -, -, hfatal⟩ := reconnect_discipline hrun
  exact ⟨s, hrun, hlosses, hinstalled, hdials, hloops, hfatal⟩

end SocketClient

end BinderTracer.Daemon
