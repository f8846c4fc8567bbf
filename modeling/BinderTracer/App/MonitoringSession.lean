import BinderTracer.Lib.Coroutine
import BinderTracer.Lib.ByteOrder
import Mathlib.Data.Vector.Defs

/-!
# The monitoring session

`MonitoringSessionController`: its operations as coroutines over the session state, which suspend in the calls
of `SessionTransport`, and their interleavings. The session follows the documented diagram as long as no
operation overtakes another: the state is read once, at the beginning of an operation, and then assigned after
several calls, whatever it has become meanwhile.
-/

namespace BinderTracer.App

open BinderTracer.Lib

inductive MonitoringSessionState where
  | idle | starting | handshaking | connected | paused | reconnecting | failed | stopping
deriving DecidableEq, Repr

namespace MonitoringSessionState

/-- The documented diagram, with the two edges that the code adds: a failed session may be started, and a
paused one may lose its connection. -/
def edge : MonitoringSessionState → MonitoringSessionState → Bool
  | idle, starting => true
  | starting, handshaking => true
  | starting, failed => true
  | handshaking, connected => true
  | handshaking, failed => true
  | connected, paused => true
  | paused, connected => true
  | connected, reconnecting => true
  | reconnecting, connected => true
  | reconnecting, failed => true
  | _, stopping => true
  | stopping, idle => true
  | failed, idle => true
  | failed, starting => true
  | paused, reconnecting => true
  | _, _ => false

end MonitoringSessionState

/-- `generateSessionToken`, from the random bytes. -/
def generateSessionToken (bytes : List.Vector UInt8 16) : String := String.ofList (bytes.toList.flatMap hexByte)

/-- The other fields of the controller, and the bytes that `SecureRandom` gives. -/
structure SessionFields where
  targetAppName : String := ""
  errorMessage : Option String := none
  sessionToken : String := ""
  targetUid : Int32 := -1
  random : Nat → List.Vector UInt8 16
  /-- How many tokens have been generated. -/
  drawn : Nat := 0

/-- What the operations do to the fields. -/
inductive FieldUpdate where
  | target (appName : String) (uid : Int32)
  | error (message : String)
  | clearError
  | newToken
  | clear

namespace FieldUpdate

def apply : FieldUpdate → SessionFields → SessionFields
  | target appName uid, f => { f with targetAppName := appName, errorMessage := none, targetUid := uid }
  | error message, f => { f with errorMessage := some message }
  | clearError, f => { f with errorMessage := none }
  | newToken, f => { f with sessionToken := generateSessionToken (f.random f.drawn), drawn := f.drawn + 1 }
  | clear, f => { f with targetAppName := "", targetUid := -1, sessionToken := "" }

end FieldUpdate

/-- The calls in which an operation suspends: those of `SessionTransport`, and `delay`. -/
inductive TransportCall where
  | clearPreviousEvents
  | disconnectSocket
  | stopExistingDaemon
  | startServer
  | startDaemon (uid : Int32) (sessionToken : String)
  | awaitClient
  | handshake (uid : Int32) (sessionToken : String)
  | preheatClassLoader (packageName : String)
  | startEventLoop
  | stopEventLoop
  | sendPause
  | sendResume
  | sendShutdown
  | delay (intervalMs : Int64)
deriving DecidableEq, Repr

namespace MonitoringSessionController

/-- The body of an operation. A call without a result is answered by any Boolean. -/
abbrev Body := Coroutine MonitoringSessionState SessionFields FieldUpdate TransportCall Bool

/-- `fail`. -/
def fail (message : String) (next : Body) : Body := .update (.error message) (.set .failed next)

/-- `startMonitoring`. -/
def startMonitoring (targetUid : Int32) (packageName appName : String) : Body :=
  .look fun state =>
  if state ≠ .idle ∧ state ≠ .failed then .finish
  else
    .update (.target appName targetUid) <|
    .set .starting <|
    .call .clearPreviousEvents fun _ =>
    .call .disconnectSocket fun _ =>
    .call .stopExistingDaemon fun _ =>
    .call .startServer fun started =>
    if !started then fail "TCP Server 启动失败" .finish
    else
      .update .newToken <|
      .get fun fields =>
      .call (.startDaemon targetUid fields.sessionToken) fun running =>
      if !running then
        fail "btrace 启动失败,请检查 Root 权限" <|
        .call .disconnectSocket fun _ => .finish
      else
        .call .awaitClient fun connected =>
        if !connected then
          fail "TCP 连接失败" <|
          .call .disconnectSocket fun _ =>
          .call .stopExistingDaemon fun _ => .finish
        else
          .set .handshaking <|
          .get fun fields =>
          .call (.handshake targetUid fields.sessionToken) fun accepted =>
          if !accepted then
            fail "与 btrace 握手失败" <|
            .call .disconnectSocket fun _ =>
            .call .stopExistingDaemon fun _ => .finish
          else
            .call (.preheatClassLoader packageName) fun _ =>
            .call .startEventLoop fun _ =>
            .set .connected .finish

/-- `pause`. -/
def pause : Body :=
  .look fun state =>
  if state ≠ .connected then .finish
  else .call .sendPause fun sent => if sent then .set .paused .finish else .finish

/-- `resume`. -/
def resume : Body :=
  .look fun state =>
  if state ≠ .paused then .finish
  else .call .sendResume fun sent => if sent then .set .connected .finish else .finish

/-- `stop`. -/
def stop : Body :=
  .look fun state =>
  if state = .idle then .finish
  else
    .set .stopping <|
    .call .sendShutdown fun _ =>
    .call .stopEventLoop fun _ =>
    .call .disconnectSocket fun _ =>
    .call .stopExistingDaemon fun _ =>
    .update .clear <|
    .set .idle .finish

/-- `enterReconnecting`. -/
def enterReconnecting : Body :=
  .look fun state => if state = .connected ∨ state = .paused then .set .reconnecting .finish else .finish

/-- The rounds of `attemptReconnect`. -/
def attempts (intervalMs : Int64) : Nat → Body
  | 0 => fail "自动重连失败" .finish
  | n + 1 =>
    let again : Body := .call (.delay intervalMs) fun _ => attempts intervalMs n
    .call .disconnectSocket fun _ =>
    .call .startServer fun started =>
    if !started then again
    else
      .get fun fields =>
      .call (.startDaemon fields.targetUid fields.sessionToken) fun running =>
      if !running then again
      else
        .call .awaitClient fun connected =>
        if !connected then again
        else
          .get fun fields =>
          .call (.handshake fields.targetUid fields.sessionToken) fun accepted =>
          if !accepted then again
          else
            .call .startEventLoop fun _ =>
            .set .connected .finish

/-- `attemptReconnect`. -/
def attemptReconnect (maxAttempts : Int32) (intervalMs : Int64) : Body :=
  .look fun state => if state ≠ .reconnecting then .finish else attempts intervalMs maxAttempts.toInt.toNat

/-- `reset`. -/
def reset : Body :=
  .look fun state => if state = .failed then .set .idle (.update .clearError .finish) else .finish

/-- The operations with their arguments. -/
inductive Operation where
  | startMonitoring (targetUid : Int32) (packageName appName : String)
  | pause
  | resume
  | stop
  | enterReconnecting
  | attemptReconnect (maxAttempts : Int32) (intervalMs : Int64)
  | reset
deriving DecidableEq, Repr

namespace Operation

def body : Operation → Body
  | startMonitoring targetUid packageName appName =>
    MonitoringSessionController.startMonitoring targetUid packageName appName
  | pause => MonitoringSessionController.pause
  | resume => MonitoringSessionController.resume
  | stop => MonitoringSessionController.stop
  | enterReconnecting => MonitoringSessionController.enterReconnecting
  | attemptReconnect maxAttempts intervalMs => MonitoringSessionController.attemptReconnect maxAttempts intervalMs
  | reset => MonitoringSessionController.reset

def isStartMonitoring : Operation → Bool
  | startMonitoring _ _ _ => true
  | _ => false

end Operation

/-- `enterReconnecting` and `reset` run in their caller; the others are launched. -/
def programs : Programs Operation MonitoringSessionState SessionFields FieldUpdate TransportCall Bool where
  body := Operation.body
  synchronous
    | .enterReconnecting => true
    | .reset => true
    | _ => false
  apply := FieldUpdate.apply

/-- The controller and the operations in flight. -/
abbrev Session := Machine Operation MonitoringSessionState SessionFields FieldUpdate TransportCall Bool

def initial (random : Nat → List.Vector UInt8 16) : Session := { value := .idle, data := { random } }

/-! ### The text of the operations follows the diagram -/

/-- An assignment in the text of an operation: an edge, and one from idle only where a start begins. -/
def textEdge (op : Operation) (first : Bool) (left set : MonitoringSessionState) : Prop :=
  left.edge set = true ∧ (left = .idle → op.isStartMonitoring = true ∧ first = true)

theorem textEdge_of {op : Operation} {first : Bool} {left set : MonitoringSessionState}
    (hedge : left.edge set = true) (hleft : left ≠ .idle) : textEdge op first left set :=
  ⟨hedge, fun h => absurd h hleft⟩

theorem fail_follows {op : Operation} {first : Bool} {left : MonitoringSessionState} {message : String}
    {next : Body} (hedge : left.edge .failed = true) (hleft : left ≠ .idle)
    (hnext : next.Follows (textEdge op) first .failed) :
    (fail message next).Follows (textEdge op) first left :=
  ⟨textEdge_of hedge hleft, hnext⟩

theorem attempts_follows (op : Operation) (intervalMs : Int64) (n : Nat) (first : Bool) :
    (attempts intervalMs n).Follows (textEdge op) first .reconnecting := by
  induction n generalizing first with
  | zero => exact fail_follows rfl (by decide) trivial
  | succ n ih =>
    have hagain : ∀ first, (Coroutine.call (.delay intervalMs) fun _ => attempts intervalMs n : Body).Follows
        (textEdge op) first .reconnecting := fun _ _ => ih false
    intro _ started
    cases started with
    | false => exact hagain false
    | true =>
      intro fields running
      cases running with
      | false => exact hagain false
      | true =>
        intro connected
        cases connected with
        | false => exact hagain false
        | true =>
          intro fields accepted
          cases accepted with
          | false => exact hagain false
          | true => exact fun _ => ⟨textEdge_of rfl (by decide), trivial⟩

theorem startMonitoring_follows (targetUid : Int32) (packageName appName : String)
    (v : MonitoringSessionState) :
    (startMonitoring targetUid packageName appName).Follows
      (textEdge (.startMonitoring targetUid packageName appName)) true v := by
  intro state
  dsimp only
  split
  · trivial
  next hstate =>
  have hfirst : textEdge (.startMonitoring targetUid packageName appName) true state .starting := by
    refine ⟨?_, fun _ => ⟨rfl, rfl⟩⟩
    cases state <;> first | rfl | exact absurd ⟨by decide, by decide⟩ hstate
  refine ⟨hfirst, fun _ _ _ started => ?_⟩
  cases started with
  | false => exact fail_follows rfl (by decide) trivial
  | true =>
    intro fields running
    cases running with
    | false => exact fail_follows rfl (by decide) fun _ => trivial
    | true =>
      intro connected
      cases connected with
      | false => exact fail_follows rfl (by decide) fun _ _ => trivial
      | true =>
        refine ⟨textEdge_of rfl (by decide), fun fields accepted => ?_⟩
        cases accepted with
        | false => exact fail_follows rfl (by decide) fun _ _ => trivial
        | true => exact fun _ _ => ⟨textEdge_of rfl (by decide), trivial⟩

/-- **The text of every operation follows the diagram.** -/
theorem body_follows (op : Operation) (v : MonitoringSessionState) :
    (programs.body op).Follows (textEdge op) true v := by
  cases op with
  | startMonitoring targetUid packageName appName => exact startMonitoring_follows _ _ _ v
  | pause =>
    intro state
    cases state with
    | connected =>
      intro sent
      cases sent with
      | false => trivial
      | true => exact ⟨textEdge_of rfl (by decide), trivial⟩
    | _ => trivial
  | resume =>
    intro state
    cases state with
    | paused =>
      intro sent
      cases sent with
      | false => trivial
      | true => exact ⟨textEdge_of rfl (by decide), trivial⟩
    | _ => trivial
  | stop =>
    intro state
    cases state with
    | idle => trivial
    | _ => exact ⟨textEdge_of rfl (by decide), fun _ _ _ _ => ⟨textEdge_of rfl (by decide), trivial⟩⟩
  | enterReconnecting =>
    intro state
    cases state with
    | connected => exact ⟨textEdge_of rfl (by decide), trivial⟩
    | paused => exact ⟨textEdge_of rfl (by decide), trivial⟩
    | _ => trivial
  | attemptReconnect maxAttempts intervalMs =>
    intro state
    cases state with
    | reconnecting => exact attempts_follows _ _ _ true
    | _ => trivial
  | reset =>
    intro state
    cases state with
    | failed => exact ⟨textEdge_of rfl (by decide), trivial⟩
    | _ => trivial

/-! ### The life cycle -/

/-- The log of the state: it leads from idle to the present state, every change is an edge of the diagram, and
after a stop has set idle, the next change is made by a start that was issued after that stop. -/
structure LifeCycle (log : List (Entry Operation MonitoringSessionState)) (state : MonitoringSessionState) :
    Prop where
  chained : Chained .idle (log.map Entry.toAssignment) state
  edges : ∀ e ∈ log, e.found ≠ e.set → e.found.edge e.set = true
  stopped : ∀ (before : List (Entry Operation MonitoringSessionState)) stop
    (quiet : List (Entry Operation MonitoringSessionState)) (next : Entry Operation MonitoringSessionState) after,
    log = before ++ stop :: (quiet ++ next :: after) →
    stop.program = .stop → stop.set = .idle → (∀ e ∈ quiet, e.found = e.set) → next.found ≠ next.set →
      next.program.isStartMonitoring = true ∧ stop.task < next.task

/-- No operation overtakes another: each assignment finds the state as its operation saw or set it last, or
already as it sets it, and launched operations begin in the order in which they were issued. -/
def NoOvertaking (s : Session) (action : Action Operation Bool) : Prop :=
  (∀ e ∈ s.added programs action, e.found = e.left ∨ e.found = e.set) ∧ s.BeginsInOrder programs action

instance (s : Session) (action : Action Operation Bool) : Decidable (NoOvertaking s action) :=
  inferInstanceAs (Decidable ((∀ e ∈ s.added programs action, _) ∧ _))

/-- **Life cycle**: in every run in which no operation overtakes another, the session follows the documented
diagram, and a stopped session stays idle until a start issued after the stop. -/
theorem session_follows_lifeCycle {random : Nat → List.Vector UInt8 16} {actions : List (Action Operation Bool)}
    (h : StepsMeet (Machine.step programs) NoOvertaking (initial random) actions) :
    ∀ done, done <+: actions → ∀ s, run (Machine.step programs) (initial random) done = .ok s →
      LifeCycle s.log s.value := by
  intro done hdone s hrun
  have hmeet : StepsMeet (Machine.step programs) NoOvertaking (initial random) done :=
    fun before action hpre => h before action (hpre.trans hdone)
  have hsound : Machine.Sound programs textEdge .idle s := Machine.run_sound body_follows hrun
  have hentries : ∀ e ∈ s.log, e.found = e.left ∨ e.found = e.set :=
    Machine.run_log_forall (fun before action hpre m hm => (hmeet before action hpre m hm).1)
      (fun e he => by cases he) hrun
  have hordered := Machine.run_in_order body_follows
    (fun before action hpre m hm => (hmeet before action hpre m hm).2) hrun
  -- a change is made from what its operation saw or set last
  have hleft : ∀ e ∈ s.log, e.found ≠ e.set → e.found = e.left :=
    fun e he hchange => (hentries e he).resolve_right hchange
  refine ⟨hsound.chained, fun e he hchange => ?_, ?_⟩
  · rw [hleft e he hchange]
    exact (hsound.edges e he).1
  · intro before stop quiet next after hlog hstop hidle hquiet hchange
    have hmemStop : stop ∈ s.log := by simp [hlog]
    have hmemNext : next ∈ s.log := by simp [hlog]
    -- nothing has changed since the stop, so the next change is from idle
    have hfound : next.found = .idle := by
      have hchained := hsound.chained
      rw [hlog, List.map_append, List.map_cons, List.map_append, List.map_cons] at hchained
      obtain ⟨v, -, -, hchained⟩ := hchained.split
      obtain ⟨w, hw, hnext, -⟩ := hchained.split
      have hsame : w = stop.set := hw.eq_of_forall fun a ha => by
        obtain ⟨e, he, rfl⟩ := List.mem_map.1 ha
        exact hquiet e he
      rw [← hidle, ← hsame]
      exact hnext
    have hstart := (hsound.edges next hmemNext).2 ((hleft next hmemNext hchange).symm.trans hfound)
    refine ⟨hstart.1, ?_⟩
    have hle : stop.task ≤ next.task := by
      rw [hlog] at hordered
      have hpair := (List.pairwise_cons.1 (List.pairwise_append.1 hordered).2.1).1 next (by simp)
      refine hpair ?_ ?_ hstart.2
      · rw [hstop]
        rfl
      · cases hprogram : next.program <;> rw [hprogram] at hstart <;> first | rfl | cases hstart.1
    -- they are different tasks, since they run different programs
    refine Nat.lt_of_le_of_ne hle fun hsame => ?_
    obtain ⟨t, ht, -, hprogram⟩ := hsound.owners stop hmemStop
    obtain ⟨t', ht', -, hprogram'⟩ := hsound.owners next hmemNext
    rw [hsame, ht'] at ht
    cases ht
    rw [← hprogram', hprogram, hstop] at hstart
    cases hstart.1

/-! ### Two runs -/

/-- A source of random bytes. -/
def zeroBytes : Nat → List.Vector UInt8 16 := fun _ => List.Vector.replicate 16 0

/-- Issue an operation as number `i`, begin it, and let its first `n` calls succeed. -/
def successful (i : Nat) (op : Operation) (n : Nat) : List (Action Operation Bool) :=
  [Action.issue op, .begin i] ++ List.replicate n (Action.answer i true)

/-- Start, pause, resume, lose the connection, reconnect, stop, and start again. -/
def fullRun : List (Action Operation Bool) :=
  successful 0 (.startMonitoring 10123 "com.example" "Example") 9 ++ successful 1 .pause 1 ++
    successful 2 .resume 1 ++ [Action.perform .enterReconnecting] ++ successful 4 (.attemptReconnect 3 5000) 6 ++
    successful 5 .stop 4 ++ successful 6 (.startMonitoring 10123 "com.example" "Example") 0

theorem fullRun_follows_lifeCycle :
    StepsMeet (Machine.step programs) NoOvertaking (initial zeroBytes) fullRun ∧
      ∃ s, run (Machine.step programs) (initial zeroBytes) fullRun = .ok s ∧
        s.log.map (fun e => e.set) = [.starting, .handshaking, .connected, .paused, .connected, .reconnecting,
          .connected, .stopping, .idle, .starting] ∧
        LifeCycle s.log s.value := by
  have hmeet : StepsMeet (Machine.step programs) NoOvertaking (initial zeroBytes) fullRun :=
    stepsMeet_of_eval (by decide +kernel)
  refine ⟨hmeet, ?_⟩
  obtain ⟨s, hrun, hlog⟩ : ∃ s, run (Machine.step programs) (initial zeroBytes) fullRun = .ok s ∧
      s.log.map (fun e => e.set) = [.starting, .handshaking, .connected, .paused, .connected, .reconnecting,
        .connected, .stopping, .idle, .starting] := exists_of_endsIn (by decide +kernel)
  exact ⟨s, hrun, hlog, session_follows_lifeCycle hmeet fullRun List.prefix_rfl s hrun⟩

/-- A stop that is issued and runs to its end while a start waits for the client. -/
def overtakenRun : List (Action Operation Bool) :=
  successful 0 (.startMonitoring 10123 "com.example" "Example") 5 ++ successful 1 .stop 4 ++
    List.replicate 4 (Action.answer 0 true)

/-- The start goes on: from idle, which the stop has set, to handshaking and connected. -/
theorem stop_overtakes_start :
    ∃ s, run (Machine.step programs) (initial zeroBytes) overtakenRun = .ok s ∧ s.value = .connected ∧
      s.log.map (fun e => (e.task, e.found, e.set)) =
        [(0, .idle, .starting), (1, .starting, .stopping), (1, .stopping, .idle), (0, .idle, .handshaking),
          (0, .handshaking, .connected)] ∧
      ¬ LifeCycle s.log s.value := by
  obtain ⟨s, hrun, hvalue, hlog, hbad⟩ :
      ∃ s, run (Machine.step programs) (initial zeroBytes) overtakenRun = .ok s ∧ s.value = .connected ∧
        s.log.map (fun e => (e.task, e.found, e.set)) =
          [(0, .idle, .starting), (1, .starting, .stopping), (1, .stopping, .idle), (0, .idle, .handshaking),
            (0, .handshaking, .connected)] ∧
        ∃ e ∈ s.log, e.found ≠ e.set ∧ e.found.edge e.set = false := exists_of_endsIn (by decide +kernel)
  refine ⟨s, hrun, hvalue, hlog, fun hcycle => ?_⟩
  obtain ⟨e, he, hchange, hedge⟩ := hbad
  rw [hcycle.edges e he hchange] at hedge
  cases hedge

end MonitoringSessionController

end BinderTracer.App
