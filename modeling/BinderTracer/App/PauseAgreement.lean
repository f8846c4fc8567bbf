import BinderTracer.App.MonitoringSession
import BinderTracer.Daemon.Commands

/-!
# Pausing, on both sides

The controller together with one daemon process that survives disconnections: the operations run one after the
other, their transport calls succeed, and the daemon handles the frames that they send. The two sides agree on
whether the events are paused until a session that was paused is reconnected: the controller then says
connected, and the handshake does not tell the daemon to resume.
-/

namespace BinderTracer.App.MonitoringSessionController

open BinderTracer.Lib BinderTracer.Daemon

/-- The controller and the daemon. -/
structure Linked where
  state : MonitoringSessionState
  fields : SessionFields
  daemon : CommandState

/-- A transport call that succeeds, and what the daemon makes of the frame that it sends. -/
def succeed (onSetTarget : UInt32 → Option String) : TransportCall → CommandState → Bool × CommandState
  | .sendPause, daemon => (true, (handleCommand onSetTarget daemon ⟨msgTypePause, []⟩).1)
  | .sendResume, daemon => (true, (handleCommand onSetTarget daemon ⟨msgTypeResume, []⟩).1)
  | .handshake uid _, daemon =>
    (true, (handleCommand onSetTarget daemon ⟨msgTypeSetTarget, beBytes 4 uid.toUInt32.toNat⟩).1)
  | .sendShutdown, daemon => (true, (handleCommand onSetTarget daemon ⟨msgTypeShutdown, []⟩).1)
  | _, daemon => (true, daemon)

/-- An operation runs to its end. -/
def Linked.perform (onSetTarget : UInt32 → Option String) (p : Linked) (op : Operation) : Linked :=
  let result := op.body.complete FieldUpdate.apply (succeed onSetTarget) p.state p.fields p.daemon
  ⟨result.1, result.2.1, result.2.2⟩

/-- The operations of a running session. -/
inductive RunningOperation where
  | pause
  | resume
  | enterReconnecting
  | attemptReconnect (maxAttempts : Int32) (intervalMs : Int64)
deriving DecidableEq, Repr

def RunningOperation.toOperation : RunningOperation → Operation
  | pause => .pause
  | resume => .resume
  | enterReconnecting => .enterReconnecting
  | attemptReconnect maxAttempts intervalMs => .attemptReconnect maxAttempts intervalMs

/-- A session that has just been started, with a daemon that has just been started. -/
def started (onSetTarget : UInt32 → Option String) (random : Nat → List.Vector UInt8 16) (daemonToken : String)
    (targetUid : Int32) (packageName appName : String) : Linked :=
  Linked.perform onSetTarget ⟨.idle, { random }, { sessionToken := daemonToken }⟩
    (.startMonitoring targetUid packageName appName)

/-- After the operations of a running session. -/
def Linked.after (onSetTarget : UInt32 → Option String) (p : Linked) (ops : List RunningOperation) : Linked :=
  ops.foldl (fun p op => p.perform onSetTarget op.toOperation) p

/-- The two sides agree on whether the events are paused. -/
def Linked.Agree (p : Linked) : Prop :=
  (p.state = .connected → p.daemon.paused = false) ∧ (p.state = .paused → p.daemon.paused = true)

/-- The operation reconnects to a daemon that is paused. -/
def Linked.ReconnectsPaused (p : Linked) (op : RunningOperation) : Prop :=
  p.state = .reconnecting ∧ p.daemon.paused = true ∧
    ∃ maxAttempts intervalMs, op = .attemptReconnect maxAttempts intervalMs ∧ 0 < maxAttempts.toInt

namespace Linked

variable {onSetTarget : UInt32 → Option String} {p : Linked}

theorem started_eq (random : Nat → List.Vector UInt8 16) (daemonToken : String) (targetUid : Int32)
    (packageName appName : String) :
    (started onSetTarget random daemonToken targetUid packageName appName).state = .connected ∧
      (started onSetTarget random daemonToken targetUid packageName appName).daemon.paused = false := by
  refine ⟨rfl, ?_⟩
  change (handleCommand onSetTarget _ _).1.paused = false
  rw [paused_handleCommand]
  rfl

theorem perform_pause (h : p.state = .connected) :
    (p.perform onSetTarget .pause).state = .paused ∧ (p.perform onSetTarget .pause).daemon.paused = true := by
  obtain ⟨state, fields, daemon⟩ := p
  cases h
  refine ⟨rfl, ?_⟩
  change (handleCommand onSetTarget daemon ⟨msgTypePause, []⟩).1.paused = true
  rw [paused_handleCommand]
  rfl

theorem perform_resume (h : p.state = .paused) :
    (p.perform onSetTarget .resume).state = .connected ∧
      (p.perform onSetTarget .resume).daemon.paused = false := by
  obtain ⟨state, fields, daemon⟩ := p
  cases h
  refine ⟨rfl, ?_⟩
  change (handleCommand onSetTarget daemon ⟨msgTypeResume, []⟩).1.paused = false
  rw [paused_handleCommand]
  rfl

/-- A reconnection with at least one round succeeds in the first, and leaves the daemon as it is. -/
theorem complete_attempts (onSetTarget : UInt32 → Option String) (intervalMs : Int64) (n : Nat)
    (fields : SessionFields) (daemon : CommandState) :
    let result := (attempts intervalMs n).complete FieldUpdate.apply (succeed onSetTarget) .reconnecting fields
      daemon
    result.1 = (if 0 < n then .connected else .failed) ∧ result.2.2.paused = daemon.paused := by
  cases n with
  | zero => exact ⟨rfl, rfl⟩
  | succ n =>
    refine ⟨rfl, ?_⟩
    change (handleCommand onSetTarget daemon _).1.paused = daemon.paused
    rw [paused_handleCommand]
    rfl

theorem perform_attemptReconnect (onSetTarget : UInt32 → Option String) (h : p.state = .reconnecting)
    (maxAttempts : Int32) (intervalMs : Int64) :
    let p' := p.perform onSetTarget (.attemptReconnect maxAttempts intervalMs)
    p'.state = (if 0 < maxAttempts.toInt then .connected else .failed) ∧
      p'.daemon.paused = p.daemon.paused := by
  obtain ⟨state, fields, daemon⟩ := p
  cases h
  have hrounds : 0 < maxAttempts.toInt.toNat ↔ 0 < maxAttempts.toInt := by omega
  have hresult := complete_attempts onSetTarget intervalMs maxAttempts.toInt.toNat fields daemon
  simp only [hrounds] at hresult
  exact hresult

theorem Agree.of_connected (hstate : p.state = .connected) (hpaused : p.daemon.paused = false) : p.Agree :=
  ⟨fun _ => hpaused, fun h => absurd (hstate.symm.trans h) (by decide)⟩

theorem Agree.of_paused (hstate : p.state = .paused) (hpaused : p.daemon.paused = true) : p.Agree :=
  ⟨fun h => absurd (hstate.symm.trans h) (by decide), fun _ => hpaused⟩

theorem Agree.of_other (hconnected : p.state ≠ .connected) (hpaused : p.state ≠ .paused) : p.Agree :=
  ⟨fun h => absurd h hconnected, fun h => absurd h hpaused⟩

/-- **One operation** keeps the agreement exactly if it does not reconnect to a paused daemon. -/
theorem agree_perform_iff (h : p.Agree) (op : RunningOperation) :
    (p.perform onSetTarget op.toOperation).Agree ↔ ¬ p.ReconnectsPaused op := by
  cases op with
  | pause =>
    refine iff_of_true ?_ (by rintro ⟨-, -, _, _, ⟨⟩, -⟩)
    cases hstate : p.state with
    | connected => exact .of_paused (perform_pause hstate).1 (perform_pause hstate).2
    | _ =>
      obtain ⟨state, fields, daemon⟩ := p
      cases hstate
      exact h
  | resume =>
    refine iff_of_true ?_ (by rintro ⟨-, -, _, _, ⟨⟩, -⟩)
    cases hstate : p.state with
    | paused => exact .of_connected (perform_resume hstate).1 (perform_resume hstate).2
    | _ =>
      obtain ⟨state, fields, daemon⟩ := p
      cases hstate
      exact h
  | enterReconnecting =>
    refine iff_of_true ?_ (by rintro ⟨-, -, _, _, ⟨⟩, -⟩)
    obtain ⟨state, fields, daemon⟩ := p
    cases state with
    | connected => exact .of_other MonitoringSessionState.noConfusion MonitoringSessionState.noConfusion
    | paused => exact .of_other MonitoringSessionState.noConfusion MonitoringSessionState.noConfusion
    | _ => exact h
  | attemptReconnect maxAttempts intervalMs =>
    cases hstate : p.state with
    | reconnecting =>
      obtain ⟨hnew, hdaemon⟩ := perform_attemptReconnect onSetTarget hstate maxAttempts intervalMs
      by_cases hrounds : 0 < maxAttempts.toInt
      · rw [if_pos hrounds] at hnew
        constructor
        · rintro hagree ⟨-, hpaused, -⟩
          have hresumed := hdaemon.symm.trans (hagree.1 hnew)
          rw [hpaused] at hresumed
          cases hresumed
        · intro hnot
          refine .of_connected hnew (hdaemon.trans ?_)
          by_contra hpaused
          exact hnot ⟨hstate, by simpa using hpaused, _, _, rfl, hrounds⟩
      · rw [if_neg hrounds] at hnew
        have hother : ∀ v, v ≠ .failed →
            (p.perform onSetTarget (.attemptReconnect maxAttempts intervalMs)).state ≠ v := by
          rintro v hv rfl
          exact hv hnew
        refine iff_of_true (.of_other (hother _ (by decide)) (hother _ (by decide))) ?_
        rintro ⟨-, -, _, _, ⟨⟩, hpos⟩
        exact hrounds hpos
    | _ =>
      refine iff_of_true ?_ fun hre => by cases hstate.symm.trans hre.1
      obtain ⟨state, fields, daemon⟩ := p
      cases hstate
      exact h

end Linked

/-- **Pause agreement**: over a running session, the controller and the daemon agree after every operation if
and only if no operation reconnects to a daemon that is paused. -/
theorem pause_agrees_iff (onSetTarget : UInt32 → Option String) (random : Nat → List.Vector UInt8 16)
    (daemonToken : String) (targetUid : Int32) (packageName appName : String) (ops : List RunningOperation) :
    let session := started onSetTarget random daemonToken targetUid packageName appName
    (∀ done, done <+: ops → (session.after onSetTarget done).Agree) ↔
      ∀ done op, done ++ [op] <+: ops → ¬ (session.after onSetTarget done).ReconnectsPaused op := by
  intro session
  have hsnoc : ∀ done op, session.after onSetTarget (done ++ [op]) =
      (session.after onSetTarget done).perform onSetTarget op.toOperation :=
    fun done op => List.foldl_append ..
  constructor
  · intro hagree done op hpre
    rw [← Linked.agree_perform_iff (hagree done ((List.prefix_append _ _).trans hpre)), ← hsnoc]
    exact hagree _ hpre
  · intro hnever done
    -- by induction over the operations performed so far
    induction done using List.reverseRecOn with
    | nil =>
      intro _
      obtain ⟨hstate, hpaused⟩ := Linked.started_eq random daemonToken targetUid packageName appName
      exact .of_connected hstate hpaused
    | append_singleton done op ih =>
      intro hpre
      rw [hsnoc, Linked.agree_perform_iff (ih ((List.prefix_append _ _).trans hpre))]
      exact hnever done op hpre

/-- A paused session that loses its connection and is reconnected: the controller says connected, and the daemon
is still paused. -/
theorem reconnect_forgets_pause :
    let session := started (fun _ => none) zeroBytes "" 10123 "com.example" "Example"
    let session' := session.after (fun _ => none) [.pause, .enterReconnecting, .attemptReconnect 3 5000]
    session'.state = .connected ∧ session'.daemon.paused = true ∧ ¬ session'.Agree := by
  intro session session'
  have hstate : session'.state = .connected := rfl
  have hpaused : session'.daemon.paused = true := rfl
  refine ⟨hstate, hpaused, fun hagree => ?_⟩
  rw [hagree.1 hstate] at hpaused
  cases hpaused

end BinderTracer.App.MonitoringSessionController
