import BinderTracer.App.AuthenticatedEvents

/-!
# Who reads from a connection

A handshake reads from the client connection until it finds its acknowledgement, and so does an event loop as long as
it runs. An operation of the session does a handshake only after `awaitClient`, and starts an event loop only after
that, which is read off the text of the operations (`body_keeps`). So if operations do not overlap and a client is
accepted for a handshake only when no event loop is left, a connection has one reader.

A reconnection does not wait for the old loop to end. The loop tests `serverRunning` between two frames; by then the
server may have been started again, and the loop takes up the connection on which the handshake is under way.
-/

namespace BinderTracer.App

open BinderTracer.Lib MonitoringSessionController SocketClient

/-! ### The text of the operations -/

/-- An operation does a handshake only while it knows that no event loop is left; it learns so when a client is
accepted, until it starts one. -/
def readerRules : Discipline MonitoringSessionState SessionFields FieldUpdate TransportCall Bool Bool where
  valid _ _ := True
  rely _ _ _ _ := True
  mayUpdate _ _ _ := True
  mayCall
    | .handshake _ _, _, deserted => deserted = true
    | _, _, _ => True
  after
    | .awaitClient, true, _ => true
    | .startEventLoop, _, _ => false
    | _, _, deserted => deserted

theorem readerRules_stable : readerRules.Stable where
  trans := fun _ _ => trivial
  mayCall := by
    intro state fields state' fields' q deserted _ hcall
    cases q with
    | handshake uid token => exact hcall
    | _ => trivial

/-- The text keeps to the rules, whatever the session is. -/
def KeepsRules (body : Body) (deserted : Bool) : Prop :=
  ∀ state fields, Coroutine.Obeys readerRules FieldUpdate.apply body state fields deserted

section
variable {deserted : Bool}

theorem keeps_finish : KeepsRules .finish deserted := fun _ _ => trivial

theorem keeps_look {next : MonitoringSessionState → Body} (h : ∀ state, KeepsRules (next state) deserted) :
    KeepsRules (.look next) deserted := fun state fields => h state state fields

theorem keeps_get {next : SessionFields → Body} (h : ∀ fields, KeepsRules (next fields) deserted) :
    KeepsRules (.get next) deserted := fun state fields => h fields state fields

theorem keeps_set {state : MonitoringSessionState} {next : Body} (h : KeepsRules next deserted) :
    KeepsRules (.set state next) deserted := fun _ fields => h state fields

theorem keeps_update {w : FieldUpdate} {next : Body} (h : KeepsRules next deserted) :
    KeepsRules (.update w next) deserted :=
  fun state fields => ⟨trivial, h state (w.apply fields)⟩

theorem keeps_call {q : TransportCall} {next : Bool → Body} (hmay : ∀ fields, readerRules.mayCall q fields deserted)
    (h : ∀ answer, KeepsRules (next answer) (readerRules.after q answer deserted)) :
    KeepsRules (.call q next) deserted :=
  fun _ fields => ⟨trivial, hmay fields, fun answer state fields _ _ => h answer state fields⟩

theorem keeps_fail {message : String} {next : Body} (h : KeepsRules next deserted) :
    KeepsRules (fail message next) deserted :=
  keeps_update (keeps_set h)

/-- The last calls of a start that has failed. -/
theorem keeps_disconnect {next : Body} (h : KeepsRules next deserted) :
    KeepsRules (.call .disconnectSocket fun _ => next) deserted :=
  keeps_call (fun _ => trivial) fun _ => h

theorem keeps_stopDaemon : KeepsRules (.call .stopExistingDaemon fun _ => .finish) deserted :=
  keeps_call (fun _ => trivial) fun _ => keeps_finish

theorem attempts_keeps (intervalMs : Int64) (n : Nat) (deserted : Bool) :
    KeepsRules (attempts intervalMs n) deserted := by
  induction n generalizing deserted with
  | zero => exact keeps_fail keeps_finish
  | succ n ih =>
    have hagain : ∀ deserted, KeepsRules (.call (.delay intervalMs) fun _ => attempts intervalMs n) deserted :=
      fun deserted => keeps_call (fun _ => trivial) fun _ => ih deserted
    refine keeps_disconnect (keeps_call (fun _ => trivial) fun started => ?_)
    cases started with
    | false => exact hagain _
    | true =>
      refine keeps_get fun fields => keeps_call (fun _ => trivial) fun running => ?_
      cases running with
      | false => exact hagain _
      | true =>
        refine keeps_call (fun _ => trivial) fun connected => ?_
        cases connected with
        | false => exact hagain _
        | true =>
          refine keeps_get fun fields => keeps_call (fun _ => rfl) fun accepted => ?_
          cases accepted with
          | false => exact hagain _
          | true => exact keeps_call (fun _ => trivial) fun _ => keeps_set keeps_finish

theorem startMonitoring_keeps (targetUid : Int32) (packageName appName : String) (deserted : Bool) :
    KeepsRules (startMonitoring targetUid packageName appName) deserted := by
  refine keeps_look fun state => ?_
  split
  · exact keeps_finish
  refine keeps_update <| keeps_set <| keeps_call (fun _ => trivial) fun _ => keeps_disconnect <|
    keeps_call (fun _ => trivial) fun _ => keeps_call (fun _ => trivial) fun started => ?_
  cases started with
  | false => exact keeps_fail keeps_finish
  | true =>
    refine keeps_update <| keeps_get fun fields => keeps_call (fun _ => trivial) fun running => ?_
    cases running with
    | false => exact keeps_fail (keeps_disconnect keeps_finish)
    | true =>
      refine keeps_call (fun _ => trivial) fun connected => ?_
      cases connected with
      | false => exact keeps_fail (keeps_disconnect keeps_stopDaemon)
      | true =>
        refine keeps_set <| keeps_get fun fields => keeps_call (fun _ => rfl) fun accepted => ?_
        cases accepted with
        | false => exact keeps_fail (keeps_disconnect keeps_stopDaemon)
        | true =>
          exact keeps_call (fun _ => trivial) fun _ => keeps_call (fun _ => trivial) fun _ => keeps_set keeps_finish

/-- **Every operation keeps to the rules**, whatever it knows at its beginning. -/
theorem body_keeps (op : Operation) (deserted : Bool) : KeepsRules (programs.body op) deserted := by
  -- `pause` and `resume`
  have hsend : ∀ {q : TransportCall} {state : MonitoringSessionState},
      (∀ fields, readerRules.mayCall q fields deserted) →
      KeepsRules (.call q fun sent => if sent then .set state .finish else .finish) deserted := by
    intro q state hmay
    refine keeps_call hmay fun sent => ?_
    cases sent with
    | false => exact keeps_finish
    | true => exact keeps_set keeps_finish
  cases op with
  | startMonitoring targetUid packageName appName => exact startMonitoring_keeps _ _ _ deserted
  | pause =>
    refine keeps_look fun state => ?_
    split
    · exact keeps_finish
    · exact hsend fun _ => trivial
  | resume =>
    refine keeps_look fun state => ?_
    split
    · exact keeps_finish
    · exact hsend fun _ => trivial
  | stop =>
    refine keeps_look fun state => ?_
    split
    · exact keeps_finish
    · exact keeps_set <| keeps_call (fun _ => trivial) fun _ => keeps_call (fun _ => trivial) fun _ =>
        keeps_disconnect <| keeps_call (fun _ => trivial) fun _ => keeps_update (keeps_set keeps_finish)
  | enterReconnecting =>
    refine keeps_look fun state => ?_
    split
    · exact keeps_set keeps_finish
    · exact keeps_finish
  | attemptReconnect maxAttempts intervalMs =>
    refine keeps_look fun state => ?_
    split
    · exact keeps_finish
    · exact attempts_keeps _ _ deserted
  | reset =>
    refine keeps_look fun state => ?_
    split
    · exact keeps_set (keeps_update keeps_finish)
    · exact keeps_finish

end

/-! ### The invariant -/

namespace MonitoringApp

/-- No event loop is running. -/
def Deserted (s : MonitoringApp) : Prop := ∀ l ∈ s.loops, l.alive = false

/-- Event loop `j` reads from the connection. -/
def ReadsFrom (s : MonitoringApp) (j conn : Nat) : Prop :=
  s.socket = some conn ∧ ∃ l, s.loops[j]? = some l ∧ l.phase = .reading

/-- Operations take turns and keep to the rules, and one that waits for an acknowledgement is in a handshake. -/
structure Apart (s : MonitoringApp) : Prop where
  serial : s.session.Serial programs readerRules fun deserted => deserted = true → s.Deserted
  sent : ∀ i conn, s.sent i = some conn → ∃ uid token, s.pending i = some (.handshake uid token)

theorem pending_congr {s s' : MonitoringApp} (h : s'.session = s.session) (i : Nat) : s'.pending i = s.pending i := by
  unfold pending
  rw [h]

namespace Apart

variable {s s' : MonitoringApp}

/-- While an acknowledgement is awaited, no event loop is running. -/
theorem deserted (h : Apart s) {i conn : Nat} (hsent : s.sent i = some conn) : s.Deserted := by
  obtain ⟨uid, token, hpending⟩ := h.sent i conn hsent
  obtain ⟨t, next, ht, hbegun, hrest⟩ := pending_iff.1 hpending
  obtain ⟨deserted, hholds, hobeys⟩ := h.serial.obeys i t ht (Task.inCall_of_rest hbegun hrest)
  rw [hrest] at hobeys
  exact hholds hobeys.2.1

/-- Only the operation in the call may wait for an acknowledgement. -/
theorem eq_of_sent (h : Apart s) {i j conn : Nat} {q : TransportCall} (hpending : s.pending i = some q)
    (hsent : s.sent j = some conn) : j = i := by
  obtain ⟨uid, token, hj⟩ := h.sent j conn hsent
  obtain ⟨t, ht, htc⟩ := inCall_of_pending hpending
  obtain ⟨u, hu, huc⟩ := inCall_of_pending hj
  exact h.serial.alone j i u t hu ht huc htc

theorem unsent (h : Apart s) {i : Nat} {q : TransportCall} (hpending : s.pending i = some q) (j : Nat) :
    Function.update s.sent i none j = none := by
  by_cases hj : j = i
  · rw [hj, Function.update_self]
  · rw [Function.update_of_ne hj, Option.eq_none_iff_forall_ne_some]
    exact fun conn hconn => hj (h.eq_of_sent hpending hconn)

theorem sent_eq_none (h : Apart s) {i : Nat} {q : TransportCall} (hpending : s.pending i = some q)
    (hq : ∀ uid token, q ≠ .handshake uid token) (j : Nat) : s.sent j = none := by
  rw [Option.eq_none_iff_forall_ne_some]
  intro conn hconn
  obtain ⟨uid, token, hj⟩ := h.sent j conn hconn
  rw [h.eq_of_sent hpending hconn, hpending] at hj
  exact hq uid token (Option.some.inj hj)

/-- The session goes on while nobody waits for an acknowledgement. -/
theorem of_serial {session : Session}
    (hserial : session.Serial programs readerRules fun deserted => deserted = true → s.Deserted)
    (hsent : ∀ j, s.sent j = none) : Apart { s with session } :=
  ⟨hserial, fun j conn hj => by cases (hsent j).symm.trans hj⟩

theorem issues (h : Apart s) {op : Operation} (hstep : s.sessionStep (.issue op) = .ok s') : Apart s' := by
  unfold sessionStep at hstep
  split at hstep
  · next session hissue =>
    cases hstep
    obtain rfl := Machine.issue_ok hissue
    refine ⟨h.serial.launch readerRules_stable trivial op, fun j conn hj => ?_⟩
    obtain ⟨uid, token, hpending⟩ := h.sent j conn hj
    obtain ⟨t, next, ht, hbegun, hrest⟩ := pending_iff.1 hpending
    exact ⟨uid, token, pending_iff.2 ⟨t, next, Machine.tasks_launch op ht, hbegun, hrest⟩⟩
  · cases hstep

theorem begins (h : Apart s) (hquiet : ∀ t ∈ s.session.tasks, t.inCall = false) {i : Nat}
    (hstep : s.sessionStep (.begin i) = .ok s') : Apart s' := by
  unfold sessionStep at hstep
  split at hstep
  · next session hbegin =>
    cases hstep
    have hserial := h.serial.begin (fun p v d c _ => body_keeps p c v d) hquiet (c := false)
      (fun hfalse => by cases hfalse) hbegin
    refine of_serial hserial fun j => Option.eq_none_iff_forall_ne_some.2 fun conn hj => ?_
    obtain ⟨uid, token, hpending⟩ := h.sent j conn hj
    obtain ⟨t, ht, hcall⟩ := inCall_of_pending hpending
    rw [hquiet t (List.mem_of_getElem? ht)] at hcall
    cases hcall
  · cases hstep

theorem performs (h : Apart s) {op : Operation} (hstep : s.sessionStep (.perform op) = .ok s') : Apart s' := by
  unfold sessionStep at hstep
  split at hstep
  · next session hperform =>
    cases hstep
    obtain ⟨hsync, rfl⟩ := Machine.perform_ok hperform
    obtain ⟨hends, -⟩ := Guarded.synchronous_rely hsync s.session.value s.session.data
    refine ⟨h.serial.perform readerRules_stable op hends trivial trivial, fun j conn hj => ?_⟩
    obtain ⟨uid, token, hpending⟩ := h.sent j conn hj
    obtain ⟨t, next, ht, hbegun, hrest⟩ := pending_iff.1 hpending
    have hne : j ≠ s.session.tasks.length := Nat.ne_of_lt (List.getElem?_eq_some_iff.1 ht).1
    refine ⟨uid, token, pending_iff.2 ⟨t, next, ?_, hbegun, hrest⟩⟩
    exact (Machine.tasks_move hne _ _ _ _).trans (Machine.tasks_launch op ht)
  · cases hstep

theorem deserted_cancelLoops (h : s.Deserted) : s.cancelLoops.Deserted := by
  intro l hl
  obtain ⟨l', hl', rfl⟩ := List.mem_map.1 hl
  exact h l' hl'

/-- **What a call does**: nobody waits for an acknowledgement after it, and what the rules say of the event loops is
so. -/
theorem transports (h : Apart s) {i : Nat} {q : TransportCall} (hpending : s.pending i = some q) {result : Bool}
    (haccept : q = .awaitClient → result = true → s.Deserted) (hok : s.transport i result q = .ok s') :
    s'.session = s.session ∧ (∀ j, s'.sent j = none) ∧
      ∀ deserted, (deserted = true → s.Deserted) → readerRules.after q result deserted = true → s'.Deserted := by
  have hsent := h.sent_eq_none hpending
  cases q with
  | awaitClient =>
    cases result with
    | false =>
      cases hok
      exact ⟨rfl, hsent (by simp), fun _ hs => hs⟩
    | true =>
      simp only [transport, Bool.not_true, Bool.false_eq_true, if_false] at hok
      split at hok
      · cases hok
        exact ⟨rfl, hsent (by simp), fun _ _ _ => haccept rfl rfl⟩
      · cases hok
  | handshake uid token =>
    cases result with
    | true => cases hok
    | false =>
      cases hok
      exact ⟨rfl, h.unsent hpending, fun _ hs => hs⟩
  | startEventLoop =>
    cases hok
    exact ⟨rfl, hsent (by simp), fun _ _ hfalse => by cases hfalse⟩
  | stopEventLoop =>
    cases hok
    exact ⟨rfl, hsent (by simp), fun _ hs hafter => deserted_cancelLoops (hs hafter)⟩
  | _ =>
    cases hok
    exact ⟨rfl, hsent (by simp), fun _ hs => hs⟩

/-- The operation goes on after its call. -/
theorem answers (h : Apart s) {i : Nat} {q : TransportCall} (hpending : s.pending i = some q) {between : MonitoringApp}
    (hsession : between.session = s.session) (hsent : ∀ j, between.sent j = none) {result : Bool}
    (hafter : ∀ deserted, (deserted = true → s.Deserted) → readerRules.mayCall q s.session.data deserted →
      readerRules.after q result deserted = true → between.Deserted)
    (hstep : between.sessionStep (.answer i result) = .ok s') : Apart s' := by
  unfold sessionStep at hstep
  split at hstep
  · next session hanswer =>
    cases hstep
    rw [hsession] at hanswer
    refine of_serial (h.serial.answer hanswer (fun t q' next deserted ht hbegun hrest hs hmay => ?_) trivial) hsent
    have hq := pending_iff.2 ⟨t, next, ht, hbegun, hrest⟩
    rw [hpending] at hq
    cases hq
    exact hafter deserted hs hmay
  · cases hstep

theorem answersCall (h : Apart s) {i : Nat} {result : Bool}
    (haccept : s.pending i = some .awaitClient → result = true → s.Deserted) (hstep : s.answer i result = .ok s') :
    Apart s' := by
  unfold answer at hstep
  split at hstep
  · next q hpending =>
    split at hstep
    · next between hok =>
      obtain ⟨hsession, hsent, hafter⟩ := h.transports hpending (fun hq => haccept (hq ▸ hpending)) hok
      exact h.answers hpending hsession hsent (fun deserted hs _ => hafter deserted hs) hstep
    · cases hstep
  · cases hstep

theorem sends (h : Apart s) {i : Nat} (hstep : s.sendSetTarget i = .ok s') : Apart s' := by
  unfold sendSetTarget at hstep
  split at hstep
  · next uid token conn hpending hnone hsocket =>
    cases hstep
    refine ⟨h.serial, fun j c hj => ?_⟩
    have hj : Function.update s.sent i (some conn) j = some c := hj
    by_cases hji : j = i
    · subst hji
      exact ⟨uid, token, hpending⟩
    · rw [Function.update_of_ne hji] at hj
      exact h.sent j c hj
  · cases hstep

theorem readsAck (h : Apart s) {decodeUtf8 : List UInt8 → String} {i : Nat} {frame : Frame}
    (hstep : s.readAck decodeUtf8 i frame = .ok s') : Apart s' := by
  have hrefused : s.answer i false = .ok s' → Apart s' := h.answersCall fun _ hfalse => by cases hfalse
  unfold readAck at hstep
  split at hstep
  · next uid token sentOn conn hpending hsent hsocket =>
    split at hstep
    · split at hstep
      · have hsession : (s.acknowledge i sentOn conn token).session = s.session := rfl
        exact h.answers hpending hsession (h.unsent hpending) (fun deserted hs _ => hs) hstep
      · exact hrefused hstep
      · cases hstep
    · split at hstep
      · exact hrefused hstep
      · cases hstep
        exact h
  · cases hstep

/-- An event loop goes on: it was running, and it changes neither the session nor who waits. -/
theorem loopStep_frame {j : Nat} {l : EventLoop} {a : LoopAction} (hstep : s.loopStep j l a = .ok s') :
    l.alive = true ∧ s'.session = s.session ∧ s'.sent = s.sent := by
  have halive : ∀ {phase}, l.phase = phase → phase ≠ .ended → l.alive = true := by
    rintro _ rfl hne
    exact decide_eq_true hne
  cases a with
  | check =>
    simp only [loopStep] at hstep
    split at hstep
    · cases hstep
    · next htop =>
      have hrunning := halive (not_not.1 htop) LoopPhase.noConfusion
      split at hstep <;> cases hstep <;> exact ⟨hrunning, rfl, rfl⟩
  | accept =>
    simp only [loopStep] at hstep
    split at hstep
    · next hphase =>
      cases hstep
      exact ⟨halive hphase.1 LoopPhase.noConfusion, rfl, rfl⟩
    · cases hstep
  | timeout | readFails =>
    simp only [loopStep] at hstep
    split at hstep
    · next hphase =>
      cases hstep
      exact ⟨halive hphase LoopPhase.noConfusion, rfl, rfl⟩
    · cases hstep
  | read frame =>
    simp only [loopStep] at hstep
    split at hstep
    · next hphase hsocket =>
      cases hstep
      exact ⟨halive hphase LoopPhase.noConfusion, rfl, rfl⟩
    · cases hstep
  | emit =>
    simp only [loopStep] at hstep
    split at hstep
    · next r hphase =>
      cases hstep
      refine ⟨halive hphase LoopPhase.noConfusion, ?_, ?_⟩ <;> split <;> rfl
    · cases hstep

/-- The loops go on, and if none was running none is. -/
theorem of_loops (h : Apart s) (hsession : s'.session = s.session) (hsent : s'.sent = s.sent)
    (hloops : s.Deserted → s'.Deserted) : Apart s' := by
  refine ⟨?_, fun i conn hi => ?_⟩
  · rw [hsession]
    exact h.serial.mono fun deserted hs hd => hloops (hs hd)
  · rw [hsent] at hi
    rw [pending_congr hsession]
    exact h.sent i conn hi

theorem collects (h : Apart s) (decodeUtf8 : List UInt8 → String) {j : Nat} {l : EventLoop}
    (hl : s.loops[j]? = some l) (r : ReadFrame) (buffer : List ReadFrame) :
    Apart (s.collect decodeUtf8 j l r buffer) := by
  have hdead : ∀ l' : EventLoop, l'.phase = l.phase → s.Deserted → ∀ m ∈ s.loops.set j l', m.alive = false := by
    intro l' hphase hs m hm
    rcases List.mem_or_eq_of_mem_set hm with hm | rfl
    · exact hs m hm
    · rw [EventLoop.alive, hphase]
      exact hs l (List.mem_of_getElem? hl)
  unfold collect
  split
  · split
    · exact h.of_loops rfl rfl (hdead _ rfl)
    · exact h.of_loops rfl rfl (hdead _ rfl)
    · exact h.of_loops rfl rfl (hdead _ rfl)
  · exact h.of_loops rfl rfl (hdead _ rfl)

end Apart

/-- Operations do not overlap, and a client is accepted for a handshake only when no event loop is running. -/
def TakesTurns (s : MonitoringApp) : AppAction → Prop
  | .begin _ => ∀ t ∈ s.session.tasks, t.inCall = false
  | .answer i true => s.pending i = some .awaitClient → ∀ l ∈ s.loops, l.alive = false
  | _ => True

instance (s : MonitoringApp) (a : AppAction) : Decidable (TakesTurns s a) :=
  match a with
  | .begin _ => List.decidableBAll _ _
  | .answer _ true => @instDecidableForall _ _ inferInstance (List.decidableBAll _ _)
  | .answer _ false | .issue _ | .perform _ | .sendSetTarget _ | .readAck _ _ | .loop _ _ | .collect _ =>
    instDecidableTrue

theorem apart_initial (random : Nat → List.Vector UInt8 16) : Apart (initial random) where
  serial := Machine.Serial.initial trivial
  sent := fun i conn hsent => by cases hsent

theorem Apart.step {s s' : MonitoringApp} (h : Apart s) {decodeUtf8 : List UInt8 → String} {a : AppAction}
    (hturns : TakesTurns s a) (hstep : step decodeUtf8 s a = .ok s') : Apart s' := by
  cases a with
  | issue op => exact h.issues hstep
  | begin i => exact h.begins hturns hstep
  | perform op => exact h.performs hstep
  | answer i result =>
    refine h.answersCall (fun hpending hresult => ?_) hstep
    subst hresult
    exact hturns hpending
  | sendSetTarget i => exact h.sends hstep
  | readAck i frame => exact h.readsAck hstep
  | loop j a =>
    simp only [MonitoringApp.step] at hstep
    split at hstep
    · next l hl =>
      obtain ⟨halive, hsession, hsent⟩ := loopStep_frame hstep
      refine h.of_loops hsession hsent fun hs => ?_
      rw [hs l (List.mem_of_getElem? hl)] at halive
      cases halive
    · cases hstep
  | collect j =>
    simp only [MonitoringApp.step] at hstep
    split at hstep
    · next l hl =>
      split at hstep
      · next r buffer _ =>
        cases hstep
        exact h.collects decodeUtf8 hl r buffer
      · cases hstep
    · cases hstep

/-- **One reader per connection**, in every run whose operations do not overlap and in which a client is accepted for
a handshake only when no event loop is running: an event loop does not read from a connection on which an
acknowledgement is awaited, so none consumes it. -/
theorem one_reader {decodeUtf8 : List UInt8 → String} {random : Nat → List.Vector UInt8 16}
    {actions : List AppAction} (h : StepsMeet (step decodeUtf8) TakesTurns (initial random) actions) :
    ∀ done, done <+: actions → ∀ s, run (step decodeUtf8) (initial random) done = .ok s →
      (∀ i j conn, ¬ (s.sent i = some conn ∧ s.ReadsFrom j conn)) ∧
      ∀ j frame s', step decodeUtf8 s (.loop j (.read frame)) = .ok s' →
        ∀ i conn, s.sent i = some conn → s.socket ≠ some conn := by
  intro done hdone s hrun
  have hs : Apart s := by
    refine run_along (P := fun _ => Apart) (apart_initial random) ?_ hrun
    intro earlier a m t hpre hm hapart hstep
    exact hapart.step (h earlier a (hpre.trans hdone) m hm) hstep
  have hdeserted : ∀ (i conn j : Nat) (l : EventLoop), s.sent i = some conn → s.loops[j]? = some l →
      l.alive = false :=
    fun i conn j l hsent hl => hs.deserted hsent l (List.mem_of_getElem? hl)
  refine ⟨?_, ?_⟩
  · rintro i j conn ⟨hsent, -, l, hl, hphase⟩
    have hdead := hdeserted i conn j l hsent hl
    rw [EventLoop.alive, hphase] at hdead
    cases hdead
  · intro j frame s' hread i conn hsent
    simp only [MonitoringApp.step] at hread
    split at hread
    · next l hl =>
      obtain ⟨halive, -⟩ := Apart.loopStep_frame hread
      rw [hdeserted i conn j l hsent hl] at halive
      cases halive
    · cases hread

/-- The event loop reads, the session loses its connection, and a reconnection begins. -/
def reconnecting : List AppAction :=
  handshaken ++ [AppAction.loop 0 .check, .perform .enterReconnecting, .issue (.attemptReconnect 3 1000), .begin 2,
    .answer 2 true, .loop 0 .readFails]

/-- The reconnection starts the server and the daemon and accepts the client. -/
def reaccepts : List AppAction := List.replicate 3 (.answer 2 true)

/-- The event loop finds that the server is not running before the reconnection starts it again. -/
def turnsTaken : List AppAction :=
  reconnecting ++ AppAction.loop 0 .check :: reaccepts ++ [AppAction.sendSetTarget 2]

theorem one_reader_turnsTaken :
    StepsMeet (step decodeAscii) TakesTurns (initial zeroBytes) turnsTaken ∧
      ∃ s, run (step decodeAscii) (initial zeroBytes) turnsTaken = .ok s ∧ s.sent 2 = some 1 ∧ s.socket = some 1 ∧
        ∀ i j conn, ¬ (s.sent i = some conn ∧ s.ReadsFrom j conn) := by
  have hmeet : StepsMeet (step decodeAscii) TakesTurns (initial zeroBytes) turnsTaken :=
    stepsMeet_of_eval (by decide +kernel)
  refine ⟨hmeet, ?_⟩
  obtain ⟨s, hrun, hsent, hsocket⟩ :
      ∃ s, run (step decodeAscii) (initial zeroBytes) turnsTaken = .ok s ∧ s.sent 2 = some 1 ∧ s.socket = some 1 :=
    exists_of_endsIn (by decide +kernel)
  exact ⟨s, hrun, hsent, hsocket, (one_reader hmeet _ List.prefix_rfl s hrun).1⟩

/-- The event loop goes on after the reconnection has accepted the client. -/
def loopTakesUp : List AppAction :=
  reconnecting ++ reaccepts ++ [AppAction.loop 0 .check, .sendSetTarget 2]

/-- **The old event loop reads from the connection of the handshake**, and consumes the acknowledgement. -/
theorem ack_consumed :
    ∃ s, run (step decodeAscii) (initial zeroBytes) loopTakesUp = .ok s ∧ s.sent 2 = some 1 ∧ s.ReadsFrom 0 1 ∧
      ∃ s', step decodeAscii s (.loop 0 (.read (ackFrame s.token))) = .ok s' := by
  obtain ⟨s, hrun, hsent, hsocket, hreading, hread⟩ :
      ∃ s, run (step decodeAscii) (initial zeroBytes) loopTakesUp = .ok s ∧ s.sent 2 = some 1 ∧ s.socket = some 1 ∧
        s.loops[0]?.map EventLoop.phase = some .reading ∧
        endsIn (fun _ => true) (step decodeAscii s (.loop 0 (.read (ackFrame s.token)))) = true :=
    exists_of_endsIn (by decide +kernel)
  obtain ⟨l, hl, hphase⟩ := Option.map_eq_some_iff.1 hreading
  refine ⟨s, hrun, hsent, ⟨hsocket, l, hl, hphase⟩, ?_⟩
  obtain ⟨s', hs', -⟩ := exists_of_endsIn (P := fun _ => True) (by simpa using hread)
  exact ⟨s', hs'⟩

end MonitoringApp

end BinderTracer.App
