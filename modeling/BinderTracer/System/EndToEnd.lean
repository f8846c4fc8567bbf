import BinderTracer.Daemon.LossyRing
import BinderTracer.Daemon.RingReader
import BinderTracer.System.EventDelivery

/-!
# From the kernel to the app

The whole way of an event: the bytes of the ring are read by the collector, whose two goroutines pass what it emits
to `SendEvent` in any order; the client queues it and writes it to a connection, and the app decodes what arrives.
Records, events, bytes and connections may be lost on the way, and everything may interleave. Still, what the app
shows are executions of the kernel program, each at most once if no two of them read the same clock
(`displayed_events_trace_executions`).
-/

namespace BinderTracer.Daemon

open BinderTracer.Kernel BinderTracer.Lib

/-- A call of the collector only adds to what it has emitted. -/
theorem emitted_prefix {c c' : EventCollector} {call : Call} (hprod : c.legacyCookieZeroSyncEmit = false)
    (h : step c call = .ok c') : c.emitted <+: c'.emitted := by
  obtain ⟨news, hout⟩ := step_outcome hprod h
  rcases hout.events with hmerge | ⟨arrived, given, passed, hrel, -⟩
  · obtain ⟨ev, hev⟩ := hmerge.emitted
    exact ⟨[ev], hev.symm⟩
  · exact ⟨given ++ passed, hrel.emitted.symm⟩

/-- The collector and the client, with the events that were emitted and whose callback has not called `SendEvent`
yet. -/
structure Pipeline where
  collector : EventCollector := newEventCollector
  outbox : List BinderEventPayload := []
  path : EventPath

namespace Pipeline

/-- Why there is no next state: the daemon has ended, or the action is not possible. -/
inductive Halt where
  | panic (p : GoPanic)
  | blocked
deriving DecidableEq, Repr

/-- What can happen. `SendEvent` is called for the events in the outbox only. -/
inductive Action where
  | collect (a : Activity)
  | send (j : Nat)
  | path (a : EventPath.Action)

/-- After `Connect`, before the collector starts. -/
def started (sessionToken : String) : Pipeline := { path := EventPath.connected sessionToken }

/-- The event callback of `daemon.go` passes an event to `SendEvent`. -/
def send (s : Pipeline) (j : Nat) : Except Halt Pipeline :=
  match s.outbox[j]? with
  | some e =>
    match s.path.step (.sendEvent e) with
    | .ok path => .ok { s with path, outbox := s.outbox.eraseIdx j }
    | .error _ => .error .blocked
  | none => .error .blocked

def step (s : Pipeline) : Action → Except Halt Pipeline
  | .collect a =>
    match perform s.collector a with
    | .ok collector =>
      let news := (collector.emitted.drop s.collector.emitted.length).map MainEvent.payload
      .ok { s with collector, outbox := s.outbox ++ news }
    | .error p => .error (.panic p)
  | .send j => s.send j
  | .path (.sendEvent _) => .error .blocked
  | .path a =>
    match s.path.step a with
    | .ok path => .ok { s with path }
    | .error _ => .error .blocked

/-- What the collector does in a run. -/
def activities (actions : List Action) : List Activity :=
  actions.filterMap fun
    | .collect a => some a
    | _ => none

/-- The calls that the collector makes in a run. -/
def calls (actions : List Action) : List Call := (activities actions).filterMap Activity.call

/-- The two halves are in states of runs of theirs, and what the collector has emitted was passed on or waits for
it. -/
structure Joined (sessionToken : String) (actions : List Action) (s : Pipeline) : Prop where
  collector : run perform newEventCollector (activities actions) = .ok s.collector
  path : ∃ pathActions, run EventPath.step (EventPath.connected sessionToken) pathActions = .ok s.path
  passed : (s.path.sent ++ s.outbox).Perm (s.collector.emitted.map MainEvent.payload)

/-- No other action of the client changes what was passed to it. -/
theorem sent_step {s t : EventPath} {a : EventPath.Action} (ha : ∀ e, a ≠ .sendEvent e) (h : s.step a = .ok t) :
    t.sent = s.sent := by
  cases EventPath.effect_of_step h with
  | sends e => exact absurd rfl (ha e)
  | _ => rfl

namespace Joined

variable {sessionToken : String} {actions : List Action} {s t : Pipeline}

theorem collect (h : Joined sessionToken actions s) {a : Activity} {collector : EventCollector}
    (hperform : perform s.collector a = .ok collector) :
    Joined sessionToken (actions ++ [.collect a])
      { s with
        collector
        outbox := s.outbox ++ (collector.emitted.drop s.collector.emitted.length).map MainEvent.payload } where
  collector := by
    have hactivities : activities (actions ++ [.collect a]) = activities actions ++ [a] := List.filterMap_append
    rw [hactivities, run_snoc, h.collector]
    exact hperform
  path := h.path
  passed := by
    have hprod : s.collector.legacyCookieZeroSyncEmit = false := by
      have hcalls := h.collector
      rw [run_perform] at hcalls
      exact (run_originates hcalls).2.2
    have hprefix : s.collector.emitted <+: collector.emitted := by
      have hone : run perform s.collector [a] = .ok collector := by
        rw [run_cons, hperform]
        rfl
      rw [run_perform, List.filterMap_cons] at hone
      split at hone
      · cases hone
        exact List.prefix_refl _
      · next call _ =>
        rw [List.filterMap_nil, run_cons] at hone
        cases hstep : Daemon.step s.collector call with
        | error p =>
          rw [hstep] at hone
          cases hone
        | ok c' =>
          rw [hstep] at hone
          cases hone
          exact emitted_prefix hprod hstep
    obtain ⟨news, hnews⟩ := hprefix
    rw [← hnews, List.drop_left, List.map_append, ← List.append_assoc]
    exact h.passed.append_right _

theorem send (h : Joined sessionToken actions s) {j : Nat} (hstep : s.send j = .ok t) :
    Joined sessionToken (actions ++ [.send j]) t := by
  unfold Pipeline.send at hstep
  split at hstep
  · next e he =>
    cases hstep
    obtain ⟨pathActions, hpath⟩ := h.path
    refine ⟨?_, ⟨pathActions ++ [.sendEvent e], ?_⟩, ?_⟩
    · have hactivities : activities (actions ++ [.send j]) = activities actions := by
        rw [activities, List.filterMap_append]
        exact List.append_nil _
      rw [hactivities]
      exact h.collector
    · rw [run_snoc, hpath]
      rfl
    · refine List.Perm.trans ?_ h.passed
      obtain ⟨hj, rfl⟩ := List.getElem?_eq_some_iff.1 he
      show ((s.path.sent ++ [s.outbox[j]]) ++ s.outbox.eraseIdx j).Perm _
      rw [List.append_assoc, List.singleton_append]
      exact (List.getElem_cons_eraseIdx_perm hj).append_left _
  · cases hstep

theorem step (h : Joined sessionToken actions s) {a : Action} (hstep : s.step a = .ok t) :
    Joined sessionToken (actions ++ [a]) t := by
  cases a with
  | collect a =>
    simp only [Pipeline.step] at hstep
    split at hstep
    · next collector hperform =>
      cases hstep
      exact h.collect hperform
    · cases hstep
  | send j => exact h.send hstep
  | path a =>
    have hother : ∀ e, a ≠ .sendEvent e := by
      rintro e rfl
      cases hstep
    obtain ⟨path, hpath, rfl⟩ : ∃ path, s.path.step a = .ok path ∧ t = { s with path } := by
      cases a <;> simp only [Pipeline.step] at hstep
      case sendEvent => cases hstep
      all_goals
        split at hstep
        · next path hpath => exact ⟨path, hpath, (Except.ok.inj hstep).symm⟩
        · cases hstep
    obtain ⟨pathActions, hactions⟩ := h.path
    refine ⟨?_, ⟨pathActions ++ [a], ?_⟩, ?_⟩
    · have hactivities : activities (actions ++ [.path a]) = activities actions := by
        rw [activities, List.filterMap_append]
        exact List.append_nil _
      rw [hactivities]
      exact h.collector
    · rw [run_snoc, hactions]
      exact hpath
    · show (path.sent ++ s.outbox).Perm _
      rw [sent_step hother hpath]
      exact h.passed

end Joined

theorem run_joined {sessionToken : String} {actions : List Action} {s : Pipeline}
    (hrun : run step (started sessionToken) actions = .ok s) : Joined sessionToken actions s := by
  refine run_history ?_ (fun _ _ _ _ _ h hstep => ?_) hrun
  · exact ⟨rfl, ⟨[], rfl⟩, .refl _⟩
  · exact h.step hstep

end Pipeline

end BinderTracer.Daemon

namespace BinderTracer.App

open BinderTracer.Kernel BinderTracer.Lib BinderTracer.Daemon

/-- The event shows the execution with the transaction `tr`: the sender, the fields of the transaction, and all the
bytes of its parcel if they could be read. -/
structure BinderEvent.Displays (k : BinderEvent) (x : Execution) (tr : BinderTransactionData) : Prop where
  traced : Traced x.ctx tr
  pid : k.pid = x.ctx.currentPid.toInt32
  uid : k.uid = x.ctx.currentUid.toInt32
  code : k.code = tr.code.toInt32
  flags : k.flags = tr.flags.toInt32
  isReply : k.isReply = x.ctx.reply
  binderDev : k.binderDev = BinderDev.fromByte (Kernel.binderDev x.ctx.contextName)
  targetRef : k.targetRef = tr.target.toInt64
  length : k.rawParcel.length = tr.dataSize.toNat
  parcel : ∀ parcel : Bytes, tr.dataSize.toNat = parcel.length → ParcelReadable x.ctx tr parcel →
    k.rawParcel = parcel

theorem BinderEvent.Shows.displays {decodeUtf8 : List UInt8 → String} {k : BinderEvent} {e : BinderEventPayload}
    (h : k.Shows decodeUtf8 e) {x : Execution} {tr : BinderTransactionData} (htraced : x.TracedAs e tr) :
    k.Displays x tr := by
  have hreply : decide (e.isReply = 1) = x.ctx.reply := by
    rw [htraced.isReply]
    cases x.ctx.reply <;> rfl
  rw [h.fields]
  exact ⟨htraced.traced, congrArg _ htraced.pid, congrArg _ htraced.uid, congrArg _ htraced.code,
    congrArg _ htraced.flags, hreply, congrArg BinderDev.fromByte htraced.binderDev, congrArg _ htraced.targetRef,
    htraced.length, htraced.parcel⟩

/-- Some of the images of a list are the images of some of its entries. -/
theorem exists_subperm_of_map {A B : Type} {f : A → B} {l : List B} {xs : List A}
    (h : List.Subperm l (xs.map f)) : ∃ ys, List.Subperm ys xs ∧ l = ys.map f := by
  obtain ⟨l', hperm, hsub⟩ := h
  obtain ⟨zs, hzs, rfl⟩ := List.sublist_map_iff.1 hsub
  have hcomp : Relation.Comp (· = List.map f ·) List.Perm l zs := by
    rw [List.eq_map_comp_perm]
    exact hperm.symm
  obtain ⟨ys, hys, hyszs⟩ := hcomp
  exact ⟨ys, ⟨zs, hyszs.symm, hzs⟩, hys⟩

/-- The executions that decoded events show, where each event was sent for an event of the collector. -/
theorem exists_origins {decodeUtf8 : List UInt8 → String} {executions : List Execution} {ks : List BinderEvent}
    {events : List MainEvent} (hshows : List.Forall₂ (fun k ev => k.Shows decodeUtf8 ev.payload) ks events)
    (htraced : ∀ ev ∈ events, ∃ x ∈ executions, x.ctx.ktime = ev.transactionId ∧ ∃ tr, x.TracedAs ev.payload tr) :
    ∃ origins, List.Forall₂ (fun k x => x ∈ executions ∧ ∃ tr, BinderEvent.Displays k x tr) ks origins ∧
      origins.map (fun x => x.ctx.ktime) = events.map MainEvent.transactionId := by
  induction hshows with
  | nil => exact ⟨[], .nil, rfl⟩
  | cons hshow _ ih =>
    obtain ⟨x, hx, hname, tr, hx'⟩ := htraced _ List.mem_cons_self
    obtain ⟨origins, hall, hnames⟩ := ih fun ev hev => htraced ev (List.mem_cons_of_mem _ hev)
    exact ⟨x :: origins, .cons ⟨hx, tr, hshow.displays hx'⟩ hall, by rw [List.map_cons, hname, hnames, List.map_cons]⟩

/-- The executions that the decoded events show. -/
theorem exists_displayed (decodeUtf8 : List UInt8 → String) {executions : List Execution} {sessionToken : String}
    {actions : List Pipeline.Action} {s : Pipeline} (hlossy : Lossy executions (Pipeline.calls actions))
    (hrun : run Pipeline.step (Pipeline.started sessionToken) actions = .ok s) {inputs : Conn → Input}
    (hinputs : ∀ conn, (inputs conn).bytes <+: (s.path.wires conn).written) (handshake : Conn → Nat)
    (idCounter : Int64) :
    ∃ collected, run (collectFrame decodeUtf8) { idCounter }
        (readConnections inputs handshake s.path.client.dials) = .ok collected ∧
      ∃ origins : List Execution, origins.Nodup ∧
        List.Forall₂ (fun k x => x ∈ executions ∧ ∃ tr, BinderEvent.Displays k x tr) collected.events origins := by
  have hjoined := Pipeline.run_joined hrun
  have hcalls : run step newEventCollector (Pipeline.calls actions) = .ok s.collector := by
    rw [Pipeline.calls, ← run_perform]
    exact hjoined.collector
  obtain ⟨pathActions, hpath⟩ := hjoined.path
  have hs := EventPath.run_delivering hpath
  obtain ⟨share, collected, hcollected, hshows, hsub, -⟩ :=
    collect_delivered decodeUtf8 hs hinputs handshake idCounter
  refine ⟨collected, hcollected, ?_⟩
  -- what was accepted was passed on, and that is part of what the collector emitted
  have hemitted : List.Subperm ((List.range s.path.client.dials).flatMap share)
      (s.collector.emitted.map MainEvent.payload) := by
    have hsent : List.Subperm s.path.accepted s.path.sent :=
      (List.sublist_append_left _ _).subperm.trans hs.flow.sent.symm.subperm
    have hpassed : List.Subperm s.path.sent (s.collector.emitted.map MainEvent.payload) :=
      (List.sublist_append_left _ _).subperm.trans hjoined.passed.subperm
    exact (hsub.subperm.trans hsent).trans hpassed
  obtain ⟨events, hevents, hshare⟩ := exists_subperm_of_map hemitted
  rw [hshare, List.forall₂_map_right_iff] at hshows
  obtain ⟨origins, hall, hnames⟩ := exists_origins hshows fun ev hev => by
    obtain ⟨x, hx, hname, htraced, -⟩ := hlossy.exists_traced hcalls (hevents.subset hev)
    exact ⟨x, hx, hname, htraced⟩
  refine ⟨origins, List.Nodup.of_map (fun x => x.ctx.ktime) ?_, hall⟩
  rw [hnames]
  obtain ⟨some, hperm, hsome⟩ := hevents
  exact (hperm.map _).nodup_iff.1 ((hlossy.nodup_emitted hcalls).sublist (hsome.map _))

/-- **What the app shows has happened, once.** Whatever records the ring loses, whatever the collector gives up,
whatever the channel drops and wherever the connections fail: every event that the app decodes shows an execution
of the kernel program, with its sender, its transaction and all its bytes, and no two events show the same one. -/
theorem displayed_events_trace_executions (decodeUtf8 : List UInt8 → String) {executions : List Execution} {sessionToken : String}
    {actions : List Pipeline.Action} {s : Pipeline} (hlossy : Lossy executions (Pipeline.calls actions))
    (hrun : run Pipeline.step (Pipeline.started sessionToken) actions = .ok s) {inputs : Conn → Input}
    (hinputs : ∀ conn, (inputs conn).bytes <+: (s.path.wires conn).written) (handshake : Conn → Nat)
    (idCounter : Int64) :
    ∃ collected, run (collectFrame decodeUtf8) { idCounter }
        (readConnections inputs handshake s.path.client.dials) = .ok collected ∧
      ∃ origins : List Execution, origins.Nodup ∧
        List.Forall₂ (fun k x => x ∈ executions ∧ ∃ tr, BinderEvent.Displays k x tr) collected.events origins :=
  exists_displayed decodeUtf8 hlossy hrun hinputs handshake idCounter

/-- The bytes of chunk record `i` of a request, with padding of zeros. -/
def chunkBytes (x : Execution) (i : Nat) : Bytes :=
  binderTraceEvent.write (evtKindMain, chunkRecord x.ctx (sampleData 1025) i (List.Vector.replicate _ 0), 0, 0, 0)

theorem readSample_chunkBytes (x : Execution) (i : Nat) :
    readSample (chunkBytes x i) =
      some (.main (chunkRecord x.ctx (sampleData 1025) i (List.Vector.replicate _ 0))) :=
  readSample_eq_some_iff.2 ⟨chunkBytes x i, [], .main _ (0, 0, 0), (List.append_nil _).symm⟩

theorem call_chunkBytes (x : Execution) (i : Nat) :
    (Activity.sample ⟨idleEnv, 0, 0⟩ (chunkBytes x i)).call = some (x.deliver i) := by
  rw [Activity.call, readSample_chunkBytes]
  rfl

theorem perform_chunkBytes (c : EventCollector) (x : Execution) (i : Nat) :
    perform c (.sample ⟨idleEnv, 0, 0⟩ (chunkBytes x i)) = step c (x.deliver i) := by
  rw [perform, readSample_chunkBytes]
  rfl

/-- The ring loses the second chunk of the first request; the event of the other one is swept, sent and written. -/
def lostAndSent : List Pipeline.Action :=
  [.collect (.sample ⟨idleEnv, 0, 0⟩ (chunkBytes (filledRequest 0 1 100 1) 0)),
    .collect (.sample ⟨idleEnv, 0, 0⟩ (chunkBytes (filledRequest 1 2 200 2) 0)),
    .collect (.sample ⟨idleEnv, 0, 0⟩ (chunkBytes (filledRequest 1 2 200 2) 1)),
    .collect (.runSweep (2 * pendingMainTTL) ⟨id, List.Perm.refl⟩ ⟨id, List.Perm.refl⟩), .send 0,
    .path (.advance 0), .path (.advance 0), .path (.advance 0), .path (.receive 0), .path .testPaused,
    .path .currentConn, .path (.write 0)]

theorem calls_lostAndSent : Pipeline.calls lostAndSent = chunkLost := by
  simp only [Pipeline.calls, Pipeline.activities, lostAndSent, List.filterMap_cons, List.filterMap_nil,
    call_chunkBytes]
  rfl

theorem displayed_events_trace_executions_lostAndSent :
    ∃ s, run Pipeline.step (Pipeline.started "t") lostAndSent = .ok s ∧ s.path.written.length = 1 ∧
      ∃ collected, run (collectFrame decodeAscii) { idCounter := 0 }
          (readConnections (fun conn => { pieces := [(s.path.wires conn).written] }) (fun _ => 0)
            s.path.client.dials) = .ok collected ∧
        ∃ origins : List Execution, origins.Nodup ∧
          List.Forall₂ (fun k x => x ∈ twoRequests 2 ∧ ∃ tr, BinderEvent.Displays k x tr) collected.events
            origins := by
  have hends : endsIn (fun s : Pipeline => decide (s.path.written.length = 1))
      (run Pipeline.step (Pipeline.started "t") lostAndSent) = true := by
    simp only [lostAndSent, run_cons, Pipeline.step, perform_chunkBytes]
    decide +kernel
  obtain ⟨s, hrun, hwritten⟩ := exists_of_endsIn hends
  refine ⟨s, hrun, hwritten, ?_⟩
  exact displayed_events_trace_executions decodeAscii (calls_lostAndSent ▸ lossy_chunkLost) hrun
    (fun conn => by simp [Input.bytes]) (fun _ => 0) 0

end BinderTracer.App
