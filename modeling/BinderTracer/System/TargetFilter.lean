import BinderTracer.System.EndToEnd

/-!
# Whose transactions are captured

The daemon is told by the app which uid to capture; it writes the uid into `trace_config_map`, where every
execution of the kernel program looks it up. Until then the map says 0, which captures everything, or the uid that
the daemon was started with. Once a `SET_TARGET` has been handled without an error, the kernel program captures
nothing else, and so the app shows nothing else that happens from then on: what it may still show of other apps
happened before, and was on its way.
-/

namespace BinderTracer.Daemon

open BinderTracer.Kernel BinderTracer.Lib

/-- The pipeline and the uid in `trace_config_map`. -/
structure Monitor where
  pipeline : Pipeline
  config : UInt32

namespace Monitor

inductive Action where
  | execute (x : Execution)
  | pipeline (a : Pipeline.Action)

/-- The probes are attached, the map has the uid that the daemon was started with, and the client is connected. -/
def started (sessionToken : String) (config : UInt32) : Monitor :=
  { pipeline := Pipeline.started sessionToken, config }

/-- What handling a command makes of the uid in the map: `SetTargetUid` puts the new one there, unless the map
cannot be written. -/
def configAfter (config : UInt32) (onSetTarget : UInt32 → Option String) (frame : Frame) : UInt32 :=
  if frame.type = msgTypeSetTarget then
    match decodeSetTarget frame.payload with
    | none => config
    | some uid => if onSetTarget uid = none then uid else config
  else config

/-- The uid in the map after an action. -/
def configAfterAction (config : UInt32) : Pipeline.Action → UInt32
  | .path (.command _ onSetTarget frame) => configAfter config onSetTarget frame
  | _ => config

/-- An execution sees the uid that is in the map. -/
def step (s : Monitor) : Action → Except Pipeline.Halt Monitor
  | .execute x =>
    if x.ctx.config = some s.config then .ok s else .error .blocked
  | .pipeline a =>
    match s.pipeline.step a with
    | .ok pipeline => .ok { pipeline, config := configAfterAction s.config a }
    | .error h => .error h

/-- The actions of the pipeline. -/
def pipelineActions (actions : List Action) : List Pipeline.Action :=
  actions.filterMap fun
    | .execute _ => none
    | .pipeline a => some a

/-- The executions of the kernel program. -/
def executions (actions : List Action) : List Execution :=
  actions.filterMap fun
    | .execute x => some x
    | .pipeline _ => none

/-- The action leaves the uid in the map as it is. -/
def KeepsTarget : Action → Prop
  | .pipeline (.path (.command _ _ frame)) => frame.type ≠ msgTypeSetTarget
  | _ => True

variable {s t m : Monitor}

theorem step_execute {x : Execution} (h : s.step (.execute x) = .ok t) :
    x.ctx.config = some s.config ∧ t = s := by
  simp only [step] at h
  split at h
  · next hconfig => exact ⟨hconfig, (Except.ok.inj h).symm⟩
  · cases h

theorem step_pipeline {a : Pipeline.Action} (h : s.step (.pipeline a) = .ok t) :
    ∃ pipeline, s.pipeline.step a = .ok pipeline ∧ t = { pipeline, config := configAfterAction s.config a } := by
  simp only [step] at h
  split at h
  · next pipeline hpipeline => exact ⟨pipeline, hpipeline, (Except.ok.inj h).symm⟩
  · cases h

/-- The pipeline goes through a run of its own. -/
theorem run_pipeline {actions : List Action} (hrun : run step s actions = .ok t) :
    run Pipeline.step s.pipeline (pipelineActions actions) = .ok t.pipeline := by
  refine run_history
    (P := fun ops (m : Monitor) => run Pipeline.step s.pipeline (pipelineActions ops) = .ok m.pipeline) rfl ?_ hrun
  intro ops m a t _ hm hstep
  cases a with
  | execute x =>
    obtain ⟨-, rfl⟩ := step_execute hstep
    have hactions : pipelineActions (ops ++ [.execute x]) = pipelineActions ops := by
      rw [pipelineActions, List.filterMap_append]
      exact List.append_nil _
    rw [hactions]
    exact hm
  | pipeline a =>
    obtain ⟨pipeline, hpipeline, rfl⟩ := step_pipeline hstep
    have hactions : pipelineActions (ops ++ [.pipeline a]) = pipelineActions ops ++ [a] := List.filterMap_append
    rw [hactions, run_snoc, hm]
    exact hpipeline

theorem configAfterAction_keeps {a : Pipeline.Action} (h : KeepsTarget (.pipeline a)) (config : UInt32) :
    configAfterAction config a = config := by
  unfold configAfterAction
  split
  · exact if_neg h
  · rfl

/-- What is executed while the target stays sees the target. -/
theorem run_targets {uid : UInt32} {actions : List Action} (hconfig : s.config = uid)
    (hkeeps : ∀ a ∈ actions, KeepsTarget a) (hrun : run step s actions = .ok t) :
    ∀ x ∈ executions actions, x.ctx.config = some uid := by
  refine (run_along
    (P := fun done (t : Monitor) => t.config = uid ∧ ∀ x ∈ executions done, x.ctx.config = some uid)
    ⟨hconfig, by simp [executions]⟩ ?_ hrun).2
  rintro done a m t' hpart - ⟨hm, hdone⟩ hstep
  have ha := hkeeps a (hpart.subset (List.mem_append_right _ List.mem_cons_self))
  rw [executions, List.filterMap_append]
  cases a with
  | execute x =>
    obtain ⟨hx, rfl⟩ := step_execute hstep
    rw [hm] at hx
    exact ⟨hm, List.forall_mem_append.2 ⟨hdone, List.forall_mem_singleton.2 hx⟩⟩
  | pipeline a =>
    obtain ⟨pipeline, -, rfl⟩ := step_pipeline hstep
    exact ⟨(configAfterAction_keeps ha m.config).trans hm, List.forall_mem_append.2 ⟨hdone, by simp⟩⟩

/-- The target that a command sets. -/
theorem config_of_command {i : Nat} {onSetTarget : UInt32 → Option String} {frame : Frame} {uid : UInt32}
    (htype : frame.type = msgTypeSetTarget) (hpayload : decodeSetTarget frame.payload = some uid)
    (hput : onSetTarget uid = none) (hstep : m.step (.pipeline (.path (.command i onSetTarget frame))) = .ok s) :
    s.config = uid := by
  obtain ⟨pipeline, -, rfl⟩ := step_pipeline hstep
  show configAfter m.config onSetTarget frame = uid
  rw [configAfter, if_pos htype, hpayload]
  exact if_pos hput

end Monitor

end BinderTracer.Daemon

namespace BinderTracer.App

open BinderTracer.Kernel BinderTracer.Lib BinderTracer.Daemon

/-- **Once a target is set, nothing else that happens is shown.** However records, events and connections are lost
and whatever interleaves: an event that the app decodes shows an execution from before the command, or one of the
uid that it set (0 stands for all). -/
theorem captured_after_target (decodeUtf8 : List UInt8 → String) {sessionToken : String} {initial uid : UInt32}
    {before after : List Monitor.Action} {i : Nat} {onSetTarget : UInt32 → Option String} {frame : Frame}
    {s : Monitor}
    (hrun : run Monitor.step (Monitor.started sessionToken initial)
      (before ++ .pipeline (.path (.command i onSetTarget frame)) :: after) = .ok s)
    (htype : frame.type = msgTypeSetTarget) (hpayload : decodeSetTarget frame.payload = some uid)
    (hput : onSetTarget uid = none) (hkeeps : ∀ a ∈ after, Monitor.KeepsTarget a)
    (hlossy : Lossy (Monitor.executions (before ++ .pipeline (.path (.command i onSetTarget frame)) :: after))
      (Pipeline.calls (Monitor.pipelineActions
        (before ++ .pipeline (.path (.command i onSetTarget frame)) :: after))))
    {inputs : Conn → Input} (hinputs : ∀ conn, (inputs conn).bytes <+: (s.pipeline.path.wires conn).written)
    (handshake : Conn → Nat) (idCounter : Int64) :
    ∃ collected, run (collectFrame decodeUtf8) { idCounter }
        (readConnections inputs handshake s.pipeline.path.client.dials) = .ok collected ∧
      ∃ origins : List Execution, origins.Nodup ∧
        List.Forall₂ (fun k x => (∃ tr, BinderEvent.Displays k x tr) ∧
          (x ∈ Monitor.executions before ∨ uid = 0 ∨ effectiveUid x.ctx = uid)) collected.events origins := by
  obtain ⟨collected, hcollected, origins, hnodup, hall⟩ :=
    exists_displayed decodeUtf8 hlossy (Monitor.run_pipeline hrun) hinputs handshake idCounter
  refine ⟨collected, hcollected, origins, hnodup, hall.imp ?_⟩
  rintro k x ⟨hx, tr, hdisplays⟩
  refine ⟨⟨tr, hdisplays⟩, ?_⟩
  rw [Monitor.executions, List.filterMap_append, List.filterMap_cons_none rfl] at hx
  refine (List.mem_append.1 hx).imp_right fun hlater => ?_
  -- what is executed later sees the target
  obtain ⟨m, -, hafter⟩ := run_append_ok hrun
  obtain ⟨m', hcommand, hlast⟩ := run_cons_ok hafter
  have hconfig := Monitor.config_of_command htype hpayload hput hcommand
  have hsees := Monitor.run_targets hconfig hkeeps hlast x hlater
  obtain ⟨-, u, hu, hfilter⟩ := hdisplays.traced
  rw [hsees] at hu
  cases hu
  exact hfilter.imp_right Eq.symm

/-- The second request, when the target is its sender. -/
def targetedRequest : Execution :=
  let x := filledRequest 1 2 200 2
  { x with ctx := { x.ctx with config := some 10000 } }

/-- A request is executed before the target is set, the other one after it. -/
def setThenCaptured : List Monitor.Action :=
  .execute targetedRequest :: lostAndSent.map Monitor.Action.pipeline

/-- `SET_TARGET` with the uid 10000. -/
def setTargetFrame : Frame := ⟨msgTypeSetTarget, [0, 0, 0x27, 0x10]⟩

theorem records_targetedRequest : targetedRequest.records = (filledRequest 1 2 200 2).records := rfl

theorem lossy_targetedRequest : Lossy [filledRequest 0 1 100 1, targetedRequest] chunkLost where
  nodup := by
    refine List.nodup_cons.2 ⟨?_, List.nodup_singleton _⟩
    intro hmem
    have hktime := congrArg (fun x : Execution => x.ctx.ktime) (List.mem_singleton.1 hmem)
    exact absurd hktime (by decide)
  apart := by
    intro x hx y hy _ _ hname
    rcases List.mem_pair.1 hx with rfl | rfl <;> rcases List.mem_pair.1 hy with rfl | rfl
    · rfl
    · exact absurd hname (by decide)
    · exact absurd hname (by decide)
    · rfl
  delivered := by
    have hall := lossy_chunkLost.delivered
    rwa [twoRequests, List.flatMap_cons, List.flatMap_cons, ← records_targetedRequest] at hall

theorem captured_after_target_setThenCaptured :
    ∃ s, run Monitor.step (Monitor.started "t" 0) ([.execute (filledRequest 0 1 100 1)] ++
        .pipeline (.path (.command 1 (fun _ => none) setTargetFrame)) :: setThenCaptured) = .ok s ∧
      s.pipeline.path.written.length = 1 ∧
      ∃ collected, run (collectFrame decodeAscii) { idCounter := 0 }
          (readConnections (fun conn => { pieces := [(s.pipeline.path.wires conn).written] }) (fun _ => 0)
            s.pipeline.path.client.dials) = .ok collected ∧
        ∃ origins : List Execution, origins.Nodup ∧
          List.Forall₂ (fun k x => (∃ tr, BinderEvent.Displays k x tr) ∧
            (x ∈ [filledRequest 0 1 100 1] ∨ (10000 : UInt32) = 0 ∨ effectiveUid x.ctx = 10000))
            collected.events origins := by
  have hends : endsIn (fun s : Monitor => decide (s.pipeline.path.written.length = 1))
      (run Monitor.step (Monitor.started "t" 0) ([.execute (filledRequest 0 1 100 1)] ++
        .pipeline (.path (.command 1 (fun _ => none) setTargetFrame)) :: setThenCaptured)) = true := by
    simp only [setThenCaptured, lostAndSent, List.map_cons, List.map_nil, List.cons_append, List.nil_append, run_cons,
      Monitor.step, Pipeline.step, perform_chunkBytes]
    decide +kernel
  obtain ⟨s, hrun, hwritten⟩ := exists_of_endsIn hends
  refine ⟨s, hrun, hwritten, ?_⟩
  refine captured_after_target decodeAscii hrun rfl rfl rfl ?_ ?_ (fun conn => by simp [Input.bytes]) (fun _ => 0) 0
  · refine List.forall_mem_cons.2 ⟨trivial, ?_⟩
    simp [lostAndSent, Monitor.KeepsTarget]
  · have hactions : Monitor.pipelineActions ([.execute (filledRequest 0 1 100 1)] ++
        .pipeline (.path (.command 1 (fun _ => none) setTargetFrame)) :: setThenCaptured) =
        .path (.command 1 (fun _ => none) setTargetFrame) :: lostAndSent := rfl
    have hcalls : Pipeline.calls (.path (.command 1 (fun _ => none) setTargetFrame) :: lostAndSent) =
        Pipeline.calls lostAndSent := rfl
    rw [hactions, hcalls, calls_lostAndSent]
    exact lossy_targetedRequest

end BinderTracer.App
