import BinderTracer.App.AckAgreement
import BinderTracer.App.EventFlow
import BinderTracer.Daemon.Frames
import BinderTracer.Daemon.PayloadSize
import BinderTracer.Daemon.Reconnect
import Mathlib.Data.List.Flatten

/-!
# From the collector to the connection

`SendEvent` and `broadcastEvents` of the daemon's `SocketClient`, with the channel between them and the bytes on
every connection. `SendEvent` is called by the goroutines of the collector; it tests `paused` and `running`, and
drops the event if the channel is full. The one broadcaster takes an event from the channel, tests `paused` again,
asks for the installed connection and writes a frame to it; the goroutine that reads commands writes its replies to
the connection it reads from. A connection may fail at any time, after any number of bytes, and closing it is one
way to fail.

Every access to the channel, to `paused`, to the mutex or to a connection is a step of its own, and the sections of
`BinderTracer.Daemon.SocketClient` run in between. `Flow` says where every event is that was passed to `SendEvent`,
`Framed` what the bytes of a connection are, and `Ordered` that the connections that events are written to are used
one after another.
-/

namespace BinderTracer.Daemon

open BinderTracer.Lib

abbrev msgTypeAck : UInt8 := 0x11
abbrev msgTypeError : UInt8 := 0x12
abbrev msgTypePong : UInt8 := 0x13

/-- The capacity of `eventChan`. -/
abbrev eventChanCapacity : Nat := 1000

/-- `ErrorPayload.Encode`. -/
def encodeError (code : UInt32) (message : Bytes) : Bytes :=
  putUint32 code ++ (putUint32 (UInt32.ofNat message.length) ++ message)

/-- The frame of a reply, as `sendAck`, `sendError` and the answer to a ping write it. -/
def Reply.frame : Reply → Frame
  | .ack success message => ⟨msgTypeAck, AckPayload.encode ⟨success, message.toUTF8.data.toList⟩⟩
  | .error code message => ⟨msgTypeError, encodeError code message.toUTF8.data.toList⟩
  | .pong => ⟨msgTypePong, []⟩

/-- The frame of an event. -/
def BinderEventPayload.frame (e : BinderEventPayload) : Frame := ⟨msgTypeBinderEvent, e.encode⟩

/-- A frame that carries an event. -/
def Frame.isEvent (frame : Frame) : Bool := frame.type == msgTypeBinderEvent

/-- A call of `SendEvent`, by what it does next. -/
inductive SendCall where
  | testPaused (e : BinderEventPayload)
  | testRunning (e : BinderEventPayload)
  | offer (e : BinderEventPayload)
  | returned
deriving DecidableEq, Repr

/-- The event that the call may still put into the channel. -/
def SendCall.event : SendCall → Option BinderEventPayload
  | testPaused e | testRunning e | offer e => some e
  | returned => none

/-- What the broadcaster has in its hand: nothing, an event that it has received, one that passed the test of
`paused`, or one that it is to write to a connection. -/
inductive Hand where
  | idle
  | received (e : BinderEventPayload)
  | cleared (e : BinderEventPayload)
  | writing (e : BinderEventPayload) (conn : Conn)
deriving DecidableEq, Repr

def Hand.event : Hand → Option BinderEventPayload
  | idle => none
  | received e | cleared e | writing e _ => some e

/-- The connection that the broadcaster is to write to. -/
def Hand.conn : Hand → Option Conn
  | writing _ conn => some conn
  | _ => none

/-- What becomes of an event that was taken from the channel. -/
inductive Fate where
  | written (conn : Conn)
  | paused
  | noConnection
  | failed (conn : Conn)
deriving DecidableEq, Repr

/-- The client with its channel, the calls of `SendEvent`, the replies that are to be written and the bytes on the
connections. The last five fields say what has happened: the events passed to `SendEvent`, those that it returned
without a try, those that found the channel full, those that entered it, and those that left it. -/
structure EventPath where
  client : SocketClient
  commands : CommandState
  eventChan : List BinderEventPayload := []
  droppedCount : Nat := 0
  calls : List SendCall := []
  hand : Hand := .idle
  replies : Conn → Option Reply := fun _ => none
  wires : Conn → Output := fun _ => {}
  sent : List BinderEventPayload := []
  withheld : List BinderEventPayload := []
  dropped : List BinderEventPayload := []
  accepted : List BinderEventPayload := []
  taken : List (BinderEventPayload × Fate) := []

/-- The connection that a goroutine is to install. -/
def Goroutine.dialledConn : Goroutine → Option Conn
  | .dialled conn => some conn
  | _ => none

namespace EventPath

/-- After one successful `Connect`. -/
def connected (sessionToken : String) : EventPath :=
  { client := SocketClient.connected, commands := { sessionToken } }

/-- The event of a frame that was written whole, with its connection. -/
def writing : BinderEventPayload × Fate → Option (Conn × BinderEventPayload)
  | (e, .written conn) => some (conn, e)
  | _ => none

/-- The events that were written, with their connections. -/
def written (s : EventPath) : List (Conn × BinderEventPayload) := s.taken.filterMap writing

/-- The events that were written to a connection. -/
def eventsOn (s : EventPath) (conn : Conn) : List BinderEventPayload :=
  (s.written.filter fun w => w.1 = conn).map Prod.snd

/-- The broadcaster is done with the event in its hand. -/
def release (s : EventPath) (e : BinderEventPayload) (fate : Fate) : EventPath :=
  { s with hand := .idle, taken := s.taken ++ [(e, fate)] }

/-- A connection has taken bytes. -/
def setWire (s : EventPath) (conn : Conn) (wire : Output) : EventPath :=
  { s with wires := Function.update s.wires conn wire }

/-- A call of `SendEvent` goes on. -/
def advance (s : EventPath) (i : Nat) : Except Blocked EventPath :=
  match s.calls[i]? with
  | some (.testPaused e) =>
    if s.commands.paused then .ok { s with calls := s.calls.set i .returned, withheld := s.withheld ++ [e] }
    else .ok { s with calls := s.calls.set i (.testRunning e) }
  | some (.testRunning e) =>
    if s.client.running then .ok { s with calls := s.calls.set i (.offer e) }
    else .ok { s with calls := s.calls.set i .returned, withheld := s.withheld ++ [e] }
  | some (.offer e) =>
    if s.eventChan.length < eventChanCapacity then
      .ok { s with
        calls := s.calls.set i .returned, eventChan := s.eventChan ++ [e], accepted := s.accepted ++ [e] }
    else
      .ok { s with
        calls := s.calls.set i .returned, droppedCount := s.droppedCount + 1, dropped := s.dropped ++ [e] }
  | some .returned => .error .blocked
  | none => .error .blocked

/-- `broadcastEvents` receives an event. -/
def receive (s : EventPath) (i : Nat) : Except Blocked EventPath :=
  match s.hand, s.eventChan, s.client.goroutines[i]? with
  | .idle, e :: rest, some .broadcast => .ok { s with hand := .received e, eventChan := rest }
  | _, _, _ => .error .blocked

/-- `broadcastEvents` tests `paused`. -/
def testPaused (s : EventPath) : Except Blocked EventPath :=
  match s.hand with
  | .received e => if s.commands.paused then .ok (s.release e .paused) else .ok { s with hand := .cleared e }
  | _ => .error .blocked

/-- `broadcastEvents` calls `currentConn`. -/
def currentConn (s : EventPath) : Except Blocked EventPath :=
  match s.hand, s.client.conn with
  | .cleared e, none => .ok (s.release e .noConnection)
  | .cleared e, some conn => .ok { s with hand := .writing e conn }
  | _, _ => .error .blocked

/-- `broadcastEvents` writes the frame of its event; if that fails, it goes on to `handleConnectionLoss`. -/
def write (s : EventPath) (i : Nat) : Except Blocked EventPath :=
  match s.hand, s.client.goroutines[i]? with
  | .writing e conn, some .broadcast =>
    match writeFrame msgTypeBinderEvent e.encode (s.wires conn) with
    | .ok _ wire => .ok ((s.release e (.written conn)).setWire conn wire)
    | .error _ wire =>
      .ok { (s.release e (.failed conn)).setWire conn wire with client := s.client.move i (.broadcastLoss conn) }
  | _, _ => .error .blocked

/-- `readLoop` has read a frame and handles the command in it. -/
def command (s : EventPath) (i : Nat) (onSetTarget : UInt32 → Option String) (frame : Frame) :
    Except Blocked EventPath :=
  match s.client.goroutines[i]? with
  | some (.readLoop conn) =>
    match s.replies conn with
    | none =>
      let result := handleCommand onSetTarget s.commands frame
      .ok { s with commands := result.1, replies := Function.update s.replies conn (some result.2) }
    | some _ => .error .blocked
  | _ => .error .blocked

/-- `readLoop` writes its reply; a failure is only logged. -/
def reply (s : EventPath) (conn : Conn) : Except Blocked EventPath :=
  match s.replies conn with
  | some reply =>
    .ok { s.setWire conn (endState (writeFrame reply.frame.type reply.frame.payload (s.wires conn))) with
      replies := Function.update s.replies conn none }
  | none => .error .blocked

/-- Whether a section of the client is none of those above: the broadcaster is not in the middle of its body, and
it asks for its connection only with an event in its hand. -/
def elsewhere (s : EventPath) : SocketClient.Action → Bool
  | .stop => true
  | .enter i _ => s.client.goroutines[i]? ≠ some .broadcast
  | .quit _ => s.hand = .idle

/-- What can happen. -/
inductive Action where
  | sendEvent (e : BinderEventPayload)
  | advance (i : Nat)
  | receive (i : Nat)
  | testPaused
  | currentConn
  | write (i : Nat)
  | command (i : Nat) (onSetTarget : UInt32 → Option String) (frame : Frame)
  | reply (conn : Conn)
  | client (a : SocketClient.Action)
  /-- A connection takes no more than `room` further bytes. -/
  | fails (conn : Conn) (room : Nat)

def step (s : EventPath) : Action → Except Blocked EventPath
  | .sendEvent e => .ok { s with calls := s.calls ++ [.testPaused e], sent := s.sent ++ [e] }
  | .advance i => s.advance i
  | .receive i => s.receive i
  | .testPaused => s.testPaused
  | .currentConn => s.currentConn
  | .write i => s.write i
  | .command i onSetTarget frame => s.command i onSetTarget frame
  | .reply conn => s.reply conn
  | .client a => if s.elsewhere a then (s.client.step a).map fun client => { s with client } else .error .blocked
  | .fails conn room =>
    .ok (s.setWire conn { s.wires conn with room := some (((s.wires conn).room.map (min room)).getD room) })

/-- What an action does: one constructor for each way in which an event, a call or a connection goes on. -/
inductive Effect (s : EventPath) : Action → EventPath → Prop where
  | sends (e : BinderEventPayload) :
    Effect s (.sendEvent e) { s with calls := s.calls ++ [.testPaused e], sent := s.sent ++ [e] }
  | goesOn {a : Action} {i : Nat} {g g' : SendCall} (call : s.calls[i]? = some g) (event : g'.event = g.event) :
    Effect s a { s with calls := s.calls.set i g' }
  | withholds {a : Action} {i : Nat} {g : SendCall} {e : BinderEventPayload} (call : s.calls[i]? = some g)
    (event : g.event = some e) :
    Effect s a { s with calls := s.calls.set i .returned, withheld := s.withheld ++ [e] }
  | accepts {a : Action} {i : Nat} {e : BinderEventPayload} (call : s.calls[i]? = some (.offer e))
    (room : s.eventChan.length < eventChanCapacity) :
    Effect s a { s with
      calls := s.calls.set i .returned, eventChan := s.eventChan ++ [e], accepted := s.accepted ++ [e] }
  | drops {a : Action} {i : Nat} {e : BinderEventPayload} (call : s.calls[i]? = some (.offer e)) :
    Effect s a { s with
      calls := s.calls.set i .returned, droppedCount := s.droppedCount + 1, dropped := s.dropped ++ [e] }
  | receives {a : Action} {e : BinderEventPayload} {rest : List BinderEventPayload} (hand : s.hand = .idle)
    (chan : s.eventChan = e :: rest) : Effect s a { s with hand := .received e, eventChan := rest }
  | clears {a : Action} {e : BinderEventPayload} (hand : s.hand = .received e) :
    Effect s a { s with hand := .cleared e }
  | discards {a : Action} {e : BinderEventPayload} {fate : Fate} (hand : s.hand.event = some e)
    (unwritten : writing (e, fate) = none) : Effect s a (s.release e fate)
  | chooses {a : Action} {e : BinderEventPayload} {conn : Conn} (hand : s.hand = .cleared e)
    (installed : s.client.conn = some conn) : Effect s a { s with hand := .writing e conn }
  | writes {a : Action} {e : BinderEventPayload} {conn : Conn} {u : Unit} {wire : Output}
    (hand : s.hand = .writing e conn)
    (written : writeFrame e.frame.type e.frame.payload (s.wires conn) = .ok u wire) :
    Effect s a ((s.release e (.written conn)).setWire conn wire)
  | fails {a : Action} {i : Nat} {e : BinderEventPayload} {conn : Conn} {err : FrameError} {wire : Output}
    (hand : s.hand = .writing e conn) (goroutine : s.client.goroutines[i]? = some .broadcast)
    (failed : writeFrame e.frame.type e.frame.payload (s.wires conn) = .error err wire) :
    Effect s a
      { (s.release e (.failed conn)).setWire conn wire with client := s.client.move i (.broadcastLoss conn) }
  | handles {a : Action} (commands : CommandState) (replies : Conn → Option Reply) :
    Effect s a { s with commands, replies }
  | replies {a : Action} (conn : Conn) (reply : Reply) (replies : Conn → Option Reply) :
    Effect s a
      { s.setWire conn (endState (writeFrame reply.frame.type reply.frame.payload (s.wires conn))) with replies }
  | client {a : Action} {b : SocketClient.Action} {client : SocketClient} (moved : s.client.step b = .ok client) :
    Effect s a { s with client }
  | shrinks {a : Action} (conn : Conn) (room : Nat) :
    Effect s a
      (s.setWire conn { s.wires conn with room := some (((s.wires conn).room.map (min room)).getD room) })

theorem effect_of_advance {s t : EventPath} {i : Nat} (h : s.advance i = .ok t) : Effect s (.advance i) t := by
  unfold advance at h
  split at h
  · next e hg =>
    split at h <;> cases h
    · exact .withholds hg rfl
    · exact .goesOn hg rfl
  · next e hg =>
    split at h <;> cases h
    · exact .goesOn hg rfl
    · exact .withholds hg rfl
  · next e hg =>
    split at h <;> cases h
    · next hroom => exact .accepts hg hroom
    · exact .drops hg
  · cases h
  · cases h

/-- The broadcaster goes on with the event in its hand. -/
theorem effect_of_broadcast {s t : EventPath} {a : Action}
    (h : s.testPaused = .ok t ∨ s.currentConn = .ok t ∨ ∃ i, s.write i = .ok t) : Effect s a t := by
  rcases h with h | h | ⟨i, h⟩
  · unfold testPaused at h
    split at h
    · next e hhand =>
      split at h <;> cases h
      · exact .discards (by rw [hhand]; rfl) rfl
      · exact .clears hhand
    · cases h
  · unfold currentConn at h
    split at h
    · next e hhand _ =>
      cases h
      exact .discards (by rw [hhand]; rfl) rfl
    · next e conn hhand hconn =>
      cases h
      exact .chooses hhand hconn
    · cases h
  · unfold write at h
    split at h
    · next e conn hhand hg =>
      split at h <;> cases h
      · next wire hwrite => exact .writes hhand hwrite
      · next err wire hwrite => exact .fails hhand hg hwrite
    · cases h

theorem effect_of_step {s t : EventPath} {a : Action} (h : s.step a = .ok t) : Effect s a t := by
  cases a with
  | sendEvent e =>
    cases h
    exact .sends e
  | advance i => exact effect_of_advance h
  | receive i =>
    simp only [step, receive] at h
    split at h
    · next e rest hhand hchan _ =>
      cases h
      exact .receives hhand hchan
    · cases h
  | testPaused => exact effect_of_broadcast (.inl h)
  | currentConn => exact effect_of_broadcast (.inr (.inl h))
  | write i => exact effect_of_broadcast (.inr (.inr ⟨i, h⟩))
  | command i onSetTarget frame =>
    simp only [step, command] at h
    split at h
    · split at h <;> cases h
      exact .handles _ _
    · cases h
  | reply conn =>
    simp only [step, reply] at h
    split at h <;> cases h
    exact .replies conn _ _
  | client a =>
    simp only [step] at h
    split at h
    · obtain ⟨client, hclient, rfl⟩ := exists_of_map_eq_ok h
      exact .client hclient
    · cases h
  | fails conn room =>
    cases h
    exact .shrinks conn room

/-! ### Where the events are -/

/-- The events in the channel, in the broadcaster's hand and taken from it are those that were accepted, in their
order; and every event that was passed to `SendEvent` was accepted, dropped or withheld, or its call goes on. -/
structure Flow (s : EventPath) : Prop where
  queue : s.accepted = s.taken.map Prod.fst ++ (s.hand.event.toList ++ s.eventChan)
  capacity : s.eventChan.length ≤ eventChanCapacity
  sent : s.sent.Perm (s.accepted ++ (s.dropped ++ (s.withheld ++ s.calls.filterMap SendCall.event)))
  counted : s.droppedCount = s.dropped.length

namespace Flow

variable {s t : EventPath}

/-- The broadcaster lets an event go. -/
theorem release (h : Flow s) {e : BinderEventPayload} (hhand : s.hand.event = some e) (fate : Fate) :
    Flow (s.release e fate) where
  queue := by
    rw [EventPath.release, h.queue, hhand]
    simp [Hand.event]
  capacity := h.capacity
  sent := h.sent
  counted := h.counted

/-- A call of `SendEvent` that returns. -/
theorem return_call {i : Nat} {g : SendCall} {e : BinderEventPayload} (hg : s.calls[i]? = some g)
    (hevent : g.event = some e) :
    (s.calls.filterMap SendCall.event).Perm (e :: (s.calls.set i .returned).filterMap SendCall.event) := by
  have hperm := filterMap_set_perm (f := SendCall.event) hg .returned
  rw [hevent] at hperm
  exact hperm

theorem step (h : Flow s) {a : Action} (heffect : Effect s a t) : Flow t := by
  cases heffect with
  | sends e =>
    refine ⟨h.queue, h.capacity, ?_, h.counted⟩
    have hsent := h.sent.append_right [e]
    simpa [SendCall.event] using hsent
  | @goesOn _ i g g' hg hevent =>
    have hperm := filterMap_set_perm (f := SendCall.event) hg g'
    rw [hevent, List.perm_append_left_iff] at hperm
    exact ⟨h.queue, h.capacity, h.sent.trans (((hperm.append_left _).append_left _).append_left _), h.counted⟩
  | withholds hg hevent =>
    refine ⟨h.queue, h.capacity, h.sent.trans ?_, h.counted⟩
    refine List.Perm.append_left _ (List.Perm.append_left _ ?_)
    rw [List.append_assoc]
    exact (return_call hg hevent).append_left _
  | accepts hg hroom =>
    refine ⟨by simp [h.queue], ?_, h.sent.trans ?_, h.counted⟩
    · rw [List.length_append]
      exact hroom
    · -- the event leaves the calls and joins the accepted ones
      rw [List.append_assoc]
      refine List.Perm.append_left _ ?_
      rw [List.singleton_append, ← List.append_assoc, ← List.append_assoc]
      exact ((return_call hg rfl).append_left _).trans List.perm_middle
  | drops hg =>
    refine ⟨h.queue, h.capacity, h.sent.trans ?_, by simp [h.counted]⟩
    rw [List.append_assoc]
    refine List.Perm.append_left _ (List.Perm.append_left _ ?_)
    exact ((return_call hg rfl).append_left _).trans List.perm_middle
  | receives hhand hchan =>
    refine ⟨by simp [h.queue, hhand, hchan, Hand.event], ?_, h.sent, h.counted⟩
    have hle := h.capacity
    rw [hchan, List.length_cons] at hle
    exact Nat.le_of_succ_le hle
  | clears hhand => exact ⟨by simp [h.queue, hhand, Hand.event], h.capacity, h.sent, h.counted⟩
  | discards hhand _ => exact h.release hhand _
  | chooses hhand _ => exact ⟨by simp [h.queue, hhand, Hand.event], h.capacity, h.sent, h.counted⟩
  | @writes _ e conn _ _ hhand _ =>
    have hreleased := h.release (by rw [hhand]; rfl) (.written conn)
    exact ⟨hreleased.queue, hreleased.capacity, hreleased.sent, hreleased.counted⟩
  | @fails _ _ e conn _ _ hhand _ _ =>
    have hreleased := h.release (by rw [hhand]; rfl) (.failed conn)
    exact ⟨hreleased.queue, hreleased.capacity, hreleased.sent, hreleased.counted⟩
  | handles => exact ⟨h.queue, h.capacity, h.sent, h.counted⟩
  | replies => exact ⟨h.queue, h.capacity, h.sent, h.counted⟩
  | client => exact ⟨h.queue, h.capacity, h.sent, h.counted⟩
  | shrinks => exact ⟨h.queue, h.capacity, h.sent, h.counted⟩

end Flow

/-! ### The bytes on a connection -/

/-- A connection has taken these frames, and after them at most a part of one on which it has failed. -/
structure Carries (wire : Output) (frames : List Frame) : Prop where
  size : ∀ frame ∈ frames, frame.payload.length ≤ maxPayloadLen
  bytes : ∃ part, wire.written = frames.flatMap Frame.wire ++ part ∧ Fragment part ∧
    (wire.room = some 0 ∨ part = [])

theorem carries_nil : Carries {} [] := ⟨by simp, [], rfl, fragment_nil, .inr rfl⟩

namespace Carries

variable {wire wire' : Output} {frames : List Frame}

/-- A frame that was written comes last. -/
theorem write_ok (h : Carries wire frames) {frame : Frame} {u : Unit}
    (hwrite : writeFrame frame.type frame.payload wire = .ok u wire') : Carries wire' (frames ++ [frame]) := by
  have heffect := frameWritten_writeFrame frame wire
  rw [hwrite] at heffect
  obtain ⟨part, hpart, -, hfailed⟩ := h.bytes
  cases heffect with
  | whole size room written =>
    -- the connection has not failed before, so there is no part of a frame on it
    have hnil : part = [] := hfailed.resolve_left room
    refine ⟨?_, [], ?_, fragment_nil, .inr rfl⟩
    · intro f hf
      rcases List.mem_append.1 hf with hf | hf
      · exact h.size f hf
      · rw [List.mem_singleton.1 hf]
        exact size
    · rw [written, hpart, hnil]
      simp

/-- A frame that was not written leaves at most a part. -/
theorem write_error (h : Carries wire frames) {frame : Frame} {e : FrameError}
    (hwrite : writeFrame frame.type frame.payload wire = .error e wire') : Carries wire' frames := by
  have heffect := frameWritten_writeFrame frame wire
  rw [hwrite] at heffect
  cases heffect with
  | refused => exact h
  | @cut part _ size proper nothing =>
    obtain ⟨old, hold, hfragment, hfailed⟩ := h.bytes
    refine ⟨h.size, ?_⟩
    rcases hfailed with hfailed | rfl
    · exact ⟨old, by rw [nothing hfailed, hold, List.append_nil], hfragment, .inl rfl⟩
    · exact ⟨part, by rw [hold, List.append_nil], ⟨frame, size, proper⟩, .inl rfl⟩

/-- However a reply was written, the frames on the connection are those before, and possibly the reply. -/
theorem reply (h : Carries wire frames) (reply : Reply) :
    Carries (endState (writeFrame reply.frame.type reply.frame.payload wire)) frames ∨
      Carries (endState (writeFrame reply.frame.type reply.frame.payload wire)) (frames ++ [reply.frame]) := by
  cases hwrite : writeFrame reply.frame.type reply.frame.payload wire with
  | ok u wire' => exact .inr (h.write_ok hwrite)
  | error e wire' => exact .inl (h.write_error hwrite)

theorem fails (h : Carries wire frames) (room : Nat) :
    Carries { wire with room := some ((wire.room.map (min room)).getD room) } frames := by
  obtain ⟨part, hpart, hfragment, hfailed⟩ := h.bytes
  refine ⟨h.size, part, hpart, hfragment, hfailed.imp_left fun hzero => ?_⟩
  simp [hzero]

end Carries

/-- No reply is taken for an event. -/
theorem isEvent_reply (r : Reply) : r.frame.isEvent = false := by
  cases r <;> rfl

/-- The connection carries the events that were written to it, between replies. -/
def Framed (s : EventPath) : Prop :=
  ∀ conn, ∃ frames, Carries (s.wires conn) frames ∧
    frames.filter Frame.isEvent = (s.eventsOn conn).map BinderEventPayload.frame

theorem framed_connected (sessionToken : String) : Framed (connected sessionToken) :=
  fun _ => ⟨[], carries_nil, rfl⟩

theorem written_release (s : EventPath) (e : BinderEventPayload) (fate : Fate) :
    (s.release e fate).written = s.written ++ (writing (e, fate)).toList := by
  rw [written, release, List.filterMap_append]
  cases hfate : writing (e, fate) <;> simp [written, hfate]

/-- A step that writes nothing to any connection. -/
theorem Framed.of_eq {s t : EventPath} (h : Framed s) (hwires : t.wires = s.wires) (htaken : t.written = s.written) :
    Framed t := by
  intro conn
  rw [hwires, eventsOn, htaken]
  exact h conn

/-- A step that puts bytes on one connection, but no event. -/
theorem Framed.setWire {s t : EventPath} (h : Framed s) {conn : Conn} {wire : Output}
    (hwires : t.wires = Function.update s.wires conn wire) (hwritten : t.written = s.written)
    (hconn : ∀ frames, Carries (s.wires conn) frames →
      ∃ frames', Carries wire frames' ∧ frames'.filter Frame.isEvent = frames.filter Frame.isEvent) :
    Framed t := by
  intro other
  rw [hwires, eventsOn, hwritten]
  obtain ⟨frames, hcarries, hevents⟩ := h other
  by_cases heq : other = conn
  · subst heq
    rw [Function.update_self]
    obtain ⟨frames', hcarries', hsame⟩ := hconn frames hcarries
    exact ⟨frames', hcarries', hsame.trans hevents⟩
  · rw [Function.update_of_ne heq]
    exact ⟨frames, hcarries, hevents⟩

/-- A step that writes an event to a connection. -/
theorem Framed.write {s t : EventPath} (h : Framed s) {conn : Conn} {e : BinderEventPayload} {u : Unit} {wire : Output}
    (hwrite : writeFrame e.frame.type e.frame.payload (s.wires conn) = .ok u wire)
    (hwires : t.wires = Function.update s.wires conn wire) (hwritten : t.written = s.written ++ [(conn, e)]) :
    Framed t := by
  intro other
  rw [hwires, eventsOn, hwritten, List.filter_append, List.map_append]
  obtain ⟨frames, hcarries, hevents⟩ := h other
  by_cases heq : other = conn
  · subst heq
    rw [Function.update_self]
    refine ⟨frames ++ [e.frame], hcarries.write_ok hwrite, ?_⟩
    rw [List.filter_append, hevents, List.map_append]
    simp [eventsOn, Frame.isEvent, BinderEventPayload.frame]
  · rw [Function.update_of_ne heq]
    refine ⟨frames, hcarries, hevents.trans ?_⟩
    simp [eventsOn, Ne.symm heq]

/-- **The bytes of every connection are whole frames**, as far as it has not failed. -/
theorem Framed.step {s t : EventPath} (h : Framed s) {a : Action} (heffect : Effect s a t) : Framed t := by
  cases heffect with
  | @discards _ e fate _ hunwritten =>
    refine h.of_eq rfl ?_
    rw [written_release, hunwritten]
    exact List.append_nil _
  | @writes _ e conn _ _ _ hwrite => exact h.write hwrite rfl (written_release s e (.written conn))
  | @fails _ _ e conn _ _ _ _ hwrite =>
    exact h.setWire rfl ((written_release s e (.failed conn)).trans (List.append_nil _))
      fun frames hcarries => ⟨frames, hcarries.write_error hwrite, rfl⟩
  | replies conn r =>
    refine h.setWire rfl rfl fun frames hcarries => ?_
    rcases hcarries.reply r with hkept | hadded
    · exact ⟨frames, hkept, rfl⟩
    · refine ⟨frames ++ [r.frame], hadded, ?_⟩
      rw [List.filter_append, List.filter_singleton, isEvent_reply]
      exact List.append_nil _
  | shrinks conn room => exact h.setWire rfl rfl fun frames hcarries => ⟨frames, hcarries.fails room, rfl⟩
  | _ => exact h.of_eq rfl rfl

/-! ### One connection after another -/

/-- Connections that were used, in the order of their use, before the installed one: they are in the order of their
dials, and a connection that waits to be installed was dialled after all of them. -/
structure Routed (used : List Conn) (c : SocketClient) : Prop where
  disciplined : c.Disciplined
  sorted : (used ++ c.conn.toList).Pairwise (· ≤ ·)
  lt_dials : ∀ conn ∈ used ++ c.conn.toList, conn < c.dials
  lt_dialled : ∀ d, .dialled d ∈ c.goroutines → d < c.dials ∧ ∀ conn ∈ used ++ c.conn.toList, conn < d

namespace Routed

variable {used : List Conn} {c c' : SocketClient}

theorem connected : Routed [] SocketClient.connected where
  disciplined := SocketClient.disciplined_connected
  sorted := List.pairwise_singleton _ _
  lt_dials := by decide
  lt_dialled := by
    intro d hd
    simp [SocketClient.connected, SocketClient.connect] at hd

/-- A step that dials nothing and installs nothing. -/
theorem of_sublist (h : Routed used c) (hdisciplined : c'.Disciplined) (hdials : c'.dials = c.dials)
    (hconn : c'.conn = c.conn ∨ c'.conn = none)
    (hgoroutines : ∀ d, .dialled d ∈ c'.goroutines → .dialled d ∈ c.goroutines) : Routed used c' := by
  have hsub : (used ++ c'.conn.toList).Sublist (used ++ c.conn.toList) := by
    refine List.Sublist.append (List.Sublist.refl used) ?_
    rcases hconn with heq | hnone
    · rw [heq]
    · rw [hnone]
      exact List.nil_sublist _
  refine ⟨hdisciplined, h.sorted.sublist hsub, fun conn hconn => ?_, fun d hd => ?_⟩
  · rw [hdials]
    exact h.lt_dials conn (hsub.subset hconn)
  · obtain ⟨hlt, hall⟩ := h.lt_dialled d (hgoroutines d hd)
    exact ⟨hdials ▸ hlt, fun conn hconn => hall conn (hsub.subset hconn)⟩

/-- Who waits to install a connection after a goroutine went on to a section other than that. -/
theorem dialled_of_set {gs : List Goroutine} {i : Nat} {g : Goroutine} {d : Conn} (hd : .dialled d ∈ gs.set i g)
    (hg : g.dialledConn = none) : .dialled d ∈ gs := by
  rcases List.mem_or_eq_of_mem_set hd with hold | hnew
  · exact hold
  · rw [← hnew] at hg
    cases hg

theorem handleConnectionLoss_dialled {failed d : Conn} (hd : .dialled d ∈ (c.handleConnectionLoss failed).goroutines) :
    .dialled d ∈ c.goroutines := by
  unfold SocketClient.handleConnectionLoss at hd
  split at hd
  · exact hd
  · split at hd
    · exact hd
    · rcases List.mem_append.1 hd with hold | hnew
      · exact hold
      · cases List.mem_singleton.1 hnew

theorem handleConnectionLoss_conn (failed : Conn) :
    (c.handleConnectionLoss failed).dials = c.dials ∧
      ((c.handleConnectionLoss failed).conn = c.conn ∨ (c.handleConnectionLoss failed).conn = none) := by
  unfold SocketClient.handleConnectionLoss
  split
  · exact ⟨rfl, .inl rfl⟩
  · split
    · exact ⟨rfl, .inl rfl⟩
    · exact ⟨rfl, .inr rfl⟩

/-- The goroutine of `reconnectLoop` has dialled: its connection is the newest. -/
theorem dial (h : Routed used c) {i : Nat}
    (hdisciplined : ({ c.move i (.dialled c.dials) with dials := c.dials + 1 } : SocketClient).Disciplined) :
    Routed used { c.move i (.dialled c.dials) with dials := c.dials + 1 } where
  disciplined := hdisciplined
  sorted := h.sorted
  lt_dials conn hconn := Nat.lt_succ_of_lt (h.lt_dials conn hconn)
  lt_dialled d hd := by
    rcases List.mem_or_eq_of_mem_set hd with hold | hnew
    · obtain ⟨hlt, hall⟩ := h.lt_dialled d hold
      exact ⟨Nat.lt_succ_of_lt hlt, hall⟩
    · cases hnew
      exact ⟨Nat.lt_succ_self _, h.lt_dials⟩

/-- The connection of the only `reconnectLoop` is installed. -/
theorem install (h : Routed used c) {i : Nat} {conn : Conn} (hg : c.goroutines[i]? = some (.dialled conn))
    (hdisciplined : ((c.install conn).move i .returned).Disciplined) :
    Routed used ((c.install conn).move i .returned) := by
  unfold SocketClient.install at hdisciplined ⊢
  split
  · have hi : i < c.goroutines.length := (List.getElem?_eq_some_iff.1 hg).1
    obtain ⟨hlt, hall⟩ := h.lt_dialled conn (List.mem_of_getElem? hg)
    have hold : ∀ x ∈ used, x < conn := fun x hx => hall x (List.mem_append_left _ hx)
    have hnone := h.disciplined.no_loop_left hg rfl
    rename_i hrun
    rw [if_pos hrun] at hdisciplined
    refine ⟨hdisciplined, ?_, ?_, ?_⟩
    · refine List.pairwise_append.2 ⟨(List.pairwise_append.1 h.sorted).1, List.pairwise_singleton _ _, ?_⟩
      intro x hx y hy
      rw [List.mem_singleton.1 hy]
      exact Nat.le_of_lt (hold x hx)
    · intro x hx
      rcases List.mem_append.1 hx with hx | hx
      · exact h.lt_dials x (List.mem_append_left _ hx)
      · rw [List.mem_singleton.1 hx]
        exact hlt
    · -- no other loop is left that could hold a connection
      intro d hd
      have hd : .dialled d ∈ c.goroutines.set i .returned ++ [.readLoop conn] := by
        rw [← List.set_append_left _ _ hi]
        exact hd
      rcases List.mem_append.1 hd with hleft | hnew
      · exact absurd rfl (List.countP_eq_zero.1 hnone _ hleft)
      · cases List.mem_singleton.1 hnew
  · next hdown =>
    rw [if_neg hdown] at hdisciplined
    exact h.of_sublist hdisciplined rfl (.inl rfl) fun d hd => dialled_of_set hd rfl

theorem enter (h : Routed used c) {i : Nat} {outcome : Outcome} (hstep : c.enter i outcome = .ok c') :
    Routed used c' := by
  have hdisciplined := h.disciplined.enter hstep
  unfold SocketClient.enter at hstep
  split at hstep <;> cases hstep
  · refine h.of_sublist hdisciplined rfl (.inl rfl) fun d hd => dialled_of_set hd ?_
    split
    · cases outcome <;> rfl
    · rfl
  · exact h.of_sublist hdisciplined rfl (.inl rfl) fun d hd => dialled_of_set hd rfl
  · next conn _ =>
    obtain ⟨hdials, hconn⟩ := handleConnectionLoss_conn (c := c) conn
    exact h.of_sublist hdisciplined hdials hconn fun d hd =>
      handleConnectionLoss_dialled (dialled_of_set hd rfl)
  · refine h.of_sublist hdisciplined rfl (.inl rfl) fun d hd => dialled_of_set hd ?_
    cases c.conn <;> cases outcome <;> rfl
  · next conn _ =>
    obtain ⟨hdials, hconn⟩ := handleConnectionLoss_conn (c := c) conn
    exact h.of_sublist hdisciplined hdials hconn fun d hd =>
      handleConnectionLoss_dialled (dialled_of_set hd rfl)
  · next round _ =>
    split at hdisciplined
    · next hrun =>
      rw [if_pos hrun]
      cases outcome with
      | success => exact h.dial hdisciplined
      | endOfFile | failure =>
        refine h.of_sublist hdisciplined rfl (.inl rfl) fun d hd => dialled_of_set hd ?_
        split <;> rfl
    · next hdown =>
      rw [if_neg hdown]
      exact h.of_sublist hdisciplined rfl (.inl rfl) fun d hd => dialled_of_set hd rfl
  · next conn hg => exact h.install hg hdisciplined
  · unfold SocketClient.abandon at hdisciplined ⊢
    split at hdisciplined
    · next hrun =>
      rw [if_pos hrun]
      exact h.of_sublist hdisciplined rfl (.inl rfl) fun d hd => dialled_of_set hd rfl
    · next hdown =>
      rw [if_neg hdown]
      exact h.of_sublist hdisciplined rfl (.inl rfl) fun d hd => dialled_of_set hd rfl

theorem step (h : Routed used c) {a : SocketClient.Action} (hstep : c.step a = .ok c') : Routed used c' := by
  have hdisciplined := h.disciplined.step hstep
  cases a with
  | stop =>
    cases hstep
    exact h.of_sublist hdisciplined rfl (.inr rfl) fun _ hd => hd
  | enter i outcome => exact h.enter hstep
  | quit i =>
    simp only [SocketClient.step] at hstep
    split at hstep <;> cases hstep
    exact h.of_sublist hdisciplined rfl (.inl rfl) fun d hd => dialled_of_set hd rfl

/-- The broadcaster is given the installed connection. -/
theorem use (h : Routed used c) {conn : Conn} (hconn : c.conn = some conn) : Routed (used ++ [conn]) c := by
  have hlast : ∀ x ∈ used ++ [conn] ++ c.conn.toList, x ∈ used ++ c.conn.toList := by
    intro x hx
    rw [hconn] at hx ⊢
    simpa using hx
  refine ⟨h.disciplined, ?_, fun x hx => h.lt_dials x (hlast x hx), fun d hd => ?_⟩
  · have hsorted := h.sorted
    rw [hconn] at hsorted ⊢
    refine List.pairwise_append.2 ⟨hsorted, List.pairwise_singleton _ _, ?_⟩
    intro x hx y hy
    rw [List.mem_singleton.1 hy]
    rcases List.mem_append.1 hx with hx | hx
    · exact (List.pairwise_append.1 hsorted).2.2 x hx conn (List.mem_singleton.2 rfl)
    · exact Nat.le_of_eq (List.mem_singleton.1 hx)
  · obtain ⟨hlt, hall⟩ := h.lt_dialled d hd
    exact ⟨hlt, fun x hx => hall x (hlast x hx)⟩

/-- Some of the uses are forgotten. -/
theorem forget {used' : List Conn} (h : Routed used c) (hsub : used'.Sublist used) : Routed used' c := by
  have hsub := hsub.append (List.Sublist.refl c.conn.toList)
  exact ⟨h.disciplined, h.sorted.sublist hsub, fun x hx => h.lt_dials x (hsub.subset hx),
    fun d hd => ⟨(h.lt_dialled d hd).1, fun x hx => (h.lt_dialled d hd).2 x (hsub.subset hx)⟩⟩

end Routed

/-- The connections that were written to, and the one that the broadcaster is to write to. -/
def used (s : EventPath) : List Conn := s.written.map Prod.fst ++ s.hand.conn.toList

/-- The broadcaster uses one connection after another. -/
def Ordered (s : EventPath) : Prop := Routed s.used s.client

theorem used_release (s : EventPath) (e : BinderEventPayload) (fate : Fate) :
    (s.release e fate).used = s.written.map Prod.fst ++ ((writing (e, fate)).map Prod.fst).toList := by
  rw [used, written_release]
  cases hfate : writing (e, fate) <;> simp [EventPath.release, Hand.conn]

/-- The broadcaster lets an event go that it does not write. -/
theorem Ordered.release {s : EventPath} (h : Ordered s) {e : BinderEventPayload} {fate : Fate}
    (hfate : writing (e, fate) = none) : Ordered (s.release e fate) := by
  refine Routed.forget h ?_
  rw [used_release, hfate]
  exact List.Sublist.append (List.Sublist.refl _) (List.nil_sublist _)

theorem Ordered.step {s t : EventPath} (h : Ordered s) {a : Action} (heffect : Effect s a t) : Ordered t := by
  have hforget : Routed (s.written.map Prod.fst ++ []) s.client :=
    h.forget (List.Sublist.append (List.Sublist.refl _) (List.nil_sublist _))
  cases heffect with
  | receives => exact hforget
  | clears => exact hforget
  | discards _ hunwritten => exact h.release hunwritten
  | chooses _ hconn => exact (h.forget (List.sublist_append_left _ _)).use hconn
  | @writes _ e conn _ _ hhand _ =>
    have hused : (s.release e (.written conn)).used = s.used := by
      rw [used_release, used, hhand]
      rfl
    show Routed (s.release e (.written conn)).used s.client
    rw [hused]
    exact h
  | fails _ hg _ =>
    exact (h.release rfl).of_sublist (h.disciplined.move hg rfl) rfl (.inl rfl)
      fun d hd => Routed.dialled_of_set hd rfl
  | client hclient => exact Routed.step h hclient
  | _ => exact h

/-! ### Whole runs -/

/-- Everything above, in every state of every run. -/
structure Delivering (s : EventPath) : Prop where
  flow : Flow s
  framed : Framed s
  ordered : Ordered s

theorem run_delivering {sessionToken : String} {actions : List Action} {s : EventPath}
    (hrun : run step (connected sessionToken) actions = .ok s) : Delivering s := by
  refine run_invariant (fun s a t h hstep => ?_) ?_ hrun
  · have heffect := effect_of_step hstep
    exact ⟨h.flow.step heffect, h.framed.step heffect, h.ordered.step heffect⟩
  · exact ⟨⟨rfl, Nat.zero_le _, .refl _, rfl⟩, framed_connected sessionToken, Routed.connected⟩

/-- What was written was accepted, and comes in the order in which it was accepted. -/
theorem Flow.written_sublist {s : EventPath} (h : Flow s) : (s.written.map Prod.snd).Sublist s.accepted := by
  have htaken : ∀ taken : List (BinderEventPayload × Fate),
      ((taken.filterMap writing).map Prod.snd).Sublist (taken.map Prod.fst) := by
    intro taken
    induction taken with
    | nil => exact List.Sublist.refl _
    | cons w taken ih =>
      obtain ⟨e, fate⟩ := w
      cases fate with
      | written conn => exact ih.cons_cons e
      | _ => exact ih.cons e
  rw [h.queue]
  exact (htaken s.taken).trans (List.sublist_append_left _ _)

/-- The events on the connections, one connection after another, are those that were written, in their order. -/
theorem Ordered.eventsOn_eq {s : EventPath} (h : Ordered s) :
    (List.range s.client.dials).flatMap s.eventsOn = s.written.map Prod.snd := by
  have hsorted : (s.written.map Prod.fst).Pairwise (· ≤ ·) :=
    h.sorted.sublist ((List.sublist_append_left _ _).trans (List.sublist_append_left _ _))
  have hall : s.written.filter (fun w => w.1 < s.client.dials) = s.written := by
    refine List.filter_eq_self.2 fun w hw => decide_eq_true (h.lt_dials w.1 ?_)
    exact List.mem_append_left _ (List.mem_append_left _ (List.mem_map_of_mem hw))
  have hkeys := flatMap_filter_keys hsorted s.client.dials
  rw [hall] at hkeys
  rw [← hkeys, List.map_flatMap]
  rfl

end EventPath

end BinderTracer.Daemon

namespace BinderTracer.App

open BinderTracer.Lib BinderTracer.Daemon

/-- What the app reads from the connections, one after another: on each of them the bytes that arrived, without the
frames that a handshake has read before. -/
def readConnections (inputs : Conn → Input) (handshake : Conn → Nat) (dials : Nat) : List SocketClient.Frame :=
  (List.range dials).flatMap fun conn => (SocketClient.eventFlow (inputs conn)).drop (handshake conn)

/-- The frames that the event loop reads from one connection, and the events in them. -/
theorem eventFlow_framed {s : EventPath} (h : s.Framed) {conn : Conn} {input : Input}
    (hinput : input.bytes <+: (s.wires conn).written) (handshake : Nat) :
    ∃ (frames : List Frame) (share : List BinderEventPayload),
      (SocketClient.eventFlow input).drop handshake = frames.map SocketClient.Frame.ofDaemon ∧
      frames.filter Frame.isEvent = share.map BinderEventPayload.frame ∧
      (∀ frame ∈ frames, frame.payload.length ≤ maxPayloadLen) ∧ share <:+: s.eventsOn conn ∧
      (input.bytes = (s.wires conn).written → handshake = 0 → share = s.eventsOn conn) := by
  obtain ⟨frames, hcarries, hevents⟩ := h conn
  obtain ⟨part, hbytes, hpart, -⟩ := hcarries.bytes
  obtain ⟨k, part', hcut, hpart', hfull⟩ : ∃ k part',
      input.bytes = (frames.take k).flatMap Frame.wire ++ part' ∧ Fragment part' ∧
        (input.bytes = (s.wires conn).written → frames.take k = frames) := by
    by_cases hall : input.bytes = (s.wires conn).written
    · refine ⟨frames.length, part, ?_, hpart, fun _ => List.take_length⟩
      rw [hall, hbytes, List.take_length]
    · obtain ⟨k, part', hcut, hpart'⟩ := frames_of_prefix hcarries.size hpart (hbytes ▸ hinput)
      exact ⟨k, part', hcut, hpart', fun heq => absurd heq hall⟩
  have hwhole : ∀ frame ∈ frames.take k, frame.payload.length ≤ maxPayloadLen :=
    fun frame hframe => hcarries.size frame (List.mem_of_mem_take hframe)
  have hwithin : (frames.take k).drop handshake <:+: frames :=
    (List.drop_suffix _ _).isInfix.trans (List.take_prefix _ _).isInfix
  obtain ⟨before, after, hshare⟩ := hwithin.filter Frame.isEvent
  rw [hevents] at hshare
  obtain ⟨left, after', hall, hleft, -⟩ := List.map_eq_append_iff.1 hshare.symm
  obtain ⟨before', share, rfl, -, hmap⟩ := List.map_eq_append_iff.1 hleft
  refine ⟨(frames.take k).drop handshake, share, ?_, hmap.symm, ?_, ⟨before', after', hall.symm⟩, ?_⟩
  · rw [SocketClient.eventFlow_cut hwhole hpart' hcut, List.map_drop]
  · exact fun frame hframe => hwhole frame (List.mem_of_mem_drop hframe)
  · rintro heq rfl
    rw [List.drop_zero, hfull heq, hevents] at hmap
    have hlength : share.length = (s.eventsOn conn).length := by
      rw [← List.length_map BinderEventPayload.frame, hmap, List.length_map]
    exact (List.IsInfix.eq_of_length ⟨before', after', hall.symm⟩ hlength)

/-- The app decodes events that the daemon has written, one for one and in their order; on a connection whose bytes
have all arrived none is missing. -/
theorem collect_delivered (decodeUtf8 : List UInt8 → String) {s : EventPath} (hs : s.Delivering)
    {inputs : Conn → Input} (hinputs : ∀ conn, (inputs conn).bytes <+: (s.wires conn).written)
    (handshake : Conn → Nat) (idCounter : Int64) :
    ∃ (share : Conn → List BinderEventPayload) (collected : Collected),
      run (collectFrame decodeUtf8) { idCounter } (readConnections inputs handshake s.client.dials) =
        .ok collected ∧
      List.Forall₂ (BinderEvent.Shows decodeUtf8) collected.events ((List.range s.client.dials).flatMap share) ∧
      ((List.range s.client.dials).flatMap share).Sublist s.accepted ∧
      ∀ conn, share conn <:+: s.eventsOn conn ∧
        ((inputs conn).bytes = (s.wires conn).written → handshake conn = 0 → share conn = s.eventsOn conn) := by
  choose frames share hread hevents hsize hwithin hfull using
    fun conn => eventFlow_framed hs.framed (hinputs conn) (handshake conn)
  have hframes : readConnections inputs handshake s.client.dials =
      ((List.range s.client.dials).flatMap frames).map SocketClient.Frame.ofDaemon := by
    rw [readConnections, List.map_flatMap]
    exact List.flatMap_congr fun conn _ => hread conn
  have hshares : ((List.range s.client.dials).flatMap frames).filter Frame.isEvent =
      ((List.range s.client.dials).flatMap share).map BinderEventPayload.frame := by
    rw [List.filter_flatMap, List.map_flatMap]
    exact List.flatMap_congr fun conn _ => hevents conn
  have hbounds : ∀ e ∈ (List.range s.client.dials).flatMap share, e.encode.length ≤ maxPayloadLen := by
    intro e he
    have hmem : e.frame ∈ ((List.range s.client.dials).flatMap frames).filter Frame.isEvent := by
      rw [hshares]
      exact List.mem_map_of_mem he
    obtain ⟨conn, -, hframe⟩ := List.mem_flatMap.1 (List.mem_filter.1 hmem).1
    exact hsize conn e.frame hframe
  obtain ⟨ks, errors, hcollect, hshows, -⟩ := run_collectFrame decodeUtf8 hshares hbounds { idCounter }
  refine ⟨share, _, hframes ▸ hcollect, hshows, ?_, fun conn => ⟨hwithin conn, hfull conn⟩⟩
  have hsub : ((List.range s.client.dials).flatMap share).Sublist
      ((List.range s.client.dials).flatMap s.eventsOn) :=
    List.Sublist.flatMap_right _ fun conn _ => (hwithin conn).sublist
  rw [hs.ordered.eventsOn_eq] at hsub
  exact hsub.trans hs.flow.written_sublist

/-- **Delivery.** In every state of every run of the daemon's side, and whatever part of its bytes has arrived on
each connection: the app decodes events that the daemon has written, one for one and in the order in which they
entered the channel, across all connections; on a connection whose bytes have all arrived none of its events is
missing, unless the handshake has read and dropped frames. Every event that was passed to `SendEvent` is accounted
for: it is among the events that entered the channel, or was dropped because the channel was full, or withheld because
the client was paused or stopped, or its call goes on; and what entered the channel was taken from it, is in the
broadcaster's hand, or is one of the at most 1000 events in the channel. -/
theorem events_delivered_in_order (decodeUtf8 : List UInt8 → String) {sessionToken : String}
    {actions : List EventPath.Action} {s : EventPath}
    (hrun : run EventPath.step (EventPath.connected sessionToken) actions = .ok s) :
    (s.accepted = s.taken.map Prod.fst ++ (s.hand.event.toList ++ s.eventChan) ∧ s.eventChan.length ≤ 1000 ∧
      s.sent.Perm (s.accepted ++ (s.dropped ++ (s.withheld ++ s.calls.filterMap SendCall.event))) ∧
      s.droppedCount = s.dropped.length) ∧
    ∀ (inputs : Conn → Input) (handshake : Conn → Nat) (idCounter : Int64),
      (∀ conn, (inputs conn).bytes <+: (s.wires conn).written) →
      ∃ (share : Conn → List BinderEventPayload) (collected : Collected),
        run (collectFrame decodeUtf8) { idCounter } (readConnections inputs handshake s.client.dials) =
          .ok collected ∧
        List.Forall₂ (BinderEvent.Shows decodeUtf8) collected.events ((List.range s.client.dials).flatMap share) ∧
        ((List.range s.client.dials).flatMap share).Sublist s.accepted ∧
        ∀ conn, share conn <:+: s.eventsOn conn ∧
          ((inputs conn).bytes = (s.wires conn).written → handshake conn = 0 → share conn = s.eventsOn conn) := by
  have hs := EventPath.run_delivering hrun
  refine ⟨⟨hs.flow.queue, hs.flow.capacity, hs.flow.sent, hs.flow.counted⟩, ?_⟩
  intro inputs handshake idCounter hinputs
  exact collect_delivered decodeUtf8 hs hinputs handshake idCounter

/-- An event at time `t`, with a parcel of three bytes. -/
def eventAt (t : Int64) : BinderEventPayload := { tracedRequest with timestamp := t, stackTrace := none }

/-- `SendEvent` puts an event into the channel, and the broadcaster takes it up to the point of writing it. -/
def handOver (call : Nat) (e : BinderEventPayload) : List EventPath.Action :=
  [.sendEvent e, .advance call, .advance call, .advance call, .receive 0, .testPaused, .currentConn]

/-- One event is written; the connection fails in the middle of the next one, and the third is written to the
connection that is installed then. -/
def acrossReconnect : List EventPath.Action :=
  handOver 0 (eventAt 1) ++ [.write 0] ++ handOver 1 (eventAt 2) ++
    [.fails 0 30, .write 0, .client (.enter 0 .success), .client (.enter 2 .success), .client (.enter 2 .success)] ++
    handOver 2 (eventAt 3) ++ [.write 0]

theorem events_delivered_in_order_acrossReconnect :
    ∃ s, run EventPath.step (EventPath.connected "t") acrossReconnect = .ok s ∧
      s.accepted = [eventAt 1, eventAt 2, eventAt 3] ∧
      ∃ collected, run (collectFrame decodeAscii) { idCounter := 0 }
          (readConnections (fun conn => { pieces := [(s.wires conn).written] }) (fun _ => 0) s.client.dials) =
          .ok collected ∧
        List.Forall₂ (BinderEvent.Shows decodeAscii) collected.events [eventAt 1, eventAt 3] := by
  obtain ⟨s, hrun, haccepted, hwritten, hdials⟩ :
      ∃ s, run EventPath.step (EventPath.connected "t") acrossReconnect = .ok s ∧
        s.accepted = [eventAt 1, eventAt 2, eventAt 3] ∧ s.written = [(0, eventAt 1), (1, eventAt 3)] ∧
        s.client.dials = 2 :=
    exists_of_endsIn (P := fun s : EventPath => s.accepted = [eventAt 1, eventAt 2, eventAt 3] ∧
      s.written = [(0, eventAt 1), (1, eventAt 3)] ∧ s.client.dials = 2) (by decide +kernel)
  obtain ⟨share, collected, hcollected, hshows, -, hshare⟩ := (events_delivered_in_order decodeAscii hrun).2
    (fun conn => { pieces := [(s.wires conn).written] }) (fun _ => 0) 0 fun conn => by simp [Input.bytes]
  have hall : ∀ conn, share conn = s.eventsOn conn := fun conn => (hshare conn).2 (by simp [Input.bytes]) rfl
  refine ⟨s, hrun, haccepted, collected, hcollected, ?_⟩
  rw [hdials] at hshows
  simpa [List.range_succ, hall, EventPath.eventsOn, hwritten] using hshows

end BinderTracer.App
