import BinderTracer.App.MonitoringSession
import BinderTracer.App.BinderEvent

/-!
# The socket server of the app

`SocketClient` and `RealSessionTransport` of the app, beside the operations of the session: the server socket, the
one client connection, the handshake, and the event loops. Any process may connect to the port, so a client sends
any frames; the session token is what tells the daemon apart. Bytes that are no frame end the connection, and a
connection that is closed gives no more frames.

Accepting a client happens in two places: in `awaitClient`, before the handshake, and in the event loop after a
drop. An event loop that is cancelled goes on until it emits a frame.
-/

namespace BinderTracer.App

open BinderTracer.Lib MonitoringSessionController

namespace SocketClient

structure Frame where
  type : UInt8
  payload : List UInt8
deriving DecidableEq, Repr

abbrev msgBinderEvent : UInt8 := 0x10
abbrev msgAck : UInt8 := 0x11
abbrev msgError : UInt8 := 0x12

/-- `parseAckMessage`. The sum wraps around, and `String(payload, 5, msgLen)` then throws. -/
def parseAckMessage (decodeUtf8 : List UInt8 → String) (payload : List UInt8) : Except Throwable String :=
  if payload.length < 5 then .ok ""
  else
    let msgLen := (beUInt32 payload 1).toInt32
    if msgLen ≤ 0 ∨ 5 + msgLen > Int32.ofNat payload.length then .ok ""
    else if 5 + msgLen.toInt ≤ payload.length then .ok (decodeUtf8 (slice payload 5 msgLen.toInt.toNat))
    else .error .indexOutOfBounds

/-- What `sendSetTargetAndAwaitAck` makes of an acknowledgement. -/
def acceptsAck (decodeUtf8 : List UInt8 → String) (expectedSessionToken : String) (payload : List UInt8) :
    Except Throwable Bool := do
  let success := payload.head? = some 1
  let message ← parseAckMessage decodeUtf8 payload
  if !success then return false
  if expectedSessionToken ≠ "" then return message.startsWith ("session=" ++ expectedSessionToken ++ ";")
  return true

end SocketClient

open SocketClient

/-- A handshake that was acknowledged: the connections on which `SET_TARGET` was written and the acknowledgement
was read, and the token that was expected. -/
structure Handshake where
  sentOn : Nat
  ackedOn : Nat
  token : String
deriving DecidableEq, Repr

/-- A frame that an event loop has read, with its connection, the session token at that moment, and the
handshakes acknowledged before. -/
structure ReadFrame where
  frame : Frame
  conn : Nat
  token : String
  handshakes : List Handshake
deriving DecidableEq, Repr

/-- The frame was read from a connection on which a handshake with the current token was acknowledged. -/
def ReadFrame.Authenticated (r : ReadFrame) : Prop :=
  r.token ≠ "" ∧ ⟨r.conn, r.conn, r.token⟩ ∈ r.handshakes

instance (r : ReadFrame) : Decidable r.Authenticated :=
  inferInstanceAs (Decidable (r.token ≠ "" ∧ _ ∈ r.handshakes))

/-- Where `eventFlow` is. -/
inductive LoopPhase where
  /-- At the test of `serverRunning`. -/
  | top
  | accepting
  | reading
  | emitting (r : ReadFrame)
  | ended
deriving DecidableEq, Repr

/-- An event loop: `eventFlow`, and the frames that wait for the collector. -/
structure EventLoop where
  cancelled : Bool := false
  phase : LoopPhase := .top
  buffer : List ReadFrame := []
deriving DecidableEq, Repr

def EventLoop.alive (l : EventLoop) : Bool := l.phase ≠ .ended

/-- The session and the socket, with what has happened: how many clients were accepted, the handshakes that wait
for an acknowledgement, those acknowledged, and the events that have reached `addEvent`. A connection is the number
of its acceptance. -/
structure MonitoringApp where
  session : Session
  serverRunning : Bool := false
  socket : Option Nat := none
  accepted : Nat := 0
  loops : List EventLoop := []
  idCounter : Int64 := 0
  sent : Nat → Option Nat := fun _ => none
  handshakes : List Handshake := []
  added : List (BinderEvent × ReadFrame) := []

namespace MonitoringApp

/-- `sessionToken` of the controller. -/
def token (s : MonitoringApp) : String := s.session.data.sessionToken

/-- `closeClientLocked`. -/
def closeClient (s : MonitoringApp) : MonitoringApp := { s with socket := none }

/-- `disconnect`. -/
def disconnect (s : MonitoringApp) : MonitoringApp := { s.closeClient with serverRunning := false }

/-- `awaitClientInternal`, when a client connects. -/
def accept (s : MonitoringApp) : MonitoringApp :=
  { s with socket := some s.accepted, accepted := s.accepted + 1 }

/-- `eventJob?.cancel()`. -/
def cancelLoops (s : MonitoringApp) : MonitoringApp :=
  { s with loops := s.loops.map fun l => { l with cancelled := true } }

/-- The call in which operation `i` waits. -/
def pending (s : MonitoringApp) (i : Nat) : Option TransportCall :=
  match s.session.tasks[i]? with
  | some ⟨_, true, _, .call q _⟩ => some q
  | _ => none

/-- What a call of the transport does, if it returns `result`. The handshake returns true only by `readAck`. -/
def transport (s : MonitoringApp) (i : Nat) (result : Bool) : TransportCall → Except Blocked MonitoringApp
  | .disconnectSocket => .ok s.disconnect
  | .startServer => .ok { s.disconnect with serverRunning := result }
  | .awaitClient =>
    if !result then .ok s else if s.serverRunning then .ok s.accept else .error .blocked
  | .handshake _ _ =>
    if result then .error .blocked else .ok { s with sent := Function.update s.sent i none }
  | .startEventLoop => .ok { s.cancelLoops with loops := s.cancelLoops.loops ++ [{}] }
  | .stopEventLoop => .ok s.cancelLoops
  | _ => .ok s

/-- The session goes on. -/
def sessionStep (s : MonitoringApp) (a : Action Operation Bool) : Except Blocked MonitoringApp :=
  match s.session.step programs a with
  | .ok session => .ok { s with session }
  | .error e => .error e

/-- The call of operation `i` returns. -/
def answer (s : MonitoringApp) (i : Nat) (result : Bool) : Except Blocked MonitoringApp :=
  match s.pending i with
  | some q =>
    match s.transport i result q with
    | .ok s => s.sessionStep (.answer i result)
    | .error e => .error e
  | none => .error .blocked

/-- `sendSetTargetAndAwaitAck`: the frame is written. -/
def sendSetTarget (s : MonitoringApp) (i : Nat) : Except Blocked MonitoringApp :=
  match s.pending i, s.sent i, s.socket with
  | some (.handshake _ _), none, some conn => .ok { s with sent := Function.update s.sent i (some conn) }
  | _, _, _ => .error .blocked

/-- The handshake of operation `i` is acknowledged. -/
def acknowledge (s : MonitoringApp) (i sentOn ackedOn : Nat) (token : String) : MonitoringApp :=
  { s with
    sent := Function.update s.sent i none
    handshakes := s.handshakes ++ [⟨sentOn, ackedOn, token⟩] }

/-- `sendSetTargetAndAwaitAck`: a frame is read. An exception ends the process. -/
def readAck (decodeUtf8 : List UInt8 → String) (s : MonitoringApp) (i : Nat) (frame : Frame) :
    Except Blocked MonitoringApp :=
  match s.pending i, s.sent i, s.socket with
  | some (.handshake _ token), some sentOn, some conn =>
    if frame.type = msgAck then
      match acceptsAck decodeUtf8 token frame.payload with
      | .ok true => (s.acknowledge i sentOn conn token).sessionStep (.answer i true)
      | .ok false => s.answer i false
      | .error _ => .error .blocked
    else if frame.type = msgError then s.answer i false
    else .ok s
  | _, _, _ => .error .blocked

/-- What an event loop does. -/
inductive LoopAction where
  | check
  | accept
  | timeout
  | read (frame : Frame)
  | readFails
  | emit
deriving DecidableEq, Repr

/-- Loop `j`, which was `l`, goes on. -/
def moveLoop (s : MonitoringApp) (j : Nat) (l : EventLoop) (phase : LoopPhase) : MonitoringApp :=
  { s with loops := s.loops.set j { l with phase } }

/-- A step of `eventFlow`. -/
def loopStep (s : MonitoringApp) (j : Nat) (l : EventLoop) : LoopAction → Except Blocked MonitoringApp
  | .check =>
    if l.phase ≠ .top then .error .blocked
    else if !s.serverRunning then .ok (s.moveLoop j l .ended)
    else .ok (s.moveLoop j l (if s.socket.isSome then .reading else .accepting))
  | .accept =>
    if l.phase = .accepting ∧ s.serverRunning = true then .ok (s.accept.moveLoop j l .reading)
    else .error .blocked
  | .timeout => if l.phase = .accepting then .ok (s.moveLoop j l .top) else .error .blocked
  | .read frame =>
    match l.phase, s.socket with
    | .reading, some conn => .ok (s.moveLoop j l (.emitting ⟨frame, conn, s.token, s.handshakes⟩))
    | _, _ => .error .blocked
  | .readFails => if l.phase = .reading then .ok (s.closeClient.moveLoop j l .top) else .error .blocked
  | .emit =>
    match l.phase with
    | .emitting r =>
      .ok (if l.cancelled then s.moveLoop j l .ended
        else { s with loops := s.loops.set j { l with phase := .top, buffer := l.buffer ++ [r] } })
    | _ => .error .blocked

/-- The collector of loop `j` takes a frame. -/
def collect (decodeUtf8 : List UInt8 → String) (s : MonitoringApp) (j : Nat) (l : EventLoop) (r : ReadFrame)
    (buffer : List ReadFrame) : MonitoringApp :=
  let rest := { s with loops := s.loops.set j { l with buffer } }
  if r.frame.type = msgBinderEvent then
    match fromPayload decodeUtf8 s.idCounter r.frame.payload with
    | .ok (_, some event) => { rest with idCounter := s.idCounter + 1, added := s.added ++ [(event, r)] }
    | .ok (_, none) => rest
    -- the exception cancels the loop
    | .error _ => { s with loops := s.loops.set j { l with buffer := [], cancelled := true } }
  else rest

/-- What can happen. -/
inductive AppAction where
  | issue (op : Operation)
  | begin (i : Nat)
  | perform (op : Operation)
  | answer (i : Nat) (result : Bool)
  | sendSetTarget (i : Nat)
  | readAck (i : Nat) (frame : Frame)
  | loop (j : Nat) (a : LoopAction)
  | collect (j : Nat)
deriving DecidableEq, Repr

def step (decodeUtf8 : List UInt8 → String) (s : MonitoringApp) : AppAction → Except Blocked MonitoringApp
  | .issue op => s.sessionStep (.issue op)
  | .begin i => s.sessionStep (.begin i)
  | .perform op => s.sessionStep (.perform op)
  | .answer i result => s.answer i result
  | .sendSetTarget i => s.sendSetTarget i
  | .readAck i frame => s.readAck decodeUtf8 i frame
  | .loop j a =>
    match s.loops[j]? with
    | some l => s.loopStep j l a
    | none => .error .blocked
  | .collect j =>
    match s.loops[j]? with
    | some l =>
      match l.buffer with
      | r :: buffer => .ok (s.collect decodeUtf8 j l r buffer)
      | [] => .error .blocked
    | none => .error .blocked

/-- Before the first operation. -/
def initial (random : Nat → List.Vector UInt8 16) : MonitoringApp :=
  { session := MonitoringSessionController.initial random }

end MonitoringApp

end BinderTracer.App
