import BinderTracer.Daemon.Payload
import BinderTracer.Lib.ByteOrder

/-!
# Commands from the app

`handleCommand` of the daemon's `SocketClient`. The handlers of pause and resume only write to the log and
return no error; that of the target uid may fail.
-/

namespace BinderTracer.Daemon

open BinderTracer.Lib

/-- `Frame`. -/
structure Frame where
  type : UInt8
  payload : Bytes
deriving DecidableEq, Repr

abbrev msgTypeSetTarget : UInt8 := 0x01
abbrev msgTypePause : UInt8 := 0x02
abbrev msgTypeResume : UInt8 := 0x03
abbrev msgTypeShutdown : UInt8 := 0x04
abbrev msgTypePing : UInt8 := 0x05

/-- What is sent back on the connection. -/
inductive Reply where
  | ack (success : Bool) (message : String)
  | error (code : UInt32) (message : String)
  | pong
deriving DecidableEq, Repr

/-- The fields of `SocketClient` that a command reads or changes, and whether it has begun to shut down. -/
structure CommandState where
  sessionToken : String
  paused : Bool := false
  shutdown : Bool := false
deriving DecidableEq, Repr

/-- `DecodeSetTarget`. -/
def decodeSetTarget (data : Bytes) : Option UInt32 :=
  if data.length < 4 then none else some (beUInt32 data 0)

/-- The message of a successful `SET_TARGET`: the session token, if there is one, comes first. -/
def setTargetMessage (sessionToken : String) (uid : UInt32) : String :=
  let msg := "目标UID设置为 " ++ toString uid.toNat
  let protoCap := "proto=2;cap=is_reply,binder_dev,target_ref"
  if sessionToken ≠ "" then "session=" ++ sessionToken ++ ";" ++ protoCap ++ ";" ++ msg
  else protoCap ++ ";" ++ msg

/-- `handleCommand`, with the error that setting the target uid gives. -/
def handleCommand (onSetTarget : UInt32 → Option String) (s : CommandState) (frame : Frame) :
    CommandState × Reply :=
  if frame.type = msgTypeSetTarget then
    match decodeSetTarget frame.payload with
    | none => (s, .error 1 "invalid frame")
    | some uid =>
      match onSetTarget uid with
      | some err => (s, .error 1 err)
      | none => (s, .ack true (setTargetMessage s.sessionToken uid))
  else if frame.type = msgTypePause then ({ s with paused := true }, .ack true "事件推送已暂停")
  else if frame.type = msgTypeResume then ({ s with paused := false }, .ack true "事件推送已恢复")
  else if frame.type = msgTypeShutdown then ({ s with shutdown := true }, .ack true "正在关闭...")
  else if frame.type = msgTypePing then (s, .pong)
  else (s, .error 1 ("未知命令类型: 0x" ++ String.ofList (hexByte frame.type)))

/-- **Only `PAUSE` and `RESUME` change whether events are sent.** -/
theorem paused_handleCommand (onSetTarget : UInt32 → Option String) (s : CommandState) (frame : Frame) :
    (handleCommand onSetTarget s frame).1.paused =
      if frame.type = msgTypePause then true
      else if frame.type = msgTypeResume then false else s.paused := by
  rw [handleCommand]
  split
  · next htype =>
    rw [htype, if_neg (by decide), if_neg (by decide)]
    split
    · rfl
    · split <;> rfl
  split
  · rfl
  split
  · rfl
  split
  · rfl
  split <;> rfl

end BinderTracer.Daemon
