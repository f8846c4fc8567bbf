import BinderTracer.App.ColdEventStore
import BinderTracer.App.ParcelArguments
import BinderTracer.Lib.JsonText

/-!
# Archiving events

`ColdEventCodec` and `EventPayloadJson` in full: an event with all the results of parsing becomes the cells of
a row, and a row an event. Enumerations are stored by name, and what is nested as the text of a JSON object.
`none` stands for an exception. The text of JSON is written and read by a `JsonCodec`; SQLite gives back the
texts, bytes and integers that were stored, integers always as 64 bits.
-/

namespace BinderTracer.App

open BinderTracer.Lib

/-! ### Enumerations -/

/-- An enumeration of the source: its constants and their names, which tell them apart. -/
class Enumeration (T : Type) where
  values : List T
  name : T → String
  find_name : ∀ v, (values.find? fun w => name w == name v) = some v

namespace Enumeration

variable {T : Type} [Enumeration T]

/-- `enumValueOf`: the constant of a name. -/
def valueOf (s : String) : Option T := values.find? fun w => name w == s

@[simp] theorem valueOf_name (v : T) : valueOf (name v) = some v := find_name v

@[simp] theorem bind_valueOf (v : Option T) : (v.map name).bind valueOf = v := by cases v <;> simp

end Enumeration

open Enumeration (valueOf name)

inductive Direction where
  | outgoingRequest | incomingRequest | outgoingReply | incomingReply | unknown
deriving DecidableEq, Repr

instance : Enumeration BinderDev where
  values := [.unknown, .binder, .hwbinder, .vndbinder]
  name
    | .unknown => "UNKNOWN"
    | .binder => "BINDER"
    | .hwbinder => "HWBINDER"
    | .vndbinder => "VNDBINDER"
  find_name v := by cases v <;> rfl

instance : Enumeration TargetKind where
  values := [.unknown, .handle, .ptr]
  name
    | .unknown => "UNKNOWN"
    | .handle => "HANDLE"
    | .ptr => "PTR"
  find_name v := by cases v <;> rfl

instance : Enumeration StackQuality where
  values := [.full, .fpOnly, .degraded, .failed]
  name
    | .full => "FULL"
    | .fpOnly => "FP_ONLY"
    | .degraded => "DEGRADED"
    | .failed => "FAILED"
  find_name v := by cases v <;> rfl

instance : Enumeration DecodeSource where
  values := [.reply, .specialCode, .aidlQ, .aidlP, .aidlO, .hidlDescriptor, .rawAscii, .targetRef]
  name
    | .reply => "REPLY"
    | .specialCode => "SPECIAL_CODE"
    | .aidlQ => "AIDL_Q"
    | .aidlP => "AIDL_P"
    | .aidlO => "AIDL_O"
    | .hidlDescriptor => "HIDL_DESCRIPTOR"
    | .rawAscii => "RAW_ASCII"
    | .targetRef => "TARGET_REF"
  find_name v := by cases v <;> rfl

instance : Enumeration Confidence where
  values := [.high, .medium, .low]
  name
    | .high => "HIGH"
    | .medium => "MEDIUM"
    | .low => "LOW"
  find_name v := by cases v <;> rfl

instance : Enumeration Direction where
  values := [.outgoingRequest, .incomingRequest, .outgoingReply, .incomingReply, .unknown]
  name
    | .outgoingRequest => "OUTGOING_REQUEST"
    | .incomingRequest => "INCOMING_REQUEST"
    | .outgoingReply => "OUTGOING_REPLY"
    | .incomingReply => "INCOMING_REPLY"
    | .unknown => "UNKNOWN"
  find_name v := by cases v <;> rfl

instance : Enumeration ArgumentStatus where
  values := [.success, .unparsed]
  name
    | .success => "SUCCESS"
    | .unparsed => "UNPARSED"
  find_name v := by cases v <;> rfl


/-! ### Events -/

/-- `BinderEvent` with the other results of parsing. -/
structure ParsedEvent extends BinderEvent where
  callerPackage? : Option String := none
  toPackage : Option String := none
  parsedArgs : List DecodedArgument := []
  sniffedSignature : List String := []
  direction : Direction := .unknown
  confidence : Option Confidence := none
  parsedReply : Option ReplyDecodeResult := none
deriving DecidableEq, Repr

def ParsedEvent.callerPackage (e : ParsedEvent) : String :=
  e.callerPackage?.getD ("UID:" ++ toString e.uid.toInt)

/-- An event as its getters show it: the caches behind the three names are private. -/
def ParsedEvent.observed (e : ParsedEvent) : ParsedEvent :=
  { e with
    interfaceName? := some e.interfaceName, methodName? := some e.methodName
    callerPackage? := some e.callerPackage }

@[simp] theorem ParsedEvent.observed_observed (e : ParsedEvent) : e.observed.observed = e.observed := rfl

/-! ### Cells -/

/-- The columns of the table. -/
inductive Column where
  | seq | pairId | ts | pid | uid | code | flags | isReply | toPid | toUid | targetRef | binderDev
  | targetKind | iface | method | callerPkg | toPkg | direction | decodeSource | confidence
  | stackModules | rawParcel | payloadJson
deriving DecidableEq, Repr

/-- A value of a row, `Any?` in the source. -/
inductive Cell where
  | null
  | int (n : Int32)
  | long (n : Int64)
  | text (s : String)
  | blob (bytes : List UInt8)
deriving DecidableEq, Repr

abbrev Cells := Column → Cell

namespace Cell

def ofText? : Option String → Cell
  | some s => .text s
  | none => .null

/-- `(c as Number).toLong()`. -/
def toLong : Cell → Option Int64
  | .int n => some n.toInt64
  | .long n => some n
  | _ => none

/-- `(c as Number).toInt()`. -/
def toInt : Cell → Option Int32
  | .int n => some n
  | .long n => some n.toInt32
  | _ => none

/-- `c as? String`. -/
def asString : Cell → Option String
  | .text s => some s
  | _ => none

/-- `c as? ByteArray`. -/
def asBytes : Cell → Option (List UInt8)
  | .blob bytes => some bytes
  | _ => none

/-- What `cursorToRow` finds where `putValue` has put a value. -/
def stored : Cell → Cell
  | .int n => .long n.toInt64
  | c => c

@[simp] theorem asString_text (s : String) : (text s).asString = some s := rfl

@[simp] theorem asBytes_blob (bytes : List UInt8) : (blob bytes).asBytes = some bytes := rfl

@[simp] theorem asString_ofText? (s : Option String) : (ofText? s).asString = s := by cases s <;> rfl

@[simp] theorem toLong_stored (c : Cell) : c.stored.toLong = c.toLong := by cases c <;> rfl

@[simp] theorem toInt_stored (c : Cell) : c.stored.toInt = c.toInt := by
  cases c with
  | int n => exact congrArg some (Int32.toInt32_toInt64 n)
  | _ => rfl

@[simp] theorem asString_stored (c : Cell) : c.stored.asString = c.asString := by cases c <;> rfl

@[simp] theorem asBytes_stored (c : Cell) : c.stored.asBytes = c.asBytes := by cases c <;> rfl

end Cell

/-! ### The payload -/

namespace EventPayloadJson

/-- The object of one frame in `framesTo`. -/
def frameTo (f : StackFrame) : JsonObject :=
  (∅ : JsonObject)
    |>.put "pc" (.num f.pc)
    |>.put "m" (.str f.module)
    |>.put "s" (.str f.symbol)
    |>.put "o" (.num f.offset)

def framesTo (frames : List StackFrame) : Json := .ofList (frames.map fun f => .ofObject (frameTo f))

def stackTo (st : StackTrace) : JsonObject :=
  (∅ : JsonObject)
    |>.put "quality" (.str (name st.quality))
    |>.put "truncated" (.num st.truncated.toInt64)
    |>.put "k" (framesTo st.kFrames)
    |>.put "u" (framesTo st.uFrames)
    |>.putSome "fail" (if st.failureReason ≠ "" then some (.str st.failureReason) else none)

/-- The object of one argument in `argsTo`. -/
def argTo (a : DecodedArgument) : JsonObject :=
  (∅ : JsonObject)
    |>.put "i" (.num a.index.toInt64)
    |>.put "t" (.str a.declaredType)
    |>.put "v" (.str a.displayValue)
    |>.put "st" (.str (name a.status))
    |>.putSome "e" (a.errorMessage.map .str)

def argsTo (args : List DecodedArgument) : Json := .ofList (args.map fun a => .ofObject (argTo a))

def replyTo (r : ReplyDecodeResult) : JsonObject :=
  (∅ : JsonObject)
    |>.putSome "ex" (r.exception.map .str)
    |>.putSome "v" (r.value.map .str)
    |>.putSome "hex" (r.rawHexHint.map .str)

/-- The object that `encode` writes. -/
def payload (e : ParsedEvent) : JsonObject :=
  (∅ : JsonObject)
    |>.putSome "stack" (e.stackTrace.map fun st => .ofObject (stackTo st))
    |>.putSome "args" (if e.parsedArgs ≠ [] then some (argsTo e.parsedArgs) else none)
    |>.putSome "reply" (e.parsedReply.map fun r => .ofObject (replyTo r))
    |>.putSome "sniffed" (if e.sniffedSignature ≠ [] then some (.ofStrings e.sniffedSignature) else none)
    |>.putSome "cands" (if e.resolveCandidates ≠ [] then some (.ofStrings e.resolveCandidates) else none)

def encode (codec : JsonCodec) (e : ParsedEvent) : String := codec.text (payload e)

/-- One frame of `framesFrom`. -/
def frameFrom (f : JsonObject) : StackFrame :=
  { pc := f.optLong "pc", module := f.optString "m", symbol := f.optString "s", offset := f.optLong "o" }

def framesFrom : Option (List Json) → Option (List StackFrame)
  | none => some []
  | some arr => arr.mapM fun j => j.asObject.map frameFrom

def stackFrom (o : JsonObject) : Option (Option StackTrace) :=
  match o.optObject "stack" with
  | none => some none
  | some s => do
    let kFrames ← framesFrom (s.optArray "k")
    let uFrames ← framesFrom (s.optArray "u")
    return some {
      quality := (valueOf (s.optString "quality")).getD .degraded
      truncated := s.optInt "truncated"
      kFrames
      uFrames
      failureReason := s.optString "fail" "" }

/-- A member that may be missing. -/
def stringIfPresent (o : JsonObject) (name : String) : Option String :=
  if o.has name then some (o.optString name) else none

/-- One argument of `argsFrom`. -/
def argFrom (a : JsonObject) : DecodedArgument where
  index := a.optInt "i"
  declaredType := a.optString "t"
  displayValue := a.optString "v"
  status := (valueOf (a.optString "st")).getD .unparsed
  errorMessage := stringIfPresent a "e"

def argsFrom (arr : List Json) : Option (List DecodedArgument) := arr.mapM fun j => j.asObject.map argFrom

def replyFrom (o : JsonObject) : ReplyDecodeResult where
  exception := stringIfPresent o "ex"
  value := stringIfPresent o "v"
  rawHexHint := stringIfPresent o "hex"

def strList (arr : List Json) : List String := arr.map fun j => j.asString.getD ""

def mutableInto (o : JsonObject) (e : ParsedEvent) : Option ParsedEvent := do
  let parsedArgs ← ((o.optArray "args").map argsFrom).getD (some e.parsedArgs)
  return { e with
    parsedArgs
    parsedReply := ((o.optObject "reply").map replyFrom).or e.parsedReply
    sniffedSignature := ((o.optArray "sniffed").map strList).getD e.sniffedSignature
    resolveCandidates := ((o.optArray "cands").map strList).getD e.resolveCandidates }

end EventPayloadJson

/-! ### Rows -/

namespace EventArchive

variable (codec : JsonCodec)

/-- `enumOr`. -/
def enumOr {T : Type} [Enumeration T] (s : Option String) (default : T) : T := (s.bind valueOf).getD default

def toRow (e : ParsedEvent) : Cells
  | .seq => .long e.id
  | .pairId => .long e.pairId
  | .ts => .long e.timestamp
  | .pid => .int e.pid
  | .uid => .int e.uid
  | .code => .int e.code
  | .flags => .int e.flags
  | .isReply => .long (if e.isReply then 1 else 0)
  | .toPid => .int e.toPid
  | .toUid => .int e.toUid
  | .targetRef => .long e.targetRef
  | .binderDev => .text (name e.binderDev)
  | .targetKind => .text (name e.targetKind)
  | .iface => .text e.interfaceName
  | .method => .text e.methodName
  | .callerPkg => .text e.callerPackage
  | .toPkg => .ofText? e.toPackage
  | .direction => .text (name e.direction)
  | .decodeSource => .ofText? (e.decodeSource.map name)
  | .confidence => .ofText? (e.confidence.map name)
  | .stackModules => .ofText? (ColdEventCodec.stackModules e.stackTrace)
  | .rawParcel => .blob e.rawParcel
  | .payloadJson => .text (EventPayloadJson.encode codec e)

def fromRow (r : Cells) : Option ParsedEvent := do
  let pj := ((r .payloadJson).asString.filter (· ≠ "")).bind codec.object
  let ev : ParsedEvent := {
    id := ← (r .seq).toLong
    timestamp := ← (r .ts).toLong
    pid := ← (r .pid).toInt
    uid := ← (r .uid).toInt
    code := ← (r .code).toInt
    flags := ← (r .flags).toInt
    rawParcel := (r .rawParcel).asBytes.getD []
    isReply := (← (r .isReply).toLong) = 1
    binderDev := enumOr (r .binderDev).asString .unknown
    targetKind := enumOr (r .targetKind).asString .unknown
    toPid := ← (r .toPid).toInt
    toUid := ← (r .toUid).toInt
    targetRef := ← (r .targetRef).toLong
    pairId := ← (r .pairId).toLong
    stackTrace := ← (pj.map EventPayloadJson.stackFrom).getD (some none)
    interfaceName? := (r .iface).asString
    methodName? := (r .method).asString
    callerPackage? := (r .callerPkg).asString
    toPackage := (r .toPkg).asString
    direction := enumOr (r .direction).asString .unknown
    decodeSource := (r .decodeSource).asString.bind valueOf
    confidence := (r .confidence).asString.bind valueOf }
  (pj.map fun o => EventPayloadJson.mutableInto o ev).getD (some ev)

end EventArchive

/-! ### What is written is read back -/

namespace EventPayloadJson

theorem frameFrom_frameTo (f : StackFrame) : frameFrom (frameTo f) = f := by
  simp [frameFrom, frameTo, JsonObject.optLong, JsonObject.optString]

theorem framesFrom_framesTo (frames : List StackFrame) : framesFrom (framesTo frames).asArray = some frames := by
  rw [framesTo, Json.asArray_ofList]
  exact Json.mapM_asObject frameFrom_frameTo frames

/-- A text that is left out when it is empty. -/
theorem getD_ite_str (s : String) :
    ((if s ≠ "" then some (Json.str s) else none).bind Json.asString).getD "" = s := by
  by_cases h : s = "" <;> simp [h]

theorem stackFrom_stackTo {o : JsonObject} {st : StackTrace}
    (h : o.optObject "stack" = some (stackTo st)) : stackFrom o = some (some st) := by
  have hquality : (stackTo st).optString "quality" = name st.quality := by
    simp [stackTo, JsonObject.optString]
  have htruncated : (stackTo st).optInt "truncated" = st.truncated := by
    simp [stackTo, JsonObject.optInt]
  have hk : framesFrom ((stackTo st).optArray "k") = some st.kFrames := by
    rw [← framesFrom_framesTo]
    simp [stackTo, JsonObject.optArray]
  have hu : framesFrom ((stackTo st).optArray "u") = some st.uFrames := by
    rw [← framesFrom_framesTo]
    simp [stackTo, JsonObject.optArray]
  have hfail : (stackTo st).optString "fail" "" = st.failureReason := by
    rw [← getD_ite_str st.failureReason]
    simp [stackTo, JsonObject.optString]
  rw [stackFrom, h]
  simp [hquality, htruncated, hk, hu, hfail]

/-- A text that may be missing. -/
theorem stringIfPresent_of_lookup {o : JsonObject} {name : String} {s : Option String}
    (h : o.lookup name = s.map .str) : stringIfPresent o name = s := by
  rw [stringIfPresent, JsonObject.has, JsonObject.optString, h]
  cases s <;> rfl

theorem argFrom_argTo (a : DecodedArgument) : argFrom (argTo a) = a := by
  have herror : stringIfPresent (argTo a) "e" = a.errorMessage :=
    stringIfPresent_of_lookup (by simp [argTo])
  rw [argFrom, herror]
  simp [argTo, JsonObject.optInt, JsonObject.optString]

theorem replyFrom_replyTo (r : ReplyDecodeResult) : replyFrom (replyTo r) = r := by
  have hexception : stringIfPresent (replyTo r) "ex" = r.exception :=
    stringIfPresent_of_lookup (by simp [replyTo])
  have hvalue : stringIfPresent (replyTo r) "v" = r.value := stringIfPresent_of_lookup (by simp [replyTo])
  have hhint : stringIfPresent (replyTo r) "hex" = r.rawHexHint :=
    stringIfPresent_of_lookup (by simp [replyTo])
  rw [replyFrom, hexception, hvalue, hhint]

theorem stackFrom_payload (e : ParsedEvent) : stackFrom (payload e) = some e.stackTrace := by
  have hstack : (payload e).optObject "stack" = e.stackTrace.map stackTo := by
    have hmember : (payload e).lookup "stack" = e.stackTrace.map fun st => .ofObject (stackTo st) := by
      simp [payload]
    rw [JsonObject.optObject, hmember]
    cases e.stackTrace <;> simp
  cases h : e.stackTrace with
  | none =>
    rw [stackFrom, hstack, h]
    rfl
  | some st =>
    refine stackFrom_stackTo ?_
    rw [hstack, h]
    rfl

/-- A list that is left out when it is empty. -/
theorem optArray_of_lookup {α : Type} {o : JsonObject} {name : String} {xs : List α} {items : List Json}
    (h : o.lookup name = if xs ≠ [] then some (.ofList items) else none) :
    o.optArray name = if xs ≠ [] then some items else none := by
  rw [JsonObject.optArray, h]
  split
  · exact Json.asArray_ofList items
  · rfl

theorem strList_or {o : JsonObject} {name : String} {texts : List String}
    (h : o.lookup name = if texts ≠ [] then some (.ofStrings texts) else none) :
    ((o.optArray name).map strList).getD [] = texts := by
  rw [optArray_of_lookup h]
  by_cases hempty : texts = []
  · simp [hempty]
  · rw [if_pos hempty]
    exact Json.map_asString texts ""

theorem argsFrom_or {o : JsonObject} {args : List DecodedArgument}
    (h : o.lookup "args" = if args ≠ [] then some (argsTo args) else none) :
    ((o.optArray "args").map argsFrom).getD (some []) = some args := by
  rw [optArray_of_lookup h]
  by_cases hempty : args = []
  · simp [hempty]
  · rw [if_pos hempty]
    exact Json.mapM_asObject argFrom_argTo args

theorem mutableInto_payload (e : ParsedEvent) {ev : ParsedEvent} (hargs : ev.parsedArgs = [])
    (hreply : ev.parsedReply = none) (hsniffed : ev.sniffedSignature = []) (hcands : ev.resolveCandidates = []) :
    mutableInto (payload e) ev = some { ev with
      parsedArgs := e.parsedArgs, parsedReply := e.parsedReply
      sniffedSignature := e.sniffedSignature, resolveCandidates := e.resolveCandidates } := by
  have hargs' : (((payload e).optArray "args").map argsFrom).getD (some []) = some e.parsedArgs :=
    argsFrom_or (by simp [payload])
  have hsniffed' : (((payload e).optArray "sniffed").map strList).getD [] = e.sniffedSignature :=
    strList_or (by simp [payload])
  have hcands' : (((payload e).optArray "cands").map strList).getD [] = e.resolveCandidates :=
    strList_or (by simp [payload])
  have hreply' : ((payload e).optObject "reply").map replyFrom = e.parsedReply := by
    have hmember : (payload e).lookup "reply" = e.parsedReply.map fun r => .ofObject (replyTo r) := by
      simp [payload]
    rw [JsonObject.optObject, hmember]
    cases e.parsedReply <;> simp [replyFrom_replyTo]
  rw [mutableInto, hargs, hreply, hsniffed, hcands, hargs', hsniffed', hcands', hreply', Option.or_none]
  rfl

end EventPayloadJson

namespace EventArchive

variable (codec : JsonCodec)

/-- What SQLite gives back is read as what was stored. -/
theorem fromRow_stored (r : Cells) : fromRow codec (fun c => (r c).stored) = fromRow codec r := by
  simp only [fromRow, Cell.toLong_stored, Cell.toInt_stored, Cell.asString_stored, Cell.asBytes_stored]

@[simp] theorem enumOr_name {T : Type} [Enumeration T] (v default : T) : enumOr (some (name v)) default = v := by
  simp [enumOr]

/-- A row is the event as its getters show it. -/
theorem fromRow_toRow (e : ParsedEvent) : fromRow codec (toRow codec e) = some e.observed := by
  have hpj : ((toRow codec e .payloadJson).asString.filter (· ≠ "")).bind codec.object =
      some (EventPayloadJson.payload e) := by
    show ((some (codec.text _)).filter _).bind codec.object = _
    rw [Option.filter_some, if_pos (by simpa using codec.text_ne_empty _), Option.bind_some, codec.object_text]
  rw [fromRow, hpj]
  simp only [Option.map_some, Option.getD_some, EventPayloadJson.stackFrom_payload]
  -- the constructor leaves what the payload holds empty
  refine (EventPayloadJson.mutableInto_payload e rfl rfl rfl rfl).trans ?_
  simp [toRow, ParsedEvent.observed]

/-- **Archiving an event loses nothing**: the event read from its row, before or after the row was in the
database, agrees with the event on everything that can be observed. -/
theorem archive_lossless (e : ParsedEvent) :
    ∃ e', fromRow codec (toRow codec e) = some e' ∧
      fromRow codec (fun c => (toRow codec e c).stored) = some e' ∧ e'.observed = e.observed := by
  refine ⟨e.observed, fromRow_toRow codec e, ?_, e.observed_observed⟩
  rw [fromRow_stored, fromRow_toRow]

/-- An event with a stack, an argument that could not be read and a reply without any content. -/
def failedCall : ParsedEvent where
  id := -1
  timestamp := -9223372036854775808
  pid := -2147483648
  uid := 10001
  code := 7
  flags := 0
  rawParcel := [0, 255]
  stackTrace := some {
    quality := .fpOnly
    truncated := 3
    kFrames := []
    uFrames := [{ pc := -4096, module := "libbinder.so", symbol := "\"quoted\"", offset := 76 }] }
  parsedArgs := [{ index := 0, declaredType := "int", displayValue := "", status := .unparsed
                   errorMessage := some "" }]
  direction := .incomingRequest
  confidence := some .low
  parsedReply := some ⟨none, none, none⟩
  sniffedSignature := ["String", "?"]

theorem archive_lossless_failedCall :
    ∃ e', fromRow .compact (toRow .compact failedCall) = some e' ∧
      fromRow .compact (fun c => (toRow .compact failedCall c).stored) = some e' ∧
      e'.observed = failedCall.observed :=
  archive_lossless .compact failedCall

end EventArchive

end BinderTracer.App
