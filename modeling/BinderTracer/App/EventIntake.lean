import BinderTracer.App.EventArchive

/-!
# Parsing events as they come in

`EventRepository.parseEvent` in full: who sent the event and to whom, which way it goes, what the decoders make
of its parcel, which packages may know the method, and the names and values that are shown. A request is filed
for its reply after it is parsed, so that the reply can be shown with the request's names. What the package
manager, the index, the resolver and the catalog answer, the clock and the uid of the monitored app are
parameters of each call: other threads change them at any time.
-/

namespace BinderTracer.App

open BinderTracer.Lib
open TransactionPairer (filedIn lookedUpIn pendingRequest pairResult ttlMs)

/-- `Direction.infer`. -/
def Direction.infer (senderUid toUid : Int32) (isReply : Bool) (targetUid : Int32) : Direction :=
  if targetUid ≤ 0 then .unknown
  else
    let senderHit := senderUid = targetUid
    let toHit := toUid ≠ 0 ∧ toUid = targetUid
    if isReply ∧ senderHit then .outgoingReply
    else if isReply ∧ toHit then .incomingReply
    else if isReply then .incomingReply
    else if senderHit then .outgoingRequest
    else if toHit then .incomingRequest
    else .outgoingRequest

/-- A candidate of `ServiceManagerCatalog`. -/
structure ServiceMethod where
  descriptor : String
  methodName : String
deriving DecidableEq, Repr

/-- What one call of `parseEvent` reads. -/
structure ParseEnv where
  targetUid : Int32
  targetPackage : Option String
  /-- `ParcelParser.currentTargetUid`. -/
  pairingUid : Int32
  now : Int64
  getPackageNameForUid : Int32 → Option String
  getPackageOrSystemNameForUid : Int32 → Option String
  lookupOrdered : String → List String
  lookupByCode : Int32 → Option String → Option ServiceMethod
  getMethodSignature : String → Int32 → List String → Option MethodSignature
  decodeValue : ValueDecoder
  decodeJavaAidlReply : List UInt8 → Option String → ReplyDecodeResult
  lookupHandle : Int32 → Int64 → Option String

def ParseEnv.parserEnv (env : ParseEnv) (transactionPairer : TransactionPairer) : ParserEnv where
  transactionPairer
  currentTargetUid := env.pairingUid
  now := env.now
  getMethodSignature := some env.getMethodSignature
  decodeJavaAidlReply := env.decodeJavaAidlReply
  lookupHandle := env.lookupHandle

/-- `computeResolveCandidates`: each package once, where it comes first. -/
def computeResolveCandidates (env : ParseEnv) (senderPkg : Option String) (interfaceName : String) : List String :=
  let indexed := if interfaceName = "" then [] else env.lookupOrdered interfaceName
  ((env.targetPackage.toList ++ indexed ++ senderPkg.toList).filter (· ≠ "")).eraseDups

/-- The method text of a request whose method is not known: the code, and what the parcel looks like. -/
def sniffedText (code : Int32) (sniffed : List String) : String :=
  if sniffed = [] then BinderEvent.codeText code
  else BinderEvent.codeText code ++ " (" ++ String.intercalate ", " sniffed ++ ")"

/-- The names and values that are shown, by the decoder that recognised the parcel. -/
def showMethod (env : ParseEnv) (result : DecodeResult) (event : ParsedEvent) : ParsedEvent :=
  let hinted := { event with methodName? := some (result.methodHint.getD (BinderEvent.codeText event.code)) }
  match result.source with
  | .reply | .specialCode | .hidlDescriptor | .rawAscii => hinted
  | .targetRef =>
    match env.lookupByCode event.code event.toPackage with
    | some found =>
      { hinted with interfaceName? := some found.descriptor, methodName? := some found.methodName }
    | none => hinted
  | .aidlQ | .aidlP | .aidlO =>
    match env.getMethodSignature result.interfaceName event.code event.resolveCandidates with
    | none =>
      let sniffed := sniffArgumentTypes event.rawParcel 6
      { event with sniffedSignature := sniffed, methodName? := some (sniffedText event.code sniffed) }
    | some signature =>
      let named := { event with methodName? := some signature.methodName }
      if signature.paramTypes = [] then named
      else { named with parsedArgs := (decode env.decodeValue event.rawParcel signature.paramTypes).args }

/-- `parseEvent`, with the pairer that the decoders leave. -/
def parseEvent (env : ParseEnv) (transactionPairer : TransactionPairer) (event : BinderEvent) :
    ParsedEvent × TransactionPairer :=
  let senderPkg := env.getPackageNameForUid event.uid
  let decoded := decodePipeline (env.parserEnv transactionPairer) event
  let result := decoded.result
  let parsed : ParsedEvent :=
    { event with
      callerPackage? := senderPkg
      toPackage :=
        if ¬event.isReply ∧ event.toUid ≠ 0 then env.getPackageOrSystemNameForUid event.toUid else none
      direction := Direction.infer event.uid event.toUid event.isReply env.targetUid
      interfaceName? := some result.interfaceName
      decodeSource := some result.source
      confidence := some result.confidence
      parsedReply := decoded.parsedReply
      resolveCandidates := computeResolveCandidates env senderPkg result.interfaceName }
  (showMethod env result parsed, decoded.transactionPairer)

/-- A call of `addEvent`, with what is read when the request is filed. -/
structure IntakeCall where
  env : ParseEnv
  event : BinderEvent
  recordingUid : Int32
  recordedAt : Int64
  order : RequestOrder

/-- `addEvent`, up to the repository. -/
def addEvent (transactionPairer : TransactionPairer) (call : IntakeCall) : ParsedEvent × TransactionPairer :=
  let (parsed, transactionPairer) := parseEvent call.env transactionPairer call.event
  (parsed, transactionPairer.recordRequest parsed.toBinderEvent call.recordingUid call.recordedAt call.order)

/-- The pairer after a sequence of events. -/
def pairerAfter (calls : List IntakeCall) : TransactionPairer := calls.foldl (fun s call => (addEvent s call).2) {}

/-- A call and what is shown for it. -/
structure Shown where
  call : IntakeCall
  event : ParsedEvent

/-- What is shown for the call at a position. -/
def shown (calls : List IntakeCall) (i : Nat) : Option Shown :=
  calls[i]?.map fun call => ⟨call, (addEvent (pairerAfter (calls.take i)) call).1⟩

/-! ### What parsing leaves alone -/

/-- The fields that come from the wire. -/
def BinderEvent.raw (e : BinderEvent) : BinderEvent :=
  { e with interfaceName? := none, methodName? := none, resolveCandidates := [], decodeSource := none }

/-- What is shown differs from what was parsed in the names and the values only. -/
theorem showMethod_eq (env : ParseEnv) (result : DecodeResult) (event : ParsedEvent) :
    ∃ interfaceName? methodName? sniffedSignature parsedArgs,
      showMethod env result event = { event with interfaceName?, methodName?, sniffedSignature, parsedArgs } := by
  unfold showMethod
  split
  case h_5 => split <;> exact ⟨_, _, _, _, rfl⟩
  all_goals
    first
    | exact ⟨_, _, _, _, rfl⟩
    | split
      · exact ⟨_, _, _, _, rfl⟩
      · dsimp only
        split <;> exact ⟨_, _, _, _, rfl⟩

/-- **Parsing changes nothing that was captured.** -/
theorem raw_parseEvent (env : ParseEnv) (s : TransactionPairer) (event : BinderEvent) :
    (parseEvent env s event).1.toBinderEvent.raw = event.raw := by
  obtain ⟨_, _, _, _, hshown⟩ := showMethod_eq env (decodePipeline (env.parserEnv s) event).result _
  rw [parseEvent, hshown]
  rfl

/-! ### Requests -/

/-- The decoders do not touch the pairer for a request. -/
theorem parseEvent_request (env : ParseEnv) (s : TransactionPairer) {event : BinderEvent}
    (h : event.isReply = false) : (parseEvent env s event).2 = s := by
  have hreply : ReplyDecoder.tryDecode (env.parserEnv s) event = none := by
    rw [ReplyDecoder.tryDecode, h]
    rfl
  simp only [parseEvent, decodePipeline, hreply]
  rfl

/-! ### Replies -/

/-- The names of a reply by what the pairer found: those of the request, or none. -/
structure ReplyNames (pairId : Int64) (found : Option PairResult) (interfaceName methodName : String) : Prop where
  orphan : found = none →
    interfaceName = "(reply)" ∧ methodName = if pairId = 0 then "← reply (orphan)" else "← reply"
  inherited : ∀ result, found = some result → interfaceName = result.interfaceName.getD "(reply)" ∧
    ∀ m, result.methodName = some m → ∃ rest, methodName = m ++ rest

theorem inheritedHint_starts (reply : ReplyDecodeResult) (m : String) :
    ∃ rest, (ReplyDecoder.inheritedHint reply (some m)).1 = m ++ rest := by
  unfold ReplyDecoder.inheritedHint
  simp only [Option.getD_some]
  split
  · exact ⟨_, by simp only [String.append_assoc]; rfl⟩
  · exact ⟨_, by simp only [String.append_assoc]; rfl⟩
  · next heq => exact ⟨" (reply)", by cases heq; rfl⟩
  · next heq => cases heq

theorem decodeWithInheritance_names (env : ParserEnv) (event : BinderEvent) (found : PairResult) :
    ∃ hint confidence,
      (ReplyDecoder.decodeWithInheritance env event found).1 =
        ReplyDecoder.replyResult (found.interfaceName.getD "(reply)") hint confidence ∧
      ∀ m, found.methodName = some m → ∃ rest, hint = m ++ rest := by
  unfold ReplyDecoder.decodeWithInheritance
  split
  · next iface _ hiface =>
    refine ⟨_, _, by rw [hiface]; rfl, ?_⟩
    intro m hm
    rw [hm]
    exact inheritedHint_starts _ m
  · refine ⟨_, _, rfl, ?_⟩
    intro m hm
    rw [hm]
    exact ⟨" (reply)", rfl⟩

/-- A reply without a pair id is looked up nowhere. -/
theorem tryMatchReply_zero (s : TransactionPairer) {event : BinderEvent} (h : event.pairId = 0) (targetUid : Int32)
    (now : Int64) : s.tryMatchReply event targetUid now = (none, s) := by
  have hside : lookedUpIn event targetUid = none := by
    rw [lookedUpIn, if_pos h, ite_self]
  rw [TransactionPairer.tryMatchReply, hside]

theorem decodePipeline_reply (env : ParserEnv) {event : BinderEvent} (h : event.isReply = true) :
    ∃ interfaceName hint confidence parsedReply,
      decodePipeline env event =
        { result := ReplyDecoder.replyResult interfaceName hint confidence, parsedReply
          transactionPairer := (env.transactionPairer.tryMatchReply event env.currentTargetUid env.now).2 } ∧
      ReplyNames event.pairId (env.transactionPairer.tryMatchReply event env.currentTargetUid env.now).1
        interfaceName hint := by
  have hmatch : (if event.pairId ≠ 0 then env.transactionPairer.tryMatchReply event env.currentTargetUid env.now
      else (none, env.transactionPairer)) =
      env.transactionPairer.tryMatchReply event env.currentTargetUid env.now := by
    by_cases hzero : event.pairId = 0
    · rw [if_neg (not_not_intro hzero), tryMatchReply_zero _ hzero]
    · rw [if_pos hzero]
  simp only [decodePipeline, ReplyDecoder.tryDecode, h, not_true_eq_false, if_false, hmatch]
  generalize env.transactionPairer.tryMatchReply event env.currentTargetUid env.now = found
  obtain ⟨_ | result, s⟩ := found
  · refine ⟨_, _, _, _, rfl, ⟨fun _ => ⟨rfl, rfl⟩, ?_⟩⟩
    rintro result ⟨⟩
  · obtain ⟨hint, confidence, hnames, hstarts⟩ := decodeWithInheritance_names env event result
    refine ⟨result.interfaceName.getD "(reply)", hint, confidence,
      (ReplyDecoder.decodeWithInheritance env event result).2, ?_, ?_, ?_⟩
    · simp only [← hnames]
    · rintro ⟨⟩
    · rintro result' ⟨⟩
      exact ⟨rfl, hstarts⟩

/-- A reply takes what waits for it and is shown with its names. -/
theorem parseEvent_reply (env : ParseEnv) (s : TransactionPairer) {event : BinderEvent} (h : event.isReply = true) :
    (parseEvent env s event).2 = (s.tryMatchReply event env.pairingUid env.now).2 ∧
      ReplyNames event.pairId (s.tryMatchReply event env.pairingUid env.now).1
        (parseEvent env s event).1.interfaceName (parseEvent env s event).1.methodName := by
  obtain ⟨interfaceName, hint, confidence, parsedReply, hdecoded, hnames⟩ :=
    decodePipeline_reply (env.parserEnv s) h
  simp only [parseEvent, hdecoded]
  exact ⟨rfl, hnames⟩

/-! ### The pairer -/

namespace TransactionPairer

/-- What is found in a table after an event was there before, or is the request that the event files. -/
theorem lookup_of_step {s : TransactionPairer} {c : Call} {side : Side} {k : Int64} {e : PendingRequest}
    (h : ((s.step c).requests side).lookup k = some e) :
    (s.requests side).lookup k = some e ∨
      ∃ event targetUid now order, c = .recordRequest event targetUid now order ∧
        filedIn event targetUid = some side ∧ k = event.pairId ∧ e = pendingRequest event now := by
  rcases requests_step s c side with heq | heq | ⟨event, targetUid, now, order, rfl, hfiled, heq⟩
  · rw [heq] at h
    exact .inl h
  · rw [heq] at h
    by_cases hk : k = c.pairId
    · rw [hk, AList.lookup_erase] at h
      cases h
    · rw [AList.lookup_erase_ne hk] at h
      exact .inl h
  · rw [heq, putAndEvict] at h
    rcases AList.lookup_evictOldest PendingRequest.enqueuedAtMs maxEntries order
      (putAndExpire (s.requests side) event.pairId (pendingRequest event now) now) k with hk | hk
    · rw [hk, putAndExpire, AList.lookup_retain] at h
      obtain ⟨hin, -⟩ := Option.filter_eq_some_iff.1 h
      by_cases hkey : k = event.pairId
      · rw [hkey, AList.lookup_insert] at hin
        cases hin
        exact .inr ⟨event, targetUid, now, order, rfl, hfiled, hkey, rfl⟩
      · rw [AList.lookup_insert_ne hkey] at hin
        exact .inl hin
    · rw [hk] at h
      cases h

/-- What a reply finds waits in the table that it is looked up in, and is gone from there afterwards. -/
theorem tryMatchReply_found {s : TransactionPairer} {event : BinderEvent} {targetUid : Int32} {now : Int64}
    {result : PairResult} (h : (s.tryMatchReply event targetUid now).1 = some result) :
    ∃ side pending, (s.requests side).lookup event.pairId = some pending ∧ result = pending.result ∧
      now - pending.enqueuedAtMs ≤ ttlMs ∧
      (((s.tryMatchReply event targetUid now).2).requests side).lookup event.pairId = none := by
  unfold tryMatchReply at h ⊢
  cases hside : lookedUpIn event targetUid with
  | none =>
    rw [hside] at h
    cases h
  | some side =>
    rw [hside] at h
    simp only at h ⊢
    cases hpending : (s.requests side).lookup event.pairId with
    | none =>
      rw [hpending] at h
      cases h
    | some pending =>
      rw [hpending] at h
      simp only at h ⊢
      split at h
      · cases h
      · next htime =>
        cases h
        refine ⟨side, pending, hpending, rfl, Int64.not_lt.1 htime, ?_⟩
        rw [if_neg htime, requests_update, if_pos rfl, AList.lookup_erase]

end TransactionPairer

/-- What an event does to the pairer. -/
def IntakeCall.pairerCall (call : IntakeCall) (parsed : ParsedEvent) : TransactionPairer.Call :=
  if call.event.isReply then .tryMatchReply call.event call.env.pairingUid call.env.now
  else .recordRequest parsed.toBinderEvent call.recordingUid call.recordedAt call.order

section
variable (s : TransactionPairer) (call : IntakeCall)

theorem raw_addEvent : (addEvent s call).1.toBinderEvent.raw = call.event.raw := raw_parseEvent call.env s call.event

theorem isReply_addEvent : (addEvent s call).1.isReply = call.event.isReply := by
  have hraw := congrArg BinderEvent.isReply (raw_addEvent s call)
  exact hraw

theorem pairId_addEvent : (addEvent s call).1.pairId = call.event.pairId := by
  have hraw := congrArg BinderEvent.pairId (raw_addEvent s call)
  exact hraw

theorem filedIn_addEvent (targetUid : Int32) :
    filedIn (addEvent s call).1.toBinderEvent targetUid =
      filedIn call.event targetUid := by
  have hraw := congrArg (fun e => filedIn e targetUid) (raw_addEvent s call)
  exact hraw

/-- The pairer goes through one call for each event. -/
theorem addEvent_snd : (addEvent s call).2 = s.step (call.pairerCall (addEvent s call).1) := by
  have hrecord : (addEvent s call).2 = (parseEvent call.env s call.event).2.recordRequest
      (addEvent s call).1.toBinderEvent call.recordingUid call.recordedAt call.order := rfl
  rw [hrecord, IntakeCall.pairerCall]
  cases hreply : call.event.isReply with
  | true =>
    -- a reply is not filed
    have hfiled : filedIn (addEvent s call).1.toBinderEvent call.recordingUid = none := by
      rw [filedIn_addEvent, filedIn, if_pos hreply]
    rw [TransactionPairer.recordRequest, hfiled, if_pos rfl]
    exact (parseEvent_reply call.env s hreply).1
  | false =>
    rw [parseEvent_request call.env s hreply]
    rfl

end

/-! ### Runs -/

/-- A reply that is shown with the names of a request: the request came before it with the same pair id, not more
than 5 s earlier. -/
structure Inherits (request reply : Shown) : Prop where
  request_isReply : request.event.isReply = false
  reply_isReply : reply.event.isReply = true
  pairId : reply.event.pairId = request.event.pairId
  inTime : reply.call.env.now - request.call.recordedAt ≤ ttlMs
  interfaceName : reply.event.interfaceName =
    if request.event.interfaceName = "Unknown" then "(reply)" else request.event.interfaceName
  methodName : request.event.methodName ≠ BinderEvent.codeText request.event.code →
    ∃ rest, reply.event.methodName = request.event.methodName ++ rest

/-- A reply that is shown without a request. -/
def ShownAlone (reply : Shown) : Prop :=
  reply.event.interfaceName = "(reply)" ∧
    reply.event.methodName = if reply.event.pairId = 0 then "← reply (orphan)" else "← reply"

/-- Which replies were answered by which requests, by position, so far: nobody twice, and no request that still
waits. -/
structure Answers (calls : List IntakeCall) (answers : List (Nat × Nat)) : Prop where
  replies : (answers.map Prod.fst).Nodup
  requests : (answers.map Prod.snd).Nodup
  inherits : ∀ a ∈ answers, a.2 < a.1 ∧
    ∃ request reply, shown calls a.2 = some request ∧ shown calls a.1 = some reply ∧ Inherits request reply
  complete : ∀ i reply, shown calls i = some reply → reply.event.isReply = true →
    (∃ j, (i, j) ∈ answers) ∨ ShownAlone reply
  waiting : ∀ side k e, ((pairerAfter calls).requests side).lookup k = some e →
    ∃ j request, shown calls j = some request ∧ j ∉ answers.map Prod.snd ∧
      filedIn request.event.toBinderEvent request.call.recordingUid = some side ∧
      request.event.pairId = k ∧
      e = pendingRequest request.event.toBinderEvent request.call.recordedAt

theorem pairerAfter_append (calls : List IntakeCall) (call : IntakeCall) :
    pairerAfter (calls ++ [call]) = (addEvent (pairerAfter calls) call).2 := by
  rw [pairerAfter, List.foldl_append]
  rfl

theorem lt_length_of_shown {calls : List IntakeCall} {i : Nat} {x : Shown} (h : shown calls i = some x) :
    i < calls.length := by
  obtain ⟨call, hcall, -⟩ := Option.map_eq_some_iff.1 h
  exact (List.getElem?_eq_some_iff.1 hcall).1

/-- What is shown stays, and the last event is shown by what came before it. -/
theorem shown_append (calls : List IntakeCall) (call : IntakeCall) (i : Nat) :
    shown (calls ++ [call]) i =
      if i = calls.length then some ⟨call, (addEvent (pairerAfter calls) call).1⟩ else shown calls i := by
  rcases Nat.lt_trichotomy i calls.length with hlt | rfl | hgt
  · rw [if_neg (Nat.ne_of_lt hlt), shown, shown, List.getElem?_append_left hlt,
      List.take_append_of_le_length (Nat.le_of_lt hlt)]
  · rw [if_pos rfl, shown, List.getElem?_concat_length, List.take_left]
    rfl
  · have hnone : calls[i]? = none := List.getElem?_eq_none (Nat.le_of_lt hgt)
    have hnone' : (calls ++ [call])[i]? = none := by
      refine List.getElem?_eq_none ?_
      rw [List.length_append, List.length_singleton]
      omega
    rw [if_neg (Nat.ne_of_gt hgt), shown, shown, hnone, hnone']
    rfl

theorem shown_append_of_some {calls : List IntakeCall} {i : Nat} {x : Shown} (h : shown calls i = some x)
    (call : IntakeCall) : shown (calls ++ [call]) i = some x := by
  rw [shown_append, if_neg (Nat.ne_of_lt (lt_length_of_shown h)), h]

theorem isReply_of_filedIn {e : BinderEvent} {targetUid : Int32} {side : Side} (h : filedIn e targetUid = some side) :
    e.isReply = false := by
  unfold filedIn at h
  split at h
  · cases h
  · next hreply => exact Bool.eq_false_iff.2 hreply

/-! ### Who answers whom -/

theorem interfaceName_pairResult (e : BinderEvent) :
    (pairResult e).interfaceName.getD "(reply)" =
      if e.interfaceName = "Unknown" then "(reply)" else e.interfaceName := by
  unfold pairResult
  by_cases h : e.interfaceName = "Unknown"
  · simp only [h, ne_eq, not_true_eq_false, if_false, if_true, Option.getD_none]
  · simp only [h, ne_eq, not_false_eq_true, if_false, if_true, Option.getD_some]

/-- What the reply finds is what the request left. -/
theorem inherits_of_found {request reply : Shown} {side : Side}
    (hfiled : filedIn request.event.toBinderEvent request.call.recordingUid = some side)
    (hisReply : reply.event.isReply = true) (hpairId : reply.event.pairId = request.event.pairId)
    (hinTime : reply.call.env.now - request.call.recordedAt ≤ ttlMs)
    (hnames : ReplyNames reply.call.event.pairId (some (pairResult request.event.toBinderEvent))
      reply.event.interfaceName reply.event.methodName) : Inherits request reply := by
  obtain ⟨hinterface, hmethod⟩ := hnames.inherited _ rfl
  refine ⟨isReply_of_filedIn hfiled, hisReply, hpairId, hinTime, hinterface.trans (interfaceName_pairResult _), ?_⟩
  intro hknown
  refine hmethod _ ?_
  rw [pairResult]
  exact if_pos hknown

namespace Answers

variable {calls : List IntakeCall} {answers : List (Nat × Nat)} (h : Answers calls answers) (call : IntakeCall)
include h

/-- Everybody in the answers came before. -/
theorem lt_length {a : Nat × Nat} (ha : a ∈ answers) : a.1 < calls.length ∧ a.2 < calls.length := by
  obtain ⟨hlt, request, reply, -, hreply, -⟩ := h.inherits a ha
  have hlength := lt_length_of_shown hreply
  exact ⟨hlength, hlt.trans hlength⟩

theorem not_mem_replies : calls.length ∉ answers.map Prod.fst := by
  intro hmem
  obtain ⟨a, ha, heq⟩ := List.mem_map.1 hmem
  exact absurd heq (Nat.ne_of_lt (h.lt_length ha).1)

theorem not_mem_requests : calls.length ∉ answers.map Prod.snd := by
  intro hmem
  obtain ⟨a, ha, heq⟩ := List.mem_map.1 hmem
  exact absurd heq (Nat.ne_of_lt (h.lt_length ha).2)

theorem inherits_append : ∀ a ∈ answers, a.2 < a.1 ∧
    ∃ request reply, shown (calls ++ [call]) a.2 = some request ∧ shown (calls ++ [call]) a.1 = some reply ∧
      Inherits request reply := by
  intro a ha
  obtain ⟨hlt, request, reply, hrequest, hreply, hinherits⟩ := h.inherits a ha
  exact ⟨hlt, request, reply, shown_append_of_some hrequest call, shown_append_of_some hreply call, hinherits⟩

theorem complete_append {reply : Shown} {i : Nat} (hi : i ≠ calls.length)
    (hshown : shown (calls ++ [call]) i = some reply) (hreply : reply.event.isReply = true) :
    (∃ j, (i, j) ∈ answers) ∨ ShownAlone reply := by
  rw [shown_append, if_neg hi] at hshown
  exact h.complete i reply hshown hreply

/-- An event that answers nobody. -/
theorem append_same
    (hlast : (addEvent (pairerAfter calls) call).1.isReply = true →
      ShownAlone ⟨call, (addEvent (pairerAfter calls) call).1⟩) : Answers (calls ++ [call]) answers where
  replies := h.replies
  requests := h.requests
  inherits := h.inherits_append call
  complete i reply hshown hreply := by
    by_cases hi : i = calls.length
    · rw [shown_append, if_pos hi] at hshown
      cases hshown
      exact .inr (hlast hreply)
    · exact h.complete_append call hi hshown hreply
  waiting side k e hlookup := by
    rw [pairerAfter_append, addEvent_snd] at hlookup
    rcases TransactionPairer.lookup_of_step hlookup with hold | ⟨event, targetUid, now, order, hcall, hfiled, hk, he⟩
    · obtain ⟨j, request, hrequest, hj, hrest⟩ := h.waiting side k e hold
      exact ⟨j, request, shown_append_of_some hrequest call, hj, hrest⟩
    · -- the request that was just filed
      have hreply : call.event.isReply = false := by
        by_contra hreply
        rw [IntakeCall.pairerCall, if_pos (Bool.eq_true_of_not_eq_false hreply)] at hcall
        cases hcall
      rw [IntakeCall.pairerCall, hreply] at hcall
      cases hcall
      exact ⟨calls.length, ⟨call, (addEvent (pairerAfter calls) call).1⟩, by rw [shown_append, if_pos rfl],
        h.not_mem_requests, hfiled, hk.symm, he⟩

/-- A reply that finds a request. -/
theorem append_found (hreply : call.event.isReply = true) {result : PairResult}
    (hfound : ((pairerAfter calls).tryMatchReply call.event call.env.pairingUid call.env.now).1 = some result) :
    ∃ j, Answers (calls ++ [call]) ((calls.length, j) :: answers) := by
  obtain ⟨side, pending, hlookup, hresult, htime, hgone⟩ := TransactionPairer.tryMatchReply_found hfound
  obtain ⟨j, request, hrequest, hj, hfiled, hpairId, hpending⟩ := h.waiting side call.event.pairId pending hlookup
  have hlast : shown (calls ++ [call]) calls.length = some ⟨call, (addEvent (pairerAfter calls) call).1⟩ := by
    rw [shown_append, if_pos rfl]
  have hnames := (parseEvent_reply call.env (pairerAfter calls) hreply).2
  rw [hfound, hresult, hpending] at hnames
  have hinherits : Inherits request ⟨call, (addEvent (pairerAfter calls) call).1⟩ := by
    rw [hpending] at htime
    exact inherits_of_found hfiled ((isReply_addEvent _ call).trans hreply)
      ((pairId_addEvent _ call).trans hpairId.symm) htime hnames
  refine ⟨j, ?_, ?_, ?_, ?_, ?_⟩
  · exact List.nodup_cons.2 ⟨h.not_mem_replies, h.replies⟩
  · exact List.nodup_cons.2 ⟨hj, h.requests⟩
  · refine List.forall_mem_cons.2 ⟨⟨lt_length_of_shown hrequest, request, _,
      shown_append_of_some hrequest call, hlast, hinherits⟩, h.inherits_append call⟩
  · intro i reply hshown hisReply
    by_cases hi : i = calls.length
    · exact .inl ⟨j, hi ▸ List.mem_cons_self⟩
    · exact (h.complete_append call hi hshown hisReply).imp_left fun ⟨j', hj'⟩ => ⟨j', List.mem_cons_of_mem _ hj'⟩
  · intro side' k e hlookup'
    rw [pairerAfter_append, addEvent_snd, IntakeCall.pairerCall, if_pos hreply] at hlookup'
    rcases TransactionPairer.lookup_of_step hlookup' with hold | ⟨_, _, _, _, hcall, -⟩
    · obtain ⟨j', request', hrequest', hj', hfiled', hk, he⟩ := h.waiting side' k e hold
      refine ⟨j', request', shown_append_of_some hrequest' call, ?_, hfiled', hk, he⟩
      -- what the reply took is gone from its table
      rw [List.map_cons, List.mem_cons, not_or]
      refine ⟨?_, hj'⟩
      rintro rfl
      rw [hrequest] at hrequest'
      cases hrequest'
      rw [hfiled] at hfiled'
      cases hfiled'
      rw [← hk, hpairId] at hlookup'
      exact absurd (hgone.symm.trans hlookup') (Option.some_ne_none e).symm
    · cases hcall

end Answers

theorem answers_exist (calls : List IntakeCall) : ∃ answers, Answers calls answers := by
  induction calls using List.reverseRecOn with
  | nil =>
    refine ⟨[], List.nodup_nil, List.nodup_nil, by simp, ?_, ?_⟩
    · rintro i reply ⟨⟩
    · intro side k e hlookup
      cases side <;> cases hlookup
  | append_singleton calls call ih =>
    obtain ⟨answers, h⟩ := ih
    cases hreply : call.event.isReply with
    | false =>
      refine ⟨answers, h.append_same call fun hlast => ?_⟩
      rw [isReply_addEvent, hreply] at hlast
      cases hlast
    | true =>
      cases hfound : ((pairerAfter calls).tryMatchReply call.event call.env.pairingUid call.env.now).1 with
      | some result =>
        obtain ⟨j, hj⟩ := h.append_found call hreply hfound
        exact ⟨_, hj⟩
      | none =>
        refine ⟨answers, h.append_same call fun _ => ?_⟩
        have hnames := (parseEvent_reply call.env (pairerAfter calls) hreply).2.orphan hfound
        rw [ShownAlone, pairId_addEvent]
        exact hnames

/-- **A reply is shown with the names of one request, and no request lends its names twice**, whatever comes in, in
any order: the request came before the reply, at most 5 s, and bears its pair id. A reply that finds none is shown
without names. -/
theorem replies_inherit_once (calls : List IntakeCall) :
    ∃ answers : List (Nat × Nat),
      (answers.map Prod.fst).Nodup ∧ (answers.map Prod.snd).Nodup ∧
      (∀ a ∈ answers, a.2 < a.1 ∧
        ∃ request reply, shown calls a.2 = some request ∧ shown calls a.1 = some reply ∧ Inherits request reply) ∧
      ∀ i reply, shown calls i = some reply → reply.event.isReply = true →
        (∃ j, (i, j) ∈ answers) ∨ ShownAlone reply := by
  obtain ⟨answers, h⟩ := answers_exist calls
  exact ⟨answers, h.replies, h.requests, h.inherits, h.complete⟩

end BinderTracer.App
