import BinderTracer.App.TransactionPairer

/-!
# A request and its reply

A request that concerns the monitored app is filed as a client's or a server's by one case distinction
over uids, and its reply is looked up by another one. They name the same table except when the app calls
itself and the reply does not say whom it is for, which is what the kernel program writes.
-/

namespace BinderTracer.App

open BinderTracer.Lib

namespace TransactionPairer

/-- A request of the monitored app or to it, the calls with other pair ids that surround it, and its
reply, which comes within the time to live. The clock does not read less than 0. The uid of the process
that receives the request may be missing on the request, and the uid of the sender on the reply. -/
structure Exchange where
  targetUid : Int32
  request : BinderEvent
  receiverUid : Int32
  reply : BinderEvent
  before : List Call
  requestAt : Int64
  order : RequestOrder
  between : List Call
  replyAt : Int64
  target_pos : 0 < targetUid
  request_isReply : request.isReply = false
  request_pairId : request.pairId ≠ 0
  request_uid : request.uid = targetUid ∨ request.toUid = targetUid
  request_toUid : request.toUid = 0 ∨ request.toUid = receiverUid
  reply_isReply : reply.isReply = true
  reply_pairId : reply.pairId = request.pairId
  reply_uid : reply.uid = receiverUid
  reply_toUid : reply.toUid = 0 ∨ reply.toUid = request.uid
  before_others : ∀ c ∈ before, c.pairId ≠ request.pairId
  between_others : ∀ c ∈ between, c.pairId ≠ request.pairId
  requestAt_nonneg : 0 ≤ requestAt
  between_now : ∀ c ∈ between, 0 ≤ c.now ∧ c.now - requestAt ≤ ttlMs
  replyAt_le : replyAt - requestAt ≤ ttlMs
  spared : Spares request.pairId (run {} before)
    (.recordRequest request targetUid requestAt order :: between)

namespace Exchange

/-- The state in which the reply arrives. -/
def state (x : Exchange) : TransactionPairer :=
  run {} (x.before ++ .recordRequest x.request x.targetUid x.requestAt x.order :: x.between)

/-- The result is about this request: a name that is missing stands for an unknown one. -/
structure Describes (result : PairResult) (request : BinderEvent) : Prop where
  interfaceName : result.interfaceName.getD "Unknown" = request.interfaceName
  methodName : result.methodName.getD (BinderEvent.codeText request.code) = request.methodName
  code : result.code = request.code
  resolveCandidates : result.resolveCandidates = request.resolveCandidates
  decodeSource : result.decodeSource = request.decodeSource

theorem describes_pairResult (request : BinderEvent) : Describes (pairResult request) request := by
  refine ⟨?_, ?_, rfl, rfl, rfl⟩
  · rw [pairResult]
    by_cases h : request.interfaceName = "Unknown" <;> simp [h]
  · rw [pairResult]
    by_cases h : request.methodName = BinderEvent.codeText request.code <;> simp [h]

/-- The reply finds the request, and no later call finds it again. -/
def AnsweredOnce (x : Exchange) : Prop :=
  ∃ result s, x.state.tryMatchReply x.reply x.targetUid x.replyAt = (some result, s) ∧
    Describes result x.request ∧
    ∀ (after : List Call) (event : BinderEvent) (targetUid : Int32) (now : Int64),
      (∀ c ∈ after, c.pairId ≠ x.request.pairId) → event.pairId = x.request.pairId →
      ((s.run after).tryMatchReply event targetUid now).1 = none

/-- The monitored app calls itself, and the reply does not say whom it is for. -/
def SelfCall (x : Exchange) : Prop :=
  x.request.uid = x.targetUid ∧ x.receiverUid = x.targetUid ∧ x.reply.toUid = 0

instance (x : Exchange) : Decidable x.SelfCall := inferInstanceAs (Decidable (_ ∧ _ ∧ _))

/-- The table that the request is filed in. -/
def side (x : Exchange) : Side := if x.request.uid = x.targetUid then .client else .server

theorem target_ne_zero (x : Exchange) : x.targetUid ≠ 0 := by
  intro h
  have hpos := x.target_pos
  rw [h] at hpos
  exact absurd hpos (by decide)

theorem filedIn_request (x : Exchange) : filedIn x.request x.targetUid = some x.side := by
  rw [filedIn, x.request_isReply, if_neg Bool.false_ne_true, if_neg x.request_pairId,
    if_neg (Int32.not_le.2 x.target_pos), side]
  by_cases huid : x.request.uid = x.targetUid
  · simp [huid]
  · simp [huid, x.request_uid.resolve_left huid, x.target_ne_zero]

/-- Unless the app calls itself, the reply is looked up in the table of the request. -/
theorem lookedUpIn_reply (x : Exchange) :
    lookedUpIn x.reply x.targetUid = some (if x.SelfCall then .server else x.side) := by
  have hne := x.target_ne_zero
  rw [lookedUpIn, x.reply_isReply, if_neg (not_not_intro rfl), x.reply_pairId, if_neg x.request_pairId,
    if_neg (Int32.not_le.2 x.target_pos), x.reply_uid, side]
  by_cases huid : x.request.uid = x.targetUid
  · rcases x.reply_toUid with htoUid | htoUid
    · by_cases hreceiver : x.receiverUid = x.targetUid
      · simp [SelfCall, huid, htoUid, hreceiver]
      · simp [SelfCall, huid, htoUid, hreceiver]
    · simp [SelfCall, huid, htoUid, hne]
  · -- The app is the receiver, so the reply is its own.
    have hreceived := x.request_uid.resolve_left huid
    have hreceiver : x.receiverUid = x.targetUid := by
      rcases x.request_toUid with h | h
      · exact absurd (hreceived.symm.trans h) hne
      · exact h.symm.trans hreceived
    rcases x.reply_toUid with htoUid | htoUid
    · simp [SelfCall, huid, htoUid, hreceiver]
    · simp [SelfCall, huid, htoUid, hreceiver]

theorem state_eq (x : Exchange) : x.state =
    ((run {} x.before).step (.recordRequest x.request x.targetUid x.requestAt x.order)).run x.between := by
  rw [state, run, List.foldl_append]
  rfl

/-- The request waits in its table. -/
theorem lookup_state (x : Exchange) : (x.state.requests x.side).lookup x.request.pairId =
    some (pendingRequest x.request x.requestAt) := by
  rw [x.state_eq]
  refine lookup_run_some x.between_others (fun c hc => ?_) x.spared.2 ?_
  · exact not_lt_sub_ttlMs x.requestAt_nonneg (x.between_now c hc).1 (x.between_now c hc).2
  · exact lookup_step_filed x.filedIn_request x.requestAt_nonneg x.spared.1

/-- Nothing waits under its pair id in the other table. -/
theorem lookup_state_ne (x : Exchange) {side' : Side} (h : side' ≠ x.side) :
    (x.state.requests side').lookup x.request.pairId = none := by
  rw [x.state_eq]
  apply lookup_run_none x.between_others
  rw [step, recordRequest, x.filedIn_request]
  simp only
  rw [requests_update, if_neg h]
  apply lookup_run_none x.before_others
  cases side' <;> rfl

/-- **A reply finds its request, exactly once, unless the monitored app calls itself and the reply does
not name its receiver.** -/
theorem answered_once_iff (x : Exchange) : x.AnsweredOnce ↔ ¬x.SelfCall := by
  have hside := x.lookedUpIn_reply
  constructor
  · rintro ⟨result, s, hmatch, -⟩ hself
    have hclient : Side.server ≠ x.side := by
      rw [side, if_pos hself.1]
      exact Side.noConfusion
    rw [if_pos hself] at hside
    have hnone : (x.state.tryMatchReply x.reply x.targetUid x.replyAt).1 = none := by
      apply tryMatchReply_none
      rintro side' hside'
      rw [hside] at hside'
      cases hside'
      rw [x.reply_pairId]
      exact x.lookup_state_ne hclient
    rw [hmatch] at hnone
    exact absurd hnone (Option.some_ne_none result)
  · intro hself
    rw [if_neg hself] at hside
    have hwaits := x.lookup_state
    rw [← x.reply_pairId] at hwaits
    refine ⟨_, _, tryMatchReply_some hside hwaits x.replyAt_le, describes_pairResult x.request, ?_⟩
    intro after event targetUid now hafter hevent
    apply tryMatchReply_none
    intro side' _
    rw [hevent]
    apply lookup_run_none hafter
    rw [requests_update]
    split
    · rw [x.reply_pairId]
      exact AList.lookup_erase _ _
    · next hne => exact x.lookup_state_ne hne

/-- The app `10001` calls itself, another of its requests comes in between, and the reply names its
receiver or does not. -/
def sample (named : Bool) : Exchange :=
  let event : BinderEvent :=
    { id := 0, timestamp := 0, pid := 0, uid := 10001, code := 1, flags := 0, rawParcel := [] }
  let order : RequestOrder := ⟨id, List.Perm.refl⟩
  { targetUid := 10001
    request := { event with pairId := 7, interfaceName? := some "android.app.IBar" }
    receiverUid := 10001
    reply := { event with isReply := true, pairId := 7, toUid := if named then 10001 else 0 }
    before := []
    requestAt := 0
    order
    between := [.recordRequest { event with pairId := 8 } 10001 100 order]
    replyAt := 200
    target_pos := by decide
    request_isReply := rfl
    request_pairId := by decide
    request_uid := .inl rfl
    request_toUid := .inl rfl
    reply_isReply := rfl
    reply_pairId := rfl
    reply_uid := rfl
    reply_toUid := by cases named with
      | true => exact .inr rfl
      | false => exact .inl rfl
    before_others := by simp
    between_others := by simp [Call.pairId]
    requestAt_nonneg := by decide
    between_now := by
      rintro c hc
      rw [List.mem_singleton.1 hc]
      decide
    replyAt_le := by decide
    spared := spares_of_size _ fun side => by cases side <;> decide }

theorem named_reply_answered : ¬(sample true).SelfCall ∧ (sample true).AnsweredOnce :=
  ⟨by decide, (answered_once_iff (sample true)).2 (by decide)⟩

/-- The request waits in the table of the client, and its reply is looked up in that of the server. -/
theorem unnamed_reply_lost :
    ((sample false).state.tryMatchReply (sample false).reply 10001 200).1 = none ∧
      ¬(sample false).AnsweredOnce := by
  have hnone : ((sample false).state.tryMatchReply (sample false).reply 10001 200).1 = none := by
    decide +kernel
  refine ⟨hnone, ?_⟩
  rintro ⟨result, s, hmatch, -⟩
  have hsome := congrArg Prod.fst hmatch
  exact absurd (hnone.symm.trans hsome) (Option.some_ne_none result).symm

end Exchange

end TransactionPairer

end BinderTracer.App
