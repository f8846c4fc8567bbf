import BinderTracer.Kernel.MainProbe

/-!
# The two programs beside the main one

`kprobe_binder_transaction_cookie` gives a request a cookie and reports it with the id that the main
program left for the thread; `raw_tp_binder_transaction` finds the cookie of the thread where the driver has
built the transaction and reports what it knows. Both return what they do to `pending_map` and the records
that they submit.
-/

namespace BinderTracer.Kernel

/-! ### The cookie program -/

/-- What one execution of the cookie program observes. -/
structure CookieContext where
  /-- The uid in `trace_config_map`, if the map has its entry. -/
  config : Option UInt32
  reply : Bool
  currentUid : UInt32
  currentTid : UInt32
  /-- `tid_to_txid_map[current_tid]`. -/
  txid : Option UInt64
  /-- `bpf_ktime_get_ns()`. -/
  ktime : UInt64
  /-- `bpf_get_smp_processor_id()`. -/
  cpu : UInt32
  /-- The reservation in the ring succeeds. -/
  reserved : Bool

/-- What one execution of the cookie program does. -/
structure CookieResult where
  /-- The update of `pending_map`. -/
  pending : Option (UInt32 × UInt64) := none
  records : List RingRecord := []

/-- The clock in the upper 56 bits, the processor in the lower 8. -/
def cookieOf (ktime : UInt64) (cpu : UInt32) : UInt64 := (ktime <<< 8) ||| (cpu &&& 0xff).toUInt64

/-- `kprobe_binder_transaction_cookie`. -/
def kprobeBinderTransactionCookie (ctx : CookieContext) : CookieResult :=
  match ctx.config with
  | none => {}
  | some uid =>
    if ctx.reply then {}
    else if uid ≠ 0 ∧ uid ≠ ctx.currentUid then {}
    else
      match ctx.txid with
      | none => {}
      | some transactionId =>
        if transactionId = 0 then {}
        else
          let cookie := cookieOf ctx.ktime ctx.cpu
          if cookie = 0 then {}
          else
            { pending := some (ctx.currentTid, cookie)
              records :=
                if ctx.reserved then
                  [.cookie { cookie, transactionIdHint := transactionId, tid := ctx.currentTid }]
                else [] }

/-- What the cookie program does: nothing, or it stores the cookie and reports it with the id that it found. -/
theorem kprobeBinderTransactionCookie_cases (ctx : CookieContext) :
    kprobeBinderTransactionCookie ctx = {} ∨
      ∃ transactionId, (∃ uid ∈ ctx.config, uid = 0 ∨ uid = ctx.currentUid) ∧ ctx.txid = some transactionId ∧
        transactionId ≠ 0 ∧ cookieOf ctx.ktime ctx.cpu ≠ 0 ∧
        (kprobeBinderTransactionCookie ctx).pending = some (ctx.currentTid, cookieOf ctx.ktime ctx.cpu) ∧
        ∀ r ∈ (kprobeBinderTransactionCookie ctx).records,
          r = .cookie { cookie := cookieOf ctx.ktime ctx.cpu, transactionIdHint := transactionId,
                        tid := ctx.currentTid } := by
  rw [kprobeBinderTransactionCookie]
  cases ctx.config with
  | none => exact .inl rfl
  | some uid =>
    dsimp only
    split
    · exact .inl rfl
    split
    · exact .inl rfl
    next huid =>
    cases ctx.txid with
    | none => exact .inl rfl
    | some transactionId =>
      dsimp only
      split
      · exact .inl rfl
      next hid =>
      split
      · exact .inl rfl
      · next hcookie =>
        have hcovers : uid = 0 ∨ uid = ctx.currentUid := by rwa [not_and_or, not_not, not_not] at huid
        refine .inr ⟨transactionId, ⟨uid, rfl, hcovers⟩, rfl, hid, hcookie, rfl, fun r hr => ?_⟩
        dsimp only at hr
        split at hr
        · exact List.mem_singleton.1 hr
        · cases hr

/-! ### The tracepoint program -/

/-- The fields of `struct binder_transaction` that are read. -/
structure BinderTransaction where
  debugId : Int32
  toPid : UInt32
  /-- `to_proc->cred->euid`, where `struct binder_proc` has the field. -/
  toEuid : Option UInt32

/-- What one execution of the tracepoint program observes. -/
structure TracepointContext where
  config : Option UInt32
  reply : Bool
  transaction : Option BinderTransaction
  currentTid : UInt32
  /-- `pending_map[current_tid]`. -/
  pending : Option UInt64
  /-- The reservation in the ring succeeds. -/
  reserved : Bool

/-- What one execution of the tracepoint program does. -/
structure TracepointResult where
  /-- The key that is deleted from `pending_map`. -/
  cleared : Option UInt32 := none
  records : List RingRecord := []

/-- The driver's number of a transaction, as it is reported. -/
def BinderTransaction.kernelDebugId (t : BinderTransaction) : UInt64 := t.debugId.toInt64.toUInt64

/-- `raw_tp_binder_transaction`. -/
def rawTpBinderTransaction (ctx : TracepointContext) : TracepointResult :=
  if ctx.config = none then {}
  else if ctx.reply then {}
  else
    match ctx.transaction, ctx.pending with
    | some t, some cookie =>
      if cookie = 0 then {}
      else
        { cleared := some ctx.currentTid
          records :=
            if ctx.reserved then
              [.sideband { toUidUnsupported := if t.toEuid.isSome then 0 else 1, cookie,
                           kernelDebugId := t.kernelDebugId, toPid := t.toPid, toUid := t.toEuid.getD 0 }]
            else [] }
    | _, _ => {}

/-- What the tracepoint program does: nothing, or it takes the cookie that it found and reports it with the
driver's number. -/
theorem rawTpBinderTransaction_cases (ctx : TracepointContext) :
    rawTpBinderTransaction ctx = {} ∨
      ∃ t cookie, ctx.config ≠ none ∧ ctx.transaction = some t ∧ ctx.pending = some cookie ∧ cookie ≠ 0 ∧
        (rawTpBinderTransaction ctx).cleared = some ctx.currentTid ∧
        ∀ r ∈ (rawTpBinderTransaction ctx).records,
          ∃ e, r = .sideband e ∧ e.cookie = cookie ∧ e.kernelDebugId = t.kernelDebugId := by
  by_cases hconfig : ctx.config = none
  · exact .inl (by rw [rawTpBinderTransaction, if_pos hconfig])
  cases hreply : ctx.reply with
  | true => exact .inl (by rw [rawTpBinderTransaction, if_neg hconfig, hreply]; rfl)
  | false =>
    cases ht : ctx.transaction with
    | none => exact .inl (by simp [rawTpBinderTransaction, hconfig, hreply, ht])
    | some t =>
      cases hp : ctx.pending with
      | none => exact .inl (by simp [rawTpBinderTransaction, hconfig, hreply, ht, hp])
      | some cookie =>
        by_cases hzero : cookie = 0
        · exact .inl (by simp [rawTpBinderTransaction, hconfig, hreply, ht, hp, hzero])
        · refine .inr ⟨t, cookie, hconfig, rfl, rfl, hzero, ?_⟩
          simp only [rawTpBinderTransaction, if_neg hconfig, hreply, Bool.false_eq_true, if_false, ht, hp,
            if_neg hzero, true_and]
          intro r hr
          split at hr
          · exact ⟨_, List.mem_singleton.1 hr, rfl, rfl⟩
          · cases hr

/-! ### Cookies -/

/-- The clock is read back from a cookie, as long as it fits. -/
theorem toNat_cookieOf {ktime : UInt64} (hfits : ktime.toNat < 2 ^ 56) (cpu : UInt32) :
    (cookieOf ktime cpu).toNat / 256 = ktime.toNat := by
  have hcpu : (cpu &&& 0xff).toNat < 2 ^ 8 := by
    rw [UInt32.toNat_and]
    exact Nat.lt_succ_of_le Nat.and_le_right
  have hshift : ktime.toNat <<< 8 < 2 ^ 64 := by
    rw [Nat.shiftLeft_eq]
    omega
  rw [cookieOf, UInt64.toNat_or, UInt64.toNat_shiftLeft, UInt32.toNat_toUInt64]
  change (ktime.toNat <<< 8 % 2 ^ 64 ||| (cpu &&& 0xff).toNat) / 256 = ktime.toNat
  rw [Nat.mod_eq_of_lt hshift, ← Nat.shiftLeft_add_eq_or_of_lt hcpu, Nat.shiftLeft_eq]
  omega

theorem cookieOf_injective {ktime ktime' : UInt64} {cpu cpu' : UInt32} (hfits : ktime.toNat < 2 ^ 56)
    (hfits' : ktime'.toNat < 2 ^ 56) (h : cookieOf ktime cpu = cookieOf ktime' cpu') : ktime = ktime' := by
  rw [← UInt64.toNat_inj, ← toNat_cookieOf hfits cpu, ← toNat_cookieOf hfits' cpu', h]

end BinderTracer.Kernel
