import BinderTracer.Kernel.Records

/-!
# The main kernel program

`kprobe_binder_transaction` of `binder_transaction.byte.c`: from the arguments of the driver function
and the helper calls' answers to the records it submits and its update of `tid_to_txid_map`. A ring
reservation either fails or returns a slot with whatever bytes were there before.
-/

namespace BinderTracer.Kernel

/-- The fields of `struct binder_transaction_data` that are read. -/
structure BinderTransactionData where
  code : UInt32
  flags : UInt32
  dataSize : UInt64
  /-- The `target` union, as a word. -/
  target : UInt64
  /-- `data.ptr.buffer`. -/
  buffer : UInt64

/-- The transaction a reply answers: `thread->transaction_stack`. -/
structure InReplyTo where
  debugId : Int32
  senderEuid : UInt32

/-- A reserved stack record after `bpf_get_stack`, with that helper's return value. -/
structure StackSlot where
  uret : Int
  kstack : List.Vector UInt64 32
  ustack : List.Vector UInt64 32

/-- What one execution of the program observes. -/
structure ProbeContext where
  /-- The uid in `trace_config_map`, if the map has its entry. -/
  config : Option UInt32
  reply : Bool
  tr : Option BinderTransactionData
  transactionStack : Option InReplyTo
  currentUid : UInt32
  currentPid : UInt32
  currentTid : UInt32
  /-- `bpf_ktime_get_ns()`. -/
  ktime : UInt64
  /-- The first character of the sender's context name. -/
  contextName : Option UInt8
  /-- The sender's memory: the byte at an address, unless reading it faults. -/
  userMemory : UInt64 → Option UInt8
  stackSlot : Option StackSlot
  /-- The slot reserved for chunk `i`, with its stale bytes. -/
  chunkSlot : Nat → Option ChunkData

/-- What one execution of the program does. -/
structure ProbeResult where
  /-- The update of `tid_to_txid_map`. -/
  tidToTxid : Option (UInt32 × UInt64) := none
  /-- The records submitted, in order. -/
  records : List RingRecord := []

/-- `binder_dev`: told by the first character of the context name. -/
def binderDev (contextName : Option UInt8) : UInt8 :=
  if contextName = some 98 then 1
  else if contextName = some 104 then 2
  else if contextName = some 118 then 3
  else 0

/-- `total_chunks`: a 64-bit quotient stored in 32 bits. -/
def totalChunks (dataSize : UInt64) : UInt32 := ((dataSize + 1024 - 1) / 1024).toUInt32

/-- `probe_read_size` of chunk `i`. -/
def probeReadSize (dataSize : UInt64) (i : Nat) : Nat :=
  let size : UInt64 :=
    if (i + 1) * chunkSize > dataSize.toNat then dataSize - UInt64.ofNat (i * chunkSize) else 1024
  min size.toNat chunkSize

/-- The address chunk `i` is read from: the top byte of the pointer is a tag. -/
def chunkAddress (buffer : UInt64) (i : Nat) : UInt64 :=
  (buffer + UInt64.ofNat (i * chunkSize)) &&& 0x00FFFFFFFFFFFFFF

/-- The bytes `bpf_probe_read_user` writes: those in memory, or zeros if one of them faults. -/
def probeReadUser (userMemory : UInt64 → Option UInt8) (address : UInt64) (n : Nat) : List UInt8 :=
  ((List.range n).mapM fun k => userMemory (address + UInt64.ofNat k)).getD (List.replicate n 0)

/-- `slot` with its first bytes overwritten. -/
def overwrite (slot : ChunkData) (bytes : List UInt8) : ChunkData :=
  ⟨(bytes ++ slot.toList.drop bytes.length).take chunkSize, by simp; omega⟩

/-- The record of chunk `i`. -/
def chunkRecord (ctx : ProbeContext) (tr : BinderTransactionData) (i : Nat) (slot : ChunkData) :
    BinderTraceEvent :=
  { isReply := if ctx.reply then 1 else 0
    binderDev := binderDev ctx.contextName
    targetKind := 0
    pid := ctx.currentPid
    uid := ctx.currentUid
    code := tr.code
    flags := tr.flags
    dataSize := tr.dataSize
    transactionId := ctx.ktime
    chunkIndex := UInt64.ofNat i
    cookie := 0
    toPid := 0
    toUid := 0
    targetRef := tr.target
    pairId := if ctx.reply then (ctx.transactionStack.map fun t => t.debugId.toInt64.toUInt64).getD 0 else 0
    chunkData := overwrite slot
      (probeReadUser ctx.userMemory (chunkAddress tr.buffer i) (probeReadSize tr.dataSize i)) }

/-- The chunk loop from chunk `i` on, for `fuel` more rounds. It ends after the last chunk, and
where a reservation fails. -/
def chunkLoop (ctx : ProbeContext) (tr : BinderTransactionData) : Nat → Nat → List BinderTraceEvent
  | 0, _ => []
  | fuel + 1, i =>
    if (totalChunks tr.dataSize).toNat ≤ i then []
    else
      match ctx.chunkSlot i with
      | none => []
      | some slot => chunkRecord ctx tr i slot :: chunkLoop ctx tr fuel (i + 1)

/-- `ustack_depth`: the number of frames captured, or -1. -/
def ustackDepth (uret : Int) : Int16 := if uret < 0 then -1 else Int16.ofInt (uret / 8)

/-- The stack record, if its slot could be reserved. -/
def stackRecord (ctx : ProbeContext) : Option StackTraceEvent :=
  ctx.stackSlot.map fun slot =>
    { transactionId := ctx.ktime, pid := ctx.currentPid, tid := ctx.currentTid, kstackDepth := 0,
      ustackDepth := ustackDepth slot.uret
      kstack := slot.kstack, ustack := slot.ustack }

/-- The uid the configured one is compared with: the caller's, on a reply that of the request. -/
def effectiveUid (ctx : ProbeContext) : UInt32 :=
  if ctx.reply then (ctx.transactionStack.map InReplyTo.senderEuid).getD 0 else ctx.currentUid

/-- `kprobe_binder_transaction`. -/
def kprobeBinderTransaction (ctx : ProbeContext) : ProbeResult :=
  match ctx.config, ctx.tr with
  | some uid, some tr =>
    if uid ≠ 0 ∧ uid ≠ effectiveUid ctx then {}
    else
      let tidToTxid := if ctx.reply then none else some (ctx.currentTid, ctx.ktime)
      if maxChunks < (totalChunks tr.dataSize).toNat then { tidToTxid }
      else
        { tidToTxid
          records := (stackRecord ctx).toList.map .stack ++ (chunkLoop ctx tr maxChunks 0).map .main }
  | _, _ => {}

/-! ### The chunk records of one execution -/

/-- The filters let a transaction with the data `tr` through. -/
def Traced (ctx : ProbeContext) (tr : BinderTransactionData) : Prop :=
  ctx.tr = some tr ∧ ∃ uid, ctx.config = some uid ∧ (uid = 0 ∨ uid = effectiveUid ctx)

theorem chunkRecords_append (l l' : List RingRecord) :
    chunkRecords (l ++ l') = chunkRecords l ++ chunkRecords l' :=
  List.filterMap_append

theorem chunkRecords_main (l : List BinderTraceEvent) : chunkRecords (l.map .main) = l := by
  simp [chunkRecords, List.filterMap_map]

theorem chunkRecords_stack (l : List StackTraceEvent) : chunkRecords (l.map .stack) = [] := by
  simp [chunkRecords, List.filterMap_map]

/-- The chunk records come from the chunk loop, which runs for sizes up to the limit. -/
theorem chunkRecords_kprobe {ctx : ProbeContext} {tr : BinderTransactionData} (h : Traced ctx tr) :
    chunkRecords (kprobeBinderTransaction ctx).records =
      if maxChunks < (totalChunks tr.dataSize).toNat then [] else chunkLoop ctx tr maxChunks 0 := by
  obtain ⟨htr, uid, hconfig, huid⟩ := h
  have hpass : ¬ (uid ≠ 0 ∧ uid ≠ effectiveUid ctx) := by
    rintro ⟨h0, heff⟩
    exact huid.elim h0 heff
  simp only [kprobeBinderTransaction, hconfig, htr, if_neg hpass]
  split
  · rfl
  · rw [chunkRecords_append, chunkRecords_stack, chunkRecords_main, List.nil_append]

/-- An execution that writes a chunk record passed the filters. -/
theorem traced_of_chunkRecords {ctx : ProbeContext} {tr : BinderTransactionData}
    (htr : ctx.tr = some tr) (h : chunkRecords (kprobeBinderTransaction ctx).records ≠ []) :
    Traced ctx tr := by
  refine ⟨htr, ?_⟩
  cases hconfig : ctx.config with
  | none => simp [kprobeBinderTransaction, hconfig, chunkRecords] at h
  | some uid =>
    refine ⟨uid, rfl, ?_⟩
    by_contra hnot
    push Not at hnot
    simp [kprobeBinderTransaction, hconfig, htr, hnot, chunkRecords] at h

/-- On a request the program leaves its id for the thread, or nothing. -/
theorem kprobe_tidToTxid (ctx : ProbeContext) (hreply : ctx.reply = false) :
    (kprobeBinderTransaction ctx).tidToTxid = none ∨
      (kprobeBinderTransaction ctx).tidToTxid = some (ctx.currentTid, ctx.ktime) := by
  rw [kprobeBinderTransaction]
  split
  · split
    · exact .inl rfl
    · right
      simp only [hreply, Bool.false_eq_true, if_false]
      split <;> rfl
  · exact .inl rfl

/-- The program writes chunk records, and stack records with the name of the transaction. -/
theorem kprobe_records {ctx : ProbeContext} {r : RingRecord} (h : r ∈ (kprobeBinderTransaction ctx).records) :
    (∃ e, r = .stack e ∧ e.transactionId = ctx.ktime) ∨ ∃ e, r = .main e := by
  rw [kprobeBinderTransaction] at h
  split at h
  · split at h
    · cases h
    dsimp only at h
    generalize (if ctx.reply = true then none else some (ctx.currentTid, ctx.ktime)) = tidToTxid at h
    split at h
    · cases h
    rcases List.mem_append.1 h with h | h
    · obtain ⟨e, he, rfl⟩ := List.mem_map.1 h
      rw [stackRecord, Option.toList_map, List.mem_map] at he
      obtain ⟨slot, -, rfl⟩ := he
      exact .inl ⟨_, rfl, rfl⟩
    · obtain ⟨e, -, rfl⟩ := List.mem_map.1 h
      exact .inr ⟨e, rfl⟩
  · cases h

/-- Every record of the loop is the one of a chunk below the count. -/
theorem mem_chunkLoop {ctx : ProbeContext} {tr : BinderTransactionData} {fuel i : Nat}
    {e : BinderTraceEvent} (h : e ∈ chunkLoop ctx tr fuel i) :
    ∃ j slot, i ≤ j ∧ j < i + fuel ∧ j < (totalChunks tr.dataSize).toNat ∧
      ctx.chunkSlot j = some slot ∧ e = chunkRecord ctx tr j slot := by
  induction fuel generalizing i with
  | zero => cases h
  | succ fuel ih =>
    unfold chunkLoop at h
    split at h
    · cases h
    split at h
    · cases h
    next hlt slot hslot =>
      rcases List.mem_cons.1 h with rfl | h
      · exact ⟨i, slot, Nat.le_refl i, by omega, by omega, hslot, rfl⟩
      · obtain ⟨j, slot', hij, hj, hcount, hslot', he⟩ := ih h
        exact ⟨j, slot', by omega, by omega, hcount, hslot', he⟩

/-- When no reservation fails, the loop writes the record of every chunk, in order. -/
theorem chunkLoop_eq {ctx : ProbeContext} {tr : BinderTransactionData} {slot : Nat → ChunkData}
    (hslot : ∀ j, j < maxChunks → ctx.chunkSlot j = some (slot j)) {fuel i : Nat}
    (hfuel : i + fuel ≤ maxChunks) :
    chunkLoop ctx tr fuel i =
      (List.range' i (min fuel ((totalChunks tr.dataSize).toNat - i))).map fun j =>
        chunkRecord ctx tr j (slot j) := by
  induction fuel generalizing i with
  | zero => simp [chunkLoop]
  | succ fuel ih =>
    unfold chunkLoop
    by_cases hi : (totalChunks tr.dataSize).toNat ≤ i
    · simp [hi, Nat.sub_eq_zero_of_le hi]
    · have hlen : min (fuel + 1) ((totalChunks tr.dataSize).toNat - i) =
          min fuel ((totalChunks tr.dataSize).toNat - (i + 1)) + 1 := by omega
      rw [if_neg hi, hslot i (by omega), hlen, List.range'_succ, List.map_cons, ih (by omega)]

/-- The loop writes a record exactly when there is a chunk and its reservation succeeds. -/
theorem chunkLoop_ne_nil {ctx : ProbeContext} {tr : BinderTransactionData} :
    chunkLoop ctx tr maxChunks 0 ≠ [] ↔
      0 < (totalChunks tr.dataSize).toNat ∧ ctx.chunkSlot 0 ≠ none := by
  change chunkLoop ctx tr (15 + 1) 0 ≠ [] ↔ _
  unfold chunkLoop
  by_cases hcount : (totalChunks tr.dataSize).toNat ≤ 0
  · simp [hcount]
  · cases hslot : ctx.chunkSlot 0 with
    | none => simp
    | some slot => simp [hcount]; omega

end BinderTracer.Kernel
