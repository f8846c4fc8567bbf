import BinderTracer.Daemon.ChunkAgreement

/-!
# The chunk records of one transaction

A `Shipment` is what a transaction's chunk records have in common and the chunk each of them carries.
While some of them have arrived the collector's buffer is determined by which ones (`buffer`), and
`handleEvent_record` says what the arrival of one more does: it fills its slot, and the last one
passes the parcel to `routeMainEvent`.
-/

namespace BinderTracer.Daemon

open BinderTracer.Kernel BinderTracer.Lib

/-- The chunk records of a transaction whose size is in the supported range. -/
structure Shipment where
  /-- The metadata that every record repeats. -/
  template : BinderTraceEvent
  chunk : Nat → ChunkData
  nonempty : 1 ≤ template.dataSize.toNat
  fits : template.dataSize.toNat ≤ maxChunks * chunkSize

namespace Shipment

variable (s : Shipment)

def txid : UInt64 := s.template.transactionId

/-- The number of records. -/
def count : Nat := (totalChunks s.template.dataSize).toNat

/-- The record of chunk `i`. -/
def record (i : Nat) : BinderTraceEvent :=
  { s.template with chunkIndex := UInt64.ofNat i, chunkData := s.chunk i }

/-- The chunk table after the chunks `got` have arrived. -/
def table (got : List Nat) : List (Option ChunkData) :=
  (List.range s.count).map fun i => if i ∈ got then some (s.chunk i) else none

/-- All chunks have arrived. -/
def Complete (got : List Nat) : Prop := ∀ i < s.count, i ∈ got

instance (got : List Nat) : Decidable (s.Complete got) :=
  inferInstanceAs (Decidable (∀ i < s.count, i ∈ got))

/-- The buffer of the transaction after the chunks `got` have arrived. -/
def buffer (got : List Nat) (firstSeenNs : Int) (cookie : UInt64) : TxBuffer :=
  { firstSeenNs, chunks := s.table got, txMeta := { TxMeta.ofRecord s.template with cookie } }

/-- The chunks, one after another. -/
def bytes : Bytes := (List.range s.count).flatMap fun i => (s.chunk i).toList

/-- The parcel the chunks carry. -/
def parcel : Bytes := s.bytes.take s.template.dataSize.toNat

/-- The event made from the chunks. -/
def event (ref : Nat) (nowNs : Int) (stackTrace : Option StackTrace) : MainEvent :=
  { ref, transactionId := s.txid
    payload := (TxMeta.ofRecord s.template).toPayload nowNs s.parcel stackTrace }

theorem count_eq : s.count = (s.template.dataSize.toNat + 1023) / 1024 := by
  have hn := s.nonempty
  have hf : s.template.dataSize.toNat ≤ 16384 := s.fits
  rw [count, toNat_totalChunks]
  omega

theorem count_pos : 0 < s.count := by
  have hn := s.nonempty
  rw [count_eq]
  omega

theorem not_complete_nil : ¬ s.Complete [] :=
  fun h => nomatch h 0 s.count_pos

theorem count_le : s.count ≤ maxChunks := (totalChunks_of_le s.fits).2

@[simp] theorem length_table (got : List Nat) : (s.table got).length = s.count := by
  simp [table]

theorem table_nil : s.table [] = List.replicate s.count none := by
  simp [table, List.map_const']

/-- The table changes in one slot when a chunk arrives. -/
theorem table_set {i : Nat} (got : List Nat) :
    (s.table got).set i (some (s.chunk i)) = s.table (i :: got) := by
  apply List.ext_getElem
  · simp
  · intro j hj _
    rw [List.getElem_set]
    by_cases hij : i = j
    · simp [table, hij]
    · simp [table, hij, Ne.symm hij]

theorem table_complete (got : List Nat) :
    (s.table got).all Option.isSome = decide (s.Complete got) := by
  rw [Bool.eq_iff_iff, decide_eq_true_iff, List.all_eq_true, table, List.forall_mem_map]
  refine forall_congr' fun i => ?_
  rw [List.mem_range]
  by_cases hi : i ∈ got <;> simp [hi]

/-! The order in which the chunks arrived does not matter. -/

theorem table_congr {got got' : List Nat} (h : ∀ i, i ∈ got ↔ i ∈ got') : s.table got = s.table got' := by
  simp only [table, h]

theorem buffer_congr {got got' : List Nat} (h : ∀ i, i ∈ got ↔ i ∈ got') (firstSeenNs : Int)
    (cookie : UInt64) : s.buffer got firstSeenNs cookie = s.buffer got' firstSeenNs cookie := by
  simp only [buffer, s.table_congr h]

theorem complete_congr {got got' : List Nat} (h : ∀ i, i ∈ got ↔ i ∈ got') :
    s.Complete got ↔ s.Complete got' := by
  simp only [Complete, h]

theorem mergeChunks_table {got : List Nat} (h : s.Complete got) : mergeChunks (s.table got) = s.bytes := by
  rw [mergeChunks, table, List.flatMap_map, bytes]
  refine List.flatMap_congr fun i hi => ?_
  rw [if_pos (h i (List.mem_range.1 hi))]

theorem length_bytes : s.bytes.length = s.count * chunkSize := by
  simp [bytes, List.length_flatMap, List.map_const']

theorem dataSize_le_length : s.template.dataSize.toNat ≤ s.bytes.length := by
  rw [length_bytes, count_eq]
  change _ ≤ _ * 1024
  omega

end Shipment

/-- The chunk records that the kernel program writes for a parcel, the slots holding `slot`. -/
def kernelShipment (ctx : ProbeContext) (tr : BinderTransactionData) (slot : Nat → ChunkData)
    (nonempty : 1 ≤ tr.dataSize.toNat) (fits : tr.dataSize.toNat ≤ maxChunks * chunkSize) : Shipment where
  template := chunkRecord ctx tr 0 (slot 0)
  chunk := fun i => (chunkRecord ctx tr i (slot i)).chunkData
  nonempty := nonempty
  fits := fits

/-- Small 64-bit words are the same as signed integers. -/
theorem toInt_toInt64 {x : UInt64} (h : x.toNat < 2 ^ 63) : x.toInt64.toInt = x.toNat := by
  change x.toBitVec.toInt = x.toNat
  rw [BitVec.toInt_eq_toNat_of_lt]
  · rfl
  · change 2 * x.toNat < 2 ^ 64
    omega

theorem storeChunk_record (s : Shipment) (got : List Nat) {i : Nat} (hi : i < s.count) :
    storeChunk (s.table got) (s.record i) = .ok (s.table (i :: got)) := by
  have hlt : i < 2 ^ 63 := (hi.trans_le s.count_le).trans (by decide)
  have hidx : (s.record i).chunkIndex.toNat = i := by
    change (UInt64.ofNat i).toNat = i
    rw [UInt64.toNat_ofNat']
    omega
  have hint : (s.record i).chunkIndex.toInt64.toInt < (s.table got).length := by
    rw [toInt_toInt64 (by omega), hidx, Shipment.length_table]
    omega
  rw [storeChunk, if_pos hint, if_pos (by rw [hidx, Shipment.length_table]; exact hi), hidx]
  exact congrArg Except.ok (s.table_set got)

namespace EventCollector

/-- Closing the buffer of a complete shipment routes the event of its parcel. -/
def routeShipment (c : EventCollector) (env : EventEnv) (s : Shipment) (cookie : UInt64) : EventCollector :=
  let merged := (c.closeBuffer s.txid).mergePendingStack s.txid env.symbolizeStackEvent
  merged.1.routeMainEvent (s.event merged.1.routed.length env.nowNs merged.2) cookie s.txid env.nowNs

theorem completeBuffer_shipment (c : EventCollector) (env : EventEnv) (s : Shipment) {got : List Nat}
    (hgot : s.Complete got) (firstSeenNs : Int) (cookie : UInt64) :
    c.completeBuffer env s.txid (s.buffer got firstSeenNs cookie) = .ok (c.routeShipment env s cookie) := by
  have hlen := s.length_bytes
  have hpos := s.count_pos
  have hcount : s.count * 1024 ≤ 16 * 1024 := Nat.mul_le_mul_right _ s.count_le
  have hsize := s.dataSize_le_length
  have hnonempty := s.nonempty
  have hint : s.template.dataSize.toInt64.toInt = s.template.dataSize.toNat :=
    toInt_toInt64 (s.fits.trans_lt (by decide))
  have hzero : s.template.dataSize ≠ 0 := by
    intro h0
    rw [h0] at hnonempty
    exact absurd hnonempty (by decide)
  have hlow : ¬ (s.bytes.length ≤ 16 ∨ s.bytes.length > chunkSize * maxChunks) := by
    rw [hlen]
    change ¬ (s.count * 1024 ≤ 16 ∨ s.count * 1024 > 1024 * 16)
    omega
  have hvalid : ¬ (s.template.dataSize = 0 ∨ s.template.dataSize.toInt64.toInt > s.bytes.length) := by
    rintro (h0 | hgt)
    · exact hzero h0
    · rw [hint] at hgt
      omega
  simp only [completeBuffer, Shipment.buffer, s.mergeChunks_table hgot, TxMeta.ofRecord]
  rw [if_neg hlow, if_neg hvalid, if_neg (by omega)]
  rfl

/-- **One more chunk**: the buffer gains it, or is closed because it was the last one missing. -/
theorem handleEvent_record {c c₁ : EventCollector} {env : EventEnv} {s : Shipment} {i : Nat}
    {got : List Nat} {firstSeenNs : Int} {cookie : UInt64} (hi : i < s.count)
    (hopen : c.openBuffer env (s.record i) = .ok (c₁, s.buffer got firstSeenNs cookie)) :
    let stored := c₁.putBuffer s.txid (s.buffer (i :: got) firstSeenNs cookie)
    c.handleEvent env (s.record i) = .ok
      (if s.Complete (i :: got) then (stored.routeShipment env s cookie).maybeCleanup env
        else stored.maybeCleanup env) := by
  have hstore : storeChunk (s.buffer got firstSeenNs cookie).chunks (s.record i) =
      .ok (s.table (i :: got)) := storeChunk_record s got hi
  simp only [handleEvent, hopen, hstore, bind, Except.bind, s.table_complete, decide_eq_true_eq]
  by_cases hdone : s.Complete (i :: got)
  · rw [if_pos hdone, if_pos hdone]
    have hclose := completeBuffer_shipment
      (c₁.putBuffer s.txid (s.buffer (i :: got) firstSeenNs cookie)) env s hdone firstSeenNs cookie
    exact congrArg (fun x => x.bind fun c => .ok (c.maybeCleanup env)) hclose
  · rw [if_neg hdone, if_neg hdone]
    rfl

/-- A transaction whose buffer is open keeps it. -/
theorem openBuffer_some {c : EventCollector} {event : BinderTraceEvent} {buf : TxBuffer} (env : EventEnv)
    (h : c.transactionBuffers.lookup event.transactionId = some buf) :
    c.openBuffer env event = .ok (c, buf) := by
  simp [openBuffer, h]

/-- The first chunk opens a buffer, with the cookie that was kept for the transaction. -/
theorem openBuffer_none {c : EventCollector} {s : Shipment} (i : Nat) (env : EventEnv)
    (h : c.transactionBuffers.lookup s.txid = none) (hcookie : s.template.cookie = 0) :
    c.openBuffer env (s.record i) = .ok
      ({ c with pendingCookieByTxid := c.pendingCookieByTxid.drop s.txid },
        s.buffer [] env.nowNs ((c.pendingCookieByTxid.lookup s.txid).elim 0 PendingCookieEntry.cookie)) := by
  have hmake : makeChunks env.room (totalChunks s.template.dataSize) = .ok (s.table []) := by
    have hfits : (totalChunks s.template.dataSize).toNat ≤ env.room.slots := s.count_le.trans env.room.enough
    rw [makeChunks, if_pos hfits, s.table_nil]
    rfl
  have hmake' : makeChunks env.room (totalChunks (s.record i).dataSize) = .ok (s.table []) := hmake
  have h' : c.transactionBuffers.lookup (s.record i).transactionId = none := h
  simp only [openBuffer, h', hmake', bind, Except.bind]
  rw [if_pos (show (s.record i).cookie = 0 from hcookie)]
  refine congrArg Except.ok ?_
  change c.claimCookie s.txid _ = _
  unfold claimCookie
  cases hparked : c.pendingCookieByTxid.lookup s.txid with
  | some pe => rfl
  | none =>
    rw [LruMap.drop_of_lookup_none hparked]
    simp [Shipment.buffer, Shipment.record, TxMeta.ofRecord, hcookie]

end EventCollector

end BinderTracer.Daemon
