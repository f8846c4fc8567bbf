import BinderTracer.Kernel.MainProbe

/-!
# Splitting a parcel into chunks

When the sender's memory holds the parcel and can be read, chunk `i` starts with the parcel's bytes
from `i * chunkSize` on; what follows them in the last chunk is left over from an earlier use of the
ring slot. Put together and cut to the data size, the chunks are the parcel.
-/

namespace BinderTracer.Kernel

/-- `bpf_probe_read_user` succeeds on every chunk of the parcel, and reads its bytes. -/
def ParcelReadable (ctx : ProbeContext) (tr : BinderTransactionData) (parcel : List UInt8) : Prop :=
  ∀ i k, k < chunkSize → i * chunkSize + k < parcel.length →
    ctx.userMemory (chunkAddress tr.buffer i + UInt64.ofNat k) = parcel[i * chunkSize + k]?

/-- The bytes of the parcel that chunk `i` carries. -/
def window (parcel : List UInt8) (i : Nat) : List UInt8 := (parcel.drop (i * chunkSize)).take chunkSize

theorem length_window (parcel : List UInt8) (i : Nat) :
    (window parcel i).length = min chunkSize (parcel.length - i * chunkSize) := by
  simp [window]

theorem mapM_some {α β : Type} {f : α → Option β} {g : α → β} {l : List α}
    (h : ∀ a ∈ l, f a = some (g a)) : l.mapM f = some (l.map g) := by
  induction l with
  | nil => rfl
  | cons a l ih =>
    rw [List.mapM_cons, h a List.mem_cons_self, ih fun b hb => h b (List.mem_cons_of_mem _ hb)]
    rfl

/-- The size read for chunk `i` is the number of parcel bytes it carries. -/
theorem probeReadSize_eq {dataSize : UInt64} {i : Nat} (hi : i * chunkSize < dataSize.toNat) :
    probeReadSize dataSize i = min chunkSize (dataSize.toNat - i * chunkSize) := by
  have hoff : (UInt64.ofNat (i * chunkSize)).toNat = i * chunkSize := by
    rw [UInt64.toNat_ofNat']
    exact Nat.mod_eq_of_lt (hi.trans dataSize.toNat_lt)
  have hsub : (dataSize - UInt64.ofNat (i * chunkSize)).toNat = dataSize.toNat - i * chunkSize := by
    rw [UInt64.toNat_sub_of_le, hoff]
    rw [UInt64.le_iff_toNat_le, hoff]
    exact hi.le
  have hsucc : (i + 1) * chunkSize = i * chunkSize + chunkSize := Nat.succ_mul i chunkSize
  unfold probeReadSize
  split
  · change min (dataSize - UInt64.ofNat (i * chunkSize)).toNat chunkSize = _
    rw [hsub, Nat.min_comm]
  · change min chunkSize chunkSize = _
    omega

/-- A readable parcel: what is read for chunk `i` are the parcel's bytes. -/
theorem probeReadUser_window {ctx : ProbeContext} {tr : BinderTransactionData} {parcel : List UInt8}
    (hread : ParcelReadable ctx tr parcel) (i : Nat) :
    probeReadUser ctx.userMemory (chunkAddress tr.buffer i)
      (min chunkSize (parcel.length - i * chunkSize)) = window parcel i := by
  have hbytes : ∀ k ∈ List.range (min chunkSize (parcel.length - i * chunkSize)),
      ctx.userMemory (chunkAddress tr.buffer i + UInt64.ofNat k) =
        some (parcel.getD (i * chunkSize + k) 0) := by
    intro k hk
    rw [List.mem_range, Nat.lt_min] at hk
    have hlt : i * chunkSize + k < parcel.length := by omega
    rw [hread i k hk.1 hlt, List.getD_eq_getElem?_getD, List.getElem?_eq_getElem hlt, Option.getD_some]
  rw [probeReadUser, mapM_some hbytes, Option.getD_some]
  apply List.ext_getElem
  · simp [length_window]
  · intro k hk _
    rw [List.length_map, List.length_range, Nat.lt_min] at hk
    have hlt : i * chunkSize + k < parcel.length := by omega
    simp [window, List.getD_eq_getElem?_getD, hlt]

theorem toList_overwrite {slot : ChunkData} {bytes : List UInt8} (h : bytes.length ≤ chunkSize) :
    (overwrite slot bytes).toList = bytes ++ slot.toList.drop bytes.length := by
  refine List.take_of_length_le ?_
  simp
  omega

/-- Chunk `i` of a readable parcel: its bytes, then the stale bytes of the slot. -/
theorem toList_chunkData {ctx : ProbeContext} {tr : BinderTransactionData} {parcel : List UInt8}
    (hsize : tr.dataSize.toNat = parcel.length) (hread : ParcelReadable ctx tr parcel) {i : Nat}
    (hi : i * chunkSize < parcel.length) (slot : ChunkData) :
    (chunkRecord ctx tr i slot).chunkData.toList =
      window parcel i ++ slot.toList.drop (window parcel i).length := by
  change (overwrite slot (probeReadUser ctx.userMemory (chunkAddress tr.buffer i)
    (probeReadSize tr.dataSize i))).toList = _
  rw [probeReadSize_eq (hsize ▸ hi), hsize, probeReadUser_window hread i]
  refine toList_overwrite ?_
  rw [length_window]
  exact Nat.min_le_left _ _

/-- Full chunks, one after another, are the front of the parcel. -/
theorem flatMap_window (parcel : List UInt8) (m : Nat) :
    (List.range m).flatMap (window parcel) = parcel.take (m * chunkSize) := by
  induction m with
  | zero => simp
  | succ m ih =>
    rw [List.range_succ, List.flatMap_append, ih, List.flatMap_singleton, window, Nat.succ_mul,
      List.take_add]

/-- **Splitting loses nothing**: the chunks of a readable parcel, put together and cut to the data
size, are the parcel, whatever the slots held before. -/
theorem take_chunks {ctx : ProbeContext} {tr : BinderTransactionData} {parcel : List UInt8}
    (hsize : tr.dataSize.toNat = parcel.length) (hread : ParcelReadable ctx tr parcel) (slot : Nat → ChunkData)
    {n : Nat} (hlast : n * chunkSize < parcel.length) (hend : parcel.length ≤ (n + 1) * chunkSize) :
    ((List.range (n + 1)).flatMap fun i => (chunkRecord ctx tr i (slot i)).chunkData.toList).take
      parcel.length = parcel := by
  have hfull : ∀ i ∈ List.range n,
      (chunkRecord ctx tr i (slot i)).chunkData.toList = window parcel i := by
    intro i hi
    have hin : (i + 1) * chunkSize ≤ n * chunkSize := Nat.mul_le_mul_right _ (List.mem_range.1 hi)
    rw [Nat.succ_mul] at hin
    have hnil : (slot i).toList.drop (window parcel i).length = [] := by
      apply List.drop_eq_nil_of_le
      rw [length_window, List.Vector.toList_length]
      omega
    have hi' : i * chunkSize < parcel.length := by omega
    rw [toList_chunkData hsize hread hi', hnil, List.append_nil]
  have hrest : parcel.take (n * chunkSize) ++ window parcel n = parcel := by
    rw [window, List.take_of_length_le (i := chunkSize), List.take_append_drop]
    rw [List.length_drop, Nat.succ_mul] at *
    omega
  rw [List.range_succ, List.flatMap_append, List.flatMap_congr hfull, flatMap_window,
    List.flatMap_singleton, toList_chunkData hsize hread hlast, ← List.append_assoc, hrest,
    List.take_left']
  rfl

end BinderTracer.Kernel
