import BinderTracer.Daemon.HandleEvent
import BinderTracer.Kernel.MainProbe
import Mathlib.Data.UInt

/-!
# How many chunks a transaction has

Both sides divide the data size by the chunk size, rounding up, in 64 bits; the kernel program then
keeps the low 32 bits of the quotient and checks those against the limit. A size of `2 ^ 42` or more
can therefore pass the check with a remainder that looks like a small parcel, and the daemon opens a
table for the full quotient, whose chunks never come.
-/

namespace BinderTracer.Daemon

open BinderTracer.Kernel

theorem toNat_totalChunks (d : UInt64) : (totalChunks d).toNat = (d.toNat + 1023) % 2 ^ 64 / 1024 := by
  have hd := d.toNat_lt
  simp only [totalChunks, UInt64.toNat_div, UInt64.toNat_sub, UInt64.toNat_add, UInt64.reduceToNat]
  omega

theorem toNat_kernel_totalChunks (d : UInt64) :
    (Kernel.totalChunks d).toNat = (totalChunks d).toNat % 2 ^ 32 :=
  UInt64.toNat_toUInt32 _

/-- The kernel and the daemon agree on the chunks of a transaction. -/
structure ChunksAgree (ctx : ProbeContext) (tr : BinderTransactionData) : Prop where
  /-- The two counts are the same. -/
  count : (totalChunks tr.dataSize).toNat = (Kernel.totalChunks tr.dataSize).toNat
  /-- The table that the daemon allocates is small. -/
  table : ∀ room, ∃ chunks, makeChunks room (totalChunks tr.dataSize) = .ok chunks ∧ chunks.length ≤ maxChunks
  /-- Every record is for a slot of the table, and unless a reservation fails every slot gets one. -/
  slots : ∀ e ∈ chunkRecords (kprobeBinderTransaction ctx).records,
    e.chunkIndex.toNat < (totalChunks tr.dataSize).toNat
  filled : (∀ i, i < maxChunks → ctx.chunkSlot i ≠ none) →
    (chunkRecords (kprobeBinderTransaction ctx).records).map (fun e => e.chunkIndex.toNat) =
      List.range (totalChunks tr.dataSize).toNat

/-- A size of at most 16 chunks has the same count on both sides. -/
theorem totalChunks_of_le {d : UInt64} (h : d.toNat ≤ maxChunks * chunkSize) :
    (totalChunks d).toNat = (Kernel.totalChunks d).toNat ∧ (totalChunks d).toNat ≤ maxChunks := by
  rw [toNat_kernel_totalChunks, toNat_totalChunks]
  have hlimit : maxChunks = 16 ∧ maxChunks * chunkSize = 16384 := ⟨rfl, rfl⟩
  omega

/-- The chunk index of a record is the number of the chunk. -/
theorem toNat_chunkIndex {ctx : ProbeContext} {tr : BinderTransactionData} {i : Nat} {slot : ChunkData}
    (h : i < maxChunks) : (chunkRecord ctx tr i slot).chunkIndex.toNat = i := by
  change (UInt64.ofNat i).toNat = i
  rw [UInt64.toNat_ofNat']
  exact Nat.mod_eq_of_lt (h.trans (by decide))

theorem chunksAgree_of_le {ctx : ProbeContext} {tr : BinderTransactionData} (htraced : Traced ctx tr)
    (h : tr.dataSize.toNat ≤ maxChunks * chunkSize) : ChunksAgree ctx tr := by
  obtain ⟨hcount, hmax⟩ := totalChunks_of_le h
  have hrecords := chunkRecords_kprobe htraced
  rw [if_neg (by omega)] at hrecords
  refine ⟨hcount, fun room => ⟨_, if_pos (hmax.trans room.enough), by simpa using hmax⟩, ?_, ?_⟩
  · intro e he
    rw [hrecords] at he
    obtain ⟨j, slot, -, hj, hlt, -, rfl⟩ := mem_chunkLoop he
    rw [toNat_chunkIndex (by omega)]
    omega
  · intro hslots
    have hslot : ∀ j, j < maxChunks →
        ctx.chunkSlot j = some ((ctx.chunkSlot j).getD (List.Vector.replicate _ 0)) := by
      intro j hj
      obtain ⟨slot, hslot⟩ := Option.ne_none_iff_exists'.1 (hslots j hj)
      rw [hslot, Option.getD_some]
    rw [hrecords, chunkLoop_eq hslot (Nat.le_refl _), List.map_map, Nat.sub_zero, ← hcount,
      Nat.min_eq_right hmax, ← List.range_eq_range']
    refine (List.map_congr_left fun j hj => ?_).trans (List.map_id _)
    exact toNat_chunkIndex ((List.mem_range.1 hj).trans_le hmax)

/-- An execution that writes a chunk record found the count, cut to 32 bits, within the limit. -/
theorem count_of_chunkRecords {ctx : ProbeContext} {tr : BinderTransactionData} (htraced : Traced ctx tr)
    (hemits : chunkRecords (kprobeBinderTransaction ctx).records ≠ []) :
    1 ≤ (tr.dataSize.toNat + 1023) % 2 ^ 64 / 1024 % 2 ^ 32 ∧
      (tr.dataSize.toNat + 1023) % 2 ^ 64 / 1024 % 2 ^ 32 ≤ maxChunks := by
  rw [← toNat_totalChunks, ← toNat_kernel_totalChunks]
  rw [chunkRecords_kprobe htraced] at hemits
  split at hemits
  · exact absurd rfl hemits
  · next hmax => exact ⟨(chunkLoop_ne_nil.1 hemits).1, Nat.not_lt.1 hmax⟩

/-- **Chunk counts agree** on a transaction of which the kernel program writes at least one chunk
record if and only if its size is not one whose quotient is cut: `2 ^ 42` or more, with a remainder
modulo `2 ^ 42` that fits in 16 chunks. -/
theorem chunksAgree_iff {ctx : ProbeContext} {tr : BinderTransactionData} (htr : ctx.tr = some tr)
    (hemits : chunkRecords (kprobeBinderTransaction ctx).records ≠ []) :
    ChunksAgree ctx tr ↔
      ¬ (2 ^ 42 ≤ tr.dataSize.toNat ∧ 1 ≤ tr.dataSize.toNat % 2 ^ 42 ∧
        tr.dataSize.toNat % 2 ^ 42 ≤ maxChunks * chunkSize) := by
  have htraced := traced_of_chunkRecords htr hemits
  have hcut := count_of_chunkRecords htraced hemits
  have hd := tr.dataSize.toNat_lt
  have hlimit : maxChunks = 16 ∧ maxChunks * chunkSize = 16384 := ⟨rfl, rfl⟩
  constructor
  · rintro ⟨hcount, -, -, -⟩ ⟨hlarge, -, -⟩
    rw [toNat_kernel_totalChunks, toNat_totalChunks] at hcount
    omega
  · intro hnot
    exact chunksAgree_of_le htraced (by omega)

/-- The data of a transaction of `dataSize` bytes. -/
def sampleData (dataSize : UInt64) : BinderTransactionData :=
  { code := 1, flags := 0, dataSize, target := 0, buffer := 0x10000 }

/-- A request of `dataSize` bytes, all zero, that is traced and for which the ring has room. -/
def sampleContext (dataSize : UInt64) : ProbeContext :=
  { config := some 0, reply := false, tr := some (sampleData dataSize), transactionStack := none,
    currentUid := 10000, currentPid := 100, currentTid := 101, ktime := 1, contextName := some 98,
    userMemory := fun _ => some 0, stackSlot := none,
    chunkSlot := fun _ => some (List.Vector.replicate _ 0) }

/-- A parcel of 20 bytes: one chunk on both sides. -/
theorem chunksAgree_twentyBytes :
    chunkRecords (kprobeBinderTransaction (sampleContext 20)).records ≠ [] ∧
      ChunksAgree (sampleContext 20) (sampleData 20) := by
  have hemits : chunkRecords (kprobeBinderTransaction (sampleContext 20)).records ≠ [] := by
    decide +kernel
  exact ⟨hemits, (chunksAgree_iff rfl hemits).2 (by decide)⟩

/-- A size of `2 ^ 42 + 1` bytes: the kernel writes one chunk, and the daemon waits for more than
`2 ^ 32` of them. -/
theorem cutQuotient_disagrees :
    chunkRecords (kprobeBinderTransaction (sampleContext (2 ^ 42 + 1))).records ≠ [] ∧
      (Kernel.totalChunks (2 ^ 42 + 1)).toNat = 1 ∧ (totalChunks (2 ^ 42 + 1)).toNat = 2 ^ 32 + 1 ∧
      ¬ ChunksAgree (sampleContext (2 ^ 42 + 1)) (sampleData (2 ^ 42 + 1)) := by
  refine ⟨by decide +kernel, by decide, by decide, fun h => ?_⟩
  exact absurd h.count (by decide)

end BinderTracer.Daemon
