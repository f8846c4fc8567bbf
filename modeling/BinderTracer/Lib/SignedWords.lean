import Mathlib.Data.Nat.Notation
import Mathlib.Algebra.Order.Ring.Nat

/-!
# Signed arithmetic

When sums and differences of `Int32` that denote natural numbers are those of the numbers, and what
becomes of a sum that is too large.
-/

namespace BinderTracer.Lib

section
variable {a b : Int32} {m n : Nat} (ha : a.toInt = m) (hb : b.toInt = n)
include ha hb

theorem toInt_add_of_lt (h : m + n < 2 ^ 31) : (a + b).toInt = (m + n : Nat) := by
  rw [Int32.toInt_add, ha, hb]
  apply Int.bmod_eq_of_le <;> omega

theorem toInt_sub_of_le (h : n ≤ m) : (a - b).toInt = (m - n : Nat) := by
  have hm := a.toInt_lt
  rw [Int32.toInt_sub, ha, hb, Int.ofNat_sub h]
  apply Int.bmod_eq_of_le <;> omega

/-- A sum that is too large wraps around to a negative number. -/
theorem toInt_add_of_overflow (h : 2 ^ 31 ≤ m + n) : (a + b).toInt = (m + n : Nat) - 2 ^ 32 := by
  have hm := a.toInt_lt
  have hn := b.toInt_lt
  rw [Int32.toInt_add, ha, hb, ← Int.sub_bmod_right]
  apply Int.bmod_eq_of_le <;> omega

theorem lt_iff_of_toInt : a < b ↔ m < n := by
  rw [Int32.lt_iff_toInt_lt, ha, hb, Int.ofNat_lt]

end

theorem toInt_sub_of_nonneg {a b : Int64} (ha : 0 ≤ a) (hb : 0 ≤ b) : (a - b).toInt = a.toInt - b.toInt := by
  rw [Int64.le_iff_toInt_le, Int64.toInt_zero] at ha hb
  have hlta := a.toInt_lt
  have hltb := b.toInt_lt
  rw [Int64.toInt_sub]
  apply Int.bmod_eq_of_le <;> omega

/-- The value of an unsigned word that is read as a signed one. -/
theorem toInt_toInt32 (u : UInt32) :
    u.toInt32.toInt = if u.toNat < 2 ^ 31 then (u.toNat : Int) else (u.toNat : Int) - 2 ^ 32 := by
  rw [← Int32.toInt_toBitVec, UInt32.toBitVec_toInt32, BitVec.toInt_eq_toNat_cond]
  have hu := u.toNat_lt
  simp only [UInt32.toNat_toBitVec]
  split <;> split <;> omega

theorem toInt_toInt32_of_lt {u : UInt32} (h : u.toNat < 2 ^ 31) : u.toInt32.toInt = u.toNat := by
  rw [toInt_toInt32, if_pos h]

/-- A word that is sign extended and masked is its unsigned value again. -/
theorem toInt_mask_toInt64 (u : UInt32) :
    (u.toInt32.toInt64 &&& 0xFFFFFFFF).toInt = u.toNat := by
  have hmask : (u.toInt32.toInt64 &&& 0xFFFFFFFF).toBitVec = u.toBitVec.setWidth 64 := by
    apply BitVec.eq_of_getElem_eq
    intro i hi
    have hones : (0xFFFFFFFF : Int64).toBitVec = (BitVec.allOnes 32).setWidth 64 := by decide
    simp only [Int64.toBitVec_and, hones, BitVec.getElem_and, Int32.toBitVec_toInt64,
      UInt32.toBitVec_toInt32, BitVec.getElem_signExtend, BitVec.getElem_setWidth, BitVec.getLsbD_allOnes]
    split <;> simp_all [BitVec.getLsbD_of_ge]
  have hu := u.toNat_lt
  rw [← Int64.toInt_toBitVec, hmask, BitVec.toInt_eq_toNat_of_lt] <;>
    simp only [BitVec.toNat_setWidth, UInt32.toNat_toBitVec] <;> omega

end BinderTracer.Lib
