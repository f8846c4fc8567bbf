import Mathlib.Algebra.BigOperators.Intervals
import Mathlib.Algebra.Order.BigOperators.Group.Finset

/-!
# Counters that are split over cells

A count is split over `n` cells that only grow, each on its own, and is read by adding up the cells one after
another while they go on growing. The cells are read at different times, so the sum need not be a value that the
count ever had; it lies between the count at the beginning of the reading and the one at its end
(`Between.bounds`).
-/

namespace BinderTracer.Lib.SplitCounter

/-- The count that `n` cells hold together. -/
def total (cells : Nat → Nat) (n : Nat) : Nat := ∑ i ∈ Finset.range n, cells i

theorem le_total (cells : Nat → Nat) {n i : Nat} (hi : i < n) : cells i ≤ total cells n :=
  Finset.single_le_sum (f := cells) (fun _ _ => Nat.zero_le _) (Finset.mem_range.2 hi)

theorem total_mono {cells grown : Nat → Nat} (h : ∀ i, cells i ≤ grown i) (n : Nat) : total cells n ≤ total grown n :=
  Finset.sum_le_sum fun i _ => h i

/-- One of the cells counts. -/
theorem total_count {cells grown : Nat → Nat} {n k : Nat} (hk : k < n) (hcounted : grown k = cells k + 1)
    (hothers : ∀ i, i ≠ k → grown i = cells i) : total grown n = total cells n + 1 := by
  have hmem : k ∈ Finset.range n := Finset.mem_range.2 hk
  rw [total, total, ← Finset.add_sum_erase _ _ hmem, ← Finset.add_sum_erase _ _ hmem, hcounted,
    Finset.sum_congr rfl fun i hi => hothers i (Finset.ne_of_mem_erase hi)]
  exact Nat.add_right_comm _ _ _

/-- A reading under way: the cells held `begun` when it began, and the first of them had the `values` when they
were read. -/
structure Between (cells : Nat → Nat) (n begun : Nat) (values : List Nat) : Prop where
  within : values.length ≤ n
  low : begun ≤ values.sum + ∑ i ∈ Finset.Ico values.length n, cells i
  high : values.sum ≤ total cells values.length

namespace Between

variable {cells : Nat → Nat} {n begun : Nat} {values : List Nat}

theorem start (cells : Nat → Nat) (n : Nat) : Between cells n (total cells n) [] where
  within := Nat.zero_le n
  low := by
    rw [List.sum_nil, Nat.zero_add, List.length_nil, ← Finset.range_eq_Ico]
    exact le_rfl
  high := Nat.zero_le _

theorem grow (h : Between cells n begun values) {grown : Nat → Nat} (hgrown : ∀ i, cells i ≤ grown i) :
    Between grown n begun values where
  within := h.within
  low := h.low.trans (Nat.add_le_add_left (Finset.sum_le_sum fun i _ => hgrown i) _)
  high := h.high.trans (total_mono hgrown _)

theorem read (h : Between cells n begun values) (hmore : values.length < n) :
    Between cells n begun (values ++ [cells values.length]) := by
  have hlength : (values ++ [cells values.length]).length = values.length + 1 := by
    rw [List.length_append, List.length_singleton]
  have hsum : (values ++ [cells values.length]).sum = values.sum + cells values.length := by
    rw [List.sum_append, List.sum_singleton]
  refine ⟨by rw [hlength]; exact hmore, ?_, ?_⟩
  · have hlow := h.low
    rw [Finset.sum_eq_sum_Ico_succ_bot hmore] at hlow
    rw [hlength, hsum]
    omega
  · have hhigh := h.high
    rw [hlength, hsum, total, Finset.sum_range_succ]
    exact Nat.add_le_add_right hhigh _

/-- **A complete reading** is at least what the cells held when it began, and at most what they hold now. -/
theorem bounds (h : Between cells n begun values) (hall : values.length = n) :
    begun ≤ values.sum ∧ values.sum ≤ total cells n := by
  refine ⟨?_, hall ▸ h.high⟩
  have hlow := h.low
  rw [hall, Finset.Ico_self, Finset.sum_empty] at hlow
  exact hlow

end Between

end BinderTracer.Lib.SplitCounter
