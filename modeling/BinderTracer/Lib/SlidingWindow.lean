import BinderTracer.Lib.Table
import Mathlib.Data.List.DropRight

/-!
# Sliding windows

A window over a growing sequence holds the last entries of it, oldest first, with an index by key. Entries are taken
out at the front, while there are too many (`trimFront`) or to make room for one more (`makeRoom`). The index finds
what a scan of the window finds (`Indexes`), and a scan of the window that is backed by one of the whole sequence is a
scan of the whole sequence as long as at most one entry is looked for (`find?_rtake_or`).
-/

namespace BinderTracer.Lib

section
variable {K α : Type} [DecidableEq K]

/-- Take entries out at the front, and out of the index, until there is room for one more. -/
def makeRoom (key : α → K) (capacity : Nat) : List α → Table K α → List α × Table K α
  | [], index => ([], index)
  | x :: rest, index =>
    if capacity ≤ rest.length + 1 then makeRoom key capacity rest (index.erase (key x)) else (x :: rest, index)

/-- What is left when there is room. -/
theorem makeRoom_fst (key : α → K) {capacity : Nat} (hcap : 0 < capacity) (entries : List α) (index : Table K α) :
    (makeRoom key capacity entries index).1 = entries.rtake (capacity - 1) := by
  induction entries generalizing index with
  | nil => rw [List.rtake_nil, makeRoom]
  | cons x rest ih =>
    rw [makeRoom]
    split
    case isTrue hfull =>
      rw [ih, List.rtake, List.rtake, List.length_cons,
        show rest.length + 1 - (capacity - 1) = rest.length - (capacity - 1) + 1 by omega, List.drop_succ_cons]
    case isFalse hroom =>
      rw [List.rtake, List.length_cons, show rest.length + 1 - (capacity - 1) = 0 by omega, List.drop_zero]

/-- Take entries out at the front, and out of the index, while there are too many: what was taken out, and what is
left. -/
def trimFront (key : α → K) (tooMany : Nat → Bool) : List α → Table K α → List α × List α × Table K α
  | [], index => ([], [], index)
  | x :: rest, index =>
    if tooMany (rest.length + 1) then
      let (out, left, index) := trimFront key tooMany rest (index.erase (key x))
      (x :: out, left, index)
    else ([], x :: rest, index)

/-- Making room for one more is to take out while there is none. -/
theorem trimFront_snd (key : α → K) (capacity : Nat) (entries : List α) (index : Table K α) :
    (trimFront key (fun n => capacity ≤ n) entries index).2 = makeRoom key capacity entries index := by
  induction entries generalizing index with
  | nil => rfl
  | cons x rest ih =>
    rw [trimFront, makeRoom]
    by_cases hfull : capacity ≤ rest.length + 1
    · rw [if_pos (decide_eq_true hfull), if_pos hfull]
      exact ih (index.erase (key x))
    · rw [if_neg (by simpa using hfull), if_neg hfull]

/-- Nothing is lost. -/
theorem trimFront_append (key : α → K) (tooMany : Nat → Bool) (entries : List α) (index : Table K α) :
    (trimFront key tooMany entries index).1 ++ (trimFront key tooMany entries index).2.1 = entries := by
  induction entries generalizing index with
  | nil => rfl
  | cons x rest ih =>
    rw [trimFront]
    split
    · exact congrArg (List.cons x) (ih _)
    · rfl

/-- What is left is not too much, if anything is left. -/
theorem trimFront_length (key : α → K) (tooMany : Nat → Bool) (entries : List α) (index : Table K α) :
    (trimFront key tooMany entries index).2.1 = [] ∨
      tooMany (trimFront key tooMany entries index).2.1.length = false := by
  induction entries generalizing index with
  | nil => exact .inl rfl
  | cons x rest ih =>
    rw [trimFront]
    split
    · exact ih _
    · next hfew => exact .inr (Bool.eq_false_iff.2 hfew)

/-- The index finds what a scan finds. -/
def Indexes (key : α → K) (index : Table K α) (entries : List α) : Prop :=
  ∀ k, index.lookup k = entries.find? fun x => key x = k

theorem indexes_empty (key : α → K) : Indexes key ∅ [] := fun _ => rfl

variable {key : α → K} {index : Table K α}

/-- The oldest entry is taken out. -/
theorem Indexes.tail {x : α} {rest : List α} (h : Indexes key index (x :: rest))
    (hx : ∀ y ∈ rest, key x ≠ key y) : Indexes key (index.erase (key x)) rest := by
  intro k
  by_cases hk : k = key x
  · subst hk
    rw [AList.lookup_erase, eq_comm, List.find?_eq_none]
    intro y hy
    simpa using (hx y hy).symm
  · rw [AList.lookup_erase_ne hk, h k, List.find?_cons_of_neg]
    simpa using Ne.symm hk

theorem Indexes.trimFront {tooMany : Nat → Bool} {entries : List α} (h : Indexes key index entries)
    (hkeys : entries.Pairwise fun x y => key x ≠ key y) :
    Indexes key (trimFront key tooMany entries index).2.2 (Lib.trimFront key tooMany entries index).2.1 := by
  induction entries generalizing index with
  | nil => exact h
  | cons x rest ih =>
    obtain ⟨hx, hrest⟩ := List.pairwise_cons.1 hkeys
    rw [Lib.trimFront]
    split
    · exact ih (h.tail hx) hrest
    · exact h

theorem Indexes.makeRoom {capacity : Nat} {entries : List α} (h : Indexes key index entries)
    (hkeys : entries.Pairwise fun x y => key x ≠ key y) :
    Indexes key (makeRoom key capacity entries index).2 (Lib.makeRoom key capacity entries index).1 := by
  rw [← trimFront_snd]
  exact h.trimFront hkeys

/-- Where the keys are distinct, the index has an entry under its key exactly if it is there. -/
theorem Indexes.lookup_eq_some {entries : List α} (h : Indexes key index entries)
    (hkeys : entries.Pairwise fun x y => key x ≠ key y) {k : K} {x : α} :
    index.lookup k = some x ↔ x ∈ entries ∧ key x = k := by
  rw [h k]
  constructor
  · intro hfound
    have hkey := List.find?_some hfound
    exact ⟨List.mem_of_find?_eq_some hfound, by simpa using hkey⟩
  · rintro ⟨hx, rfl⟩
    obtain ⟨before, after, rfl⟩ := List.append_of_mem hx
    refine List.find?_eq_some_iff_append.2 ⟨decide_eq_true rfl, before, after, rfl, fun y hy => ?_⟩
    have hne := (List.pairwise_append.1 hkeys).2.2 y hy x List.mem_cons_self
    rw [Bool.not_eq_true', decide_eq_false_iff_not]
    exact hne

/-- An entry with a new key is added at the end. -/
theorem Indexes.snoc {entries : List α} (h : Indexes key index entries) {x : α}
    (hx : ∀ y ∈ entries, key y ≠ key x) : Indexes key (index.insert (key x) x) (entries ++ [x]) := by
  intro k
  rw [List.find?_append]
  by_cases hk : k = key x
  · subst hk
    have hnone : entries.find? (fun y => key y = key x) = none := by
      rw [List.find?_eq_none]
      intro y hy
      simpa using hx y hy
    simp [AList.lookup_insert, hnone]
  · have hlast : [x].find? (fun y => key y = k) = none := by simpa using Ne.symm hk
    rw [AList.lookup_insert_ne hk, h k, hlast, Option.or_none]

end

section
variable {α : Type} {p : α → Bool} {entries : List α}

theorem rtake_sublist (entries : List α) (n : Nat) : (entries.rtake n).Sublist entries := List.drop_sublist _ _

theorem rtake_rtake (entries : List α) {m n : Nat} (h : m ≤ n) : (entries.rtake n).rtake m = entries.rtake m := by
  simp only [List.rtake_eq_reverse_take_reverse, List.reverse_reverse, List.take_take, Nat.min_eq_left h]

/-- Where at most one entry is looked for, it does not matter that the last entries are searched first. -/
theorem find?_rtake_or (hone : entries.Pairwise fun x y => ¬ (p x = true ∧ p y = true)) (n : Nat) :
    ((entries.rtake n).find? p).or (entries.find? p) = entries.find? p := by
  cases hfound : (entries.rtake n).find? p with
  | none => rfl
  | some x =>
    have hsplit : entries.take (entries.length - n) ++ entries.rtake n = entries := List.take_append_drop _ _
    rw [← hsplit] at hone
    obtain ⟨-, -, hcross⟩ := List.pairwise_append.1 hone
    have hbefore : (entries.take (entries.length - n)).find? p = none := by
      rw [List.find?_eq_none]
      intro y hy hpy
      exact hcross y hy x (List.mem_of_find?_eq_some hfound) ⟨hpy, List.find?_some hfound⟩
    rw [← congrArg (List.find? p) hsplit, List.find?_append, hbefore, hfound]
    rfl

end

end BinderTracer.Lib
