import Mathlib.Data.Vector.Basic
import Mathlib.Data.List.Rotate
import Mathlib.Data.List.DropRight
import Mathlib.Data.Finset.Basic
import Mathlib.Algebra.GroupWithZero.Nat

/-!
# Rings

A ring of `n` slots is overwritten at its head, which then moves to the next slot. Its window is what it holds,
oldest first. A ring whose slots hold `blank` at first holds the last `n` entries written to it, after as many
blanks as it takes (`Holds`).
-/

namespace BinderTracer.Lib

namespace Ring

variable {α : Type} {n : Nat}

/-- What the slots hold, from the head on. -/
def window (slots : List.Vector α n) (head : Fin n) : List α := slots.toList.rotate head

theorem window_perm (slots : List.Vector α n) (head : Fin n) : (window slots head).Perm slots.toList :=
  List.rotate_perm _ _

/-- The oldest entry is the one at the head. -/
theorem window_eq_cons (slots : List.Vector α n) (head : Fin n) :
    window slots head = slots.get head :: (window slots head).tail := by
  have hlt : (head : Nat) < slots.toList.length := by
    rw [slots.toList_length]
    exact head.isLt
  rw [window, List.rotate_eq_drop_append_take hlt.le, List.drop_eq_getElem_cons hlt, List.cons_append, List.tail_cons,
    List.Vector.get_eq_get_toList]
  rfl

/-- Writing at the head takes the oldest entry out and adds one at the end. -/
theorem window_set [NeZero n] (slots : List.Vector α n) (head : Fin n) (x : α) :
    window (slots.set head x) (head + 1) = (window slots head).tail ++ [x] := by
  have hlength := slots.toList_length
  have hlt : (head : Nat) < slots.toList.length := by
    rw [hlength]
    exact head.isLt
  have hmod : window (slots.set head x) (head + 1) = (slots.set head x).toList.rotate (head + 1) := by
    have hnext : ((head + 1 : Fin n) : Nat) = (head + 1) % (slots.set head x).toList.length := by
      rw [(slots.set head x).toList_length, Fin.val_add, Fin.val_one', Nat.add_mod_mod]
    rw [window, hnext, List.rotate_mod]
  rw [hmod, List.Vector.toList_set, window, List.rotate_eq_drop_append_take hlt.le,
    List.rotate_eq_drop_append_take (by rw [List.length_set]; exact hlt), List.drop_set_of_lt (Nat.lt_succ_self _),
    List.take_succ_eq_append_getElem (by rw [List.length_set]; exact hlt), List.getElem_set_self,
    List.take_set_of_le (Nat.le_refl _), List.drop_eq_getElem_cons hlt, List.cons_append, List.tail_cons,
    List.append_assoc]

/-- The ring holds the last `n` entries, after blanks if there are fewer. -/
def Holds (blank : α) (slots : List.Vector α n) (head : Fin n) (entries : List α) : Prop :=
  window slots head = List.replicate (n - entries.length) blank ++ entries.rtake n

theorem Holds.start (blank : α) (head : Fin n) : Holds blank (List.Vector.replicate n blank) head [] := by
  rw [Holds, window, List.rtake_nil, List.append_nil]
  exact List.rotate_replicate blank n head

/-- The last entries, when one more is written. -/
theorem Holds.write [NeZero n] {blank : α} {slots : List.Vector α n} {head : Fin n} {entries : List α}
    (h : Holds blank slots head entries) (x : α) : Holds blank (slots.set head x) (head + 1) (entries ++ [x]) := by
  obtain ⟨m, rfl⟩ : ∃ m, n = m + 1 := Nat.exists_eq_succ_of_ne_zero (NeZero.ne n)
  rw [Holds, window_set, h, List.rtake_concat_succ, List.length_append, List.length_singleton]
  rcases Nat.lt_or_ge entries.length (m + 1) with hfew | hmany
  · -- a blank goes
    rw [show m + 1 - entries.length = m - entries.length + 1 by omega, List.replicate_succ, List.cons_append,
      List.tail_cons, show m + 1 - (entries.length + 1) = m - entries.length by omega, List.append_assoc]
    congr 2
    rw [List.rtake, List.rtake, show entries.length - (m + 1) = 0 by omega, show entries.length - m = 0 by omega]
  · -- the oldest entry goes
    rw [show m + 1 - entries.length = 0 by omega, show m + 1 - (entries.length + 1) = 0 by omega, List.replicate_zero,
      List.nil_append, List.nil_append, List.rtake, List.rtake, List.tail_drop,
      show entries.length - (m + 1) + 1 = entries.length - m by omega]

/-! ### With the set of what it holds -/

variable [DecidableEq α]

/-- The ring holds the last `n` entries, which are distinct and not blank, and `recent` is the set of them. -/
structure Tracks (blank : α) (slots : List.Vector α n) (head : Fin n) (recent : Finset α) (entries : List α) :
    Prop where
  holds : Holds blank slots head entries
  nonblank : blank ∉ entries
  distinct : (entries.rtake n).Nodup
  recent : recent = (entries.rtake n).toFinset

namespace Tracks

variable {blank x : α} {slots : List.Vector α n} {head : Fin n} {recent : Finset α} {entries : List α}

theorem start (blank : α) (head : Fin n) : Tracks blank (List.Vector.replicate n blank) head ∅ [] where
  holds := .start blank head
  nonblank := List.not_mem_nil
  distinct := by simp
  recent := by simp

/-- What stays of the last entries when one more is written, and the set of it. -/
theorem kept [NeZero n] (h : Tracks blank slots head recent entries) (x : α) :
    ∃ kept, (entries ++ [x]).rtake n = kept ++ [x] ∧ kept.Sublist (entries.rtake n) ∧
      (if slots.get head ≠ blank then recent.erase (slots.get head) else recent) = kept.toFinset := by
  have hwritten : (window slots head).tail ++ [x] = _ := (window_set slots head x).symm.trans (h.holds.write x)
  have hwindow := window_eq_cons slots head
  rw [h.holds] at hwindow hwritten
  rw [List.length_append, List.length_singleton] at hwritten
  rcases Nat.lt_or_ge entries.length n with hfew | hmany
  · -- a blank slot is overwritten, so all the entries stay
    rw [show n - entries.length = n - (entries.length + 1) + 1 by omega, List.replicate_succ, List.cons_append,
      List.tail_cons] at hwindow hwritten
    rw [List.append_assoc, List.append_cancel_left_eq] at hwritten
    refine ⟨entries.rtake n, hwritten.symm, List.Sublist.refl _, ?_⟩
    rw [if_neg (not_not.2 (List.cons.inj hwindow).1.symm), h.recent]
  · -- the ring has gone round: what is overwritten is an entry
    rw [show n - entries.length = 0 by omega, List.replicate_zero, List.nil_append] at hwindow hwritten
    rw [show n - (entries.length + 1) = 0 by omega, List.replicate_zero, List.nil_append] at hwritten
    have hold : slots.get head ∈ entries := by
      refine (List.drop_sublist (entries.length - n) entries).subset ?_
      rw [← List.rtake, hwindow]
      exact List.mem_cons_self
    have hdistinct := h.distinct
    rw [hwindow] at hdistinct
    refine ⟨(entries.rtake n).tail, hwritten.symm, List.tail_sublist _, ?_⟩
    rw [if_pos (ne_of_mem_of_not_mem hold h.nonblank), h.recent, hwindow, List.toFinset_cons, List.tail_cons,
      Finset.erase_insert (by simpa using (List.nodup_cons.1 hdistinct).1)]

/-- A new entry replaces the oldest one in the ring and in the set. -/
theorem write [NeZero n] (h : Tracks blank slots head recent entries) (hx : x ≠ blank) (hnew : x ∉ recent) :
    Tracks blank (slots.set head x) (head + 1)
      (insert x (if slots.get head ≠ blank then recent.erase (slots.get head) else recent)) (entries ++ [x]) := by
  obtain ⟨kept, hlast, hsub, hset⟩ := h.kept x
  have hfresh : x ∉ kept := fun hmem => hnew (by rw [h.recent]; exact List.mem_toFinset.2 (hsub.subset hmem))
  refine ⟨h.holds.write x, ?_, ?_, ?_⟩
  · rw [List.mem_append, List.mem_singleton, not_or]
    exact ⟨h.nonblank, hx.symm⟩
  · rw [hlast, List.nodup_append_comm, List.singleton_append, List.nodup_cons]
    exact ⟨hfresh, hsub.nodup h.distinct⟩
  · ext y
    rw [hlast, hset, Finset.mem_insert, List.mem_toFinset, List.mem_toFinset, List.mem_append, List.mem_singleton,
      or_comm]

/-- The slots that are not blank hold the last entries. -/
theorem filter_perm (h : Tracks blank slots head recent entries) :
    (slots.toList.filter fun s => s ≠ blank).Perm (entries.rtake n) := by
  have hperm := (window_perm slots head).symm.filter fun s => s ≠ blank
  have hentries : (entries.rtake n).filter (fun s => s ≠ blank) = entries.rtake n := by
    refine List.filter_eq_self.2 fun s hs => decide_eq_true ?_
    exact ne_of_mem_of_not_mem ((List.drop_sublist _ _).subset hs) h.nonblank
  rwa [h.holds, List.filter_append, hentries, List.filter_replicate_of_neg (by simp), List.nil_append] at hperm

end Tracks

end Ring

end BinderTracer.Lib
