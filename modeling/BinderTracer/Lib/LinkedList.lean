import Mathlib.Data.List.Nodup
import Mathlib.Data.List.Perm.Basic
import Mathlib.Algebra.Order.Ring.Nat

/-!
# Doubly linked lists with element handles

A list whose elements are addressed by the handle that `pushFront` returned, as a program does
that keeps pointers into the list. The handle of an element is the number of elements allocated
before it, so a removed element's handle is never given out again and removing it a second time
does nothing.
-/

namespace BinderTracer.Lib

/-- The elements, front first, each with its handle. -/
structure LinkedList (α : Type) where
  elems : List (Nat × α) := []
  /-- The next handle to give out. -/
  next : Nat := 0
  distinct : (elems.map Prod.fst).Nodup := by simp
  fresh : ∀ e ∈ elems, e.1 < next := by simp

namespace LinkedList

variable {α : Type}

def len (l : LinkedList α) : Nat := l.elems.length

/-- The last element, if there is one. -/
def back (l : LinkedList α) : Option (Nat × α) := l.elems.getLast?

/-- Insert at the front; the new element's handle is `l.next`. -/
def pushFront (l : LinkedList α) (a : α) : LinkedList α where
  elems := (l.next, a) :: l.elems
  next := l.next + 1
  distinct := by
    refine List.nodup_cons.2 ⟨?_, l.distinct⟩
    intro hmem
    obtain ⟨e, he, heq⟩ := List.mem_map.1 hmem
    exact absurd (l.fresh e he) (by simp [heq])
  fresh := by
    intro e he
    rcases List.mem_cons.1 he with rfl | he
    · exact Nat.lt_succ_self _
    · exact Nat.lt_succ_of_lt (l.fresh e he)

/-- Remove the element with handle `h`; nothing happens if it is no longer in the list. -/
def remove (l : LinkedList α) (h : Nat) : LinkedList α where
  elems := l.elems.filter fun e => e.1 != h
  next := l.next
  distinct := (List.filter_sublist.map Prod.fst).nodup l.distinct
  fresh := fun e he => l.fresh e (List.mem_of_mem_filter he)

/-- The elements with the one of handle `h`, if it is there, at the front. -/
def toFront (h : Nat) (es : List (Nat × α)) : List (Nat × α) :=
  es.filter (fun e => e.1 == h) ++ es.filter fun e => e.1 != h

theorem toFront_perm (h : Nat) (es : List (Nat × α)) : (toFront h es).Perm es := by
  simpa [toFront, bne] using List.filter_append_perm (fun e : Nat × α => e.1 == h) es

/-- Move the element with handle `h` to the front, if it is in the list. -/
def moveToFront (l : LinkedList α) (h : Nat) : LinkedList α where
  elems := toFront h l.elems
  next := l.next
  distinct := ((toFront_perm h l.elems).map Prod.fst).nodup_iff.2 l.distinct
  fresh := fun e he => l.fresh e ((toFront_perm h l.elems).subset he)

/-- Removing the element found at handle `h` removes that element only. -/
theorem elems_remove {l : LinkedList α} {h : Nat} {a : α} (hmem : (h, a) ∈ l.elems) :
    l.elems.Perm ((h, a) :: (l.remove h).elems) := by
  obtain ⟨xs, ys, hl⟩ := List.append_of_mem hmem
  have hd : ((xs ++ (h, a) :: ys).map Prod.fst).Nodup := hl ▸ l.distinct
  rw [List.map_append, List.map_cons, List.nodup_middle, List.nodup_cons] at hd
  have hkeep : ∀ e ∈ xs ++ ys, (e.1 != h) = true := by
    intro e he
    rw [bne_iff_ne]
    intro heq
    rw [← List.map_append] at hd
    exact hd.1 (List.mem_map.2 ⟨e, he, heq⟩)
  have hrest : (l.remove h).elems = xs ++ ys := by
    change l.elems.filter _ = _
    rw [hl, List.filter_append, List.filter_cons_of_neg (by simp), ← List.filter_append]
    exact List.filter_eq_self.2 hkeep
  rw [hrest, hl]
  exact List.perm_middle

/-- An empty list has no last element. -/
theorem back_eq_none {l : LinkedList α} (h : l.back = none) : l.len = 0 := by
  simpa [len, back, List.getLast?_eq_none_iff] using h

theorem back_mem {l : LinkedList α} {e : Nat × α} (h : l.back = some e) : e ∈ l.elems :=
  List.mem_of_getLast? h

end LinkedList

end BinderTracer.Lib
