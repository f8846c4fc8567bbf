import Mathlib.Data.List.Sort
import Mathlib.Algebra.Order.Ring.Nat

/-!
# Sorting and binary search

`search n p` is the binary search for the first position below `n` where `p` holds. Whatever `p` is, it
stops between a position where `p` fails and one where `p` holds; if `p` keeps holding once it does, the
list is cut there in two (`searchIn_before`, `searchIn_after`), and the element found is the one that a scan from
the front finds (`getElem?_searchIn`).

A sorting routine need not be stable, so of the order of its result only `SliceSort` is known.
-/

namespace BinderTracer.Lib

/-- A routine that sorts by `less`. Elements of which neither is less may come in any order. -/
structure SliceSort {α : Type} (less : α → α → Bool) where
  sort : List α → List α
  perm : ∀ xs, (sort xs).Perm xs
  ordered : ∀ xs, (sort xs).Pairwise fun a b => less b a = false

/-- Insertion sort, for an order in which any two elements compare. -/
def SliceSort.insertion {α : Type} {less : α → α → Bool}
    (total : ∀ a b, less b a = false ∨ less a b = false)
    (trans : ∀ a b c, less b a = false → less c b = false → less c a = false) : SliceSort less where
  sort := List.insertionSort fun a b => less b a = false
  perm := List.perm_insertionSort _
  ordered := by
    have : Std.Total fun a b : α => less b a = false := ⟨total⟩
    have : IsTrans α fun a b : α => less b a = false := ⟨trans⟩
    exact List.pairwise_insertionSort _

/-- The loop of the search: `p` fails before `i` and holds at `j`. -/
def searchLoop (p : Nat → Bool) (i j : Nat) : Nat :=
  if i < j then
    let h := (i + j) / 2
    if !p h then searchLoop p (h + 1) j else searchLoop p i h
  else i
termination_by j - i

/-- The first position below `n` where `p` holds, or `n`. -/
def search (n : Nat) (p : Nat → Bool) : Nat := searchLoop p 0 n

/-- The position in `xs` of the first element with `p`, by binary search. -/
def searchIn {α : Type} (p : α → Bool) (xs : List α) : Nat := search xs.length fun i => xs[i]?.any p

/-- The search returns a boundary of `p`, or an end of the range. -/
theorem searchLoop_boundary (p : Nat → Bool) (i j : Nat) (hij : i ≤ j) :
    i ≤ searchLoop p i j ∧ searchLoop p i j ≤ j ∧
      (i < searchLoop p i j → p (searchLoop p i j - 1) = false) ∧
      (searchLoop p i j < j → p (searchLoop p i j) = true) := by
  fun_induction searchLoop p i j with
  | case1 i j hlt h hfalse ih =>
    have hmid : h + 1 ≤ j := by omega
    obtain ⟨hlow, hhigh, hbefore, hat⟩ := ih hmid
    refine ⟨by omega, hhigh, ?_, hat⟩
    intro _
    rcases Nat.lt_or_ge (h + 1) (searchLoop p (h + 1) j) with hfar | hnear
    · exact hbefore hfar
    · rw [show searchLoop p (h + 1) j - 1 = h by omega]
      simpa using hfalse
  | case2 i j hlt h htrue ih =>
    have hmid : i ≤ h := by omega
    obtain ⟨hlow, hhigh, hbefore, hat⟩ := ih hmid
    refine ⟨hlow, by omega, hbefore, ?_⟩
    intro _
    rcases Nat.lt_or_ge (searchLoop p i h) h with hnear | hfar
    · exact hat hnear
    · rw [show searchLoop p i h = h by omega]
      simpa using htrue
  | case3 i j hend =>
    exact ⟨Nat.le_refl _, hij, fun h => absurd h (Nat.lt_irrefl _), fun h => absurd h hend⟩

section
variable {α : Type} {p : α → Bool} {xs : List α}

theorem searchIn_le (p : α → Bool) (xs : List α) : searchIn p xs ≤ xs.length :=
  (searchLoop_boundary _ 0 xs.length (Nat.zero_le _)).2.1

/-- There is an element just before the position found, unless that is 0. -/
theorem searchIn_pred (p : α → Bool) (xs : List α) (h : searchIn p xs ≠ 0) :
    ∃ x, xs[searchIn p xs - 1]? = some x ∧ p x = false := by
  have hle := searchIn_le p xs
  have hlt : searchIn p xs - 1 < xs.length := by omega
  have hfalse := (searchLoop_boundary _ 0 xs.length (Nat.zero_le _)).2.2.1 (Nat.pos_of_ne_zero h)
  change xs[searchIn p xs - 1]?.any p = false at hfalse
  rw [List.getElem?_eq_getElem hlt] at hfalse ⊢
  exact ⟨_, rfl, hfalse⟩

/-- Once `p` holds it keeps holding. -/
def KeepsHolding (p : α → Bool) (xs : List α) : Prop := xs.Pairwise fun a b => p a = true → p b = true

/-- `p` fails before the position found, where it keeps holding once it does. -/
theorem searchIn_before (hkeeps : KeepsHolding p xs) {i : Nat} {x : α} (hi : i < searchIn p xs)
    (hx : xs[i]? = some x) : p x = false := by
  obtain ⟨y, hy, hfalse⟩ := searchIn_pred p xs (by omega)
  rcases Nat.lt_or_ge i (searchIn p xs - 1) with hlt | hge
  · obtain ⟨hxi, hxi'⟩ := List.getElem?_eq_some_iff.1 hx
    obtain ⟨hyi, hyi'⟩ := List.getElem?_eq_some_iff.1 hy
    have hnext := List.pairwise_iff_getElem.1 hkeeps i (searchIn p xs - 1) hxi hyi hlt
    rw [hxi', hyi', hfalse] at hnext
    cases hpx : p x with
    | false => rfl
    | true => exact absurd (hnext hpx) Bool.false_ne_true
  · rw [show i = searchIn p xs - 1 by omega, hy] at hx
    cases hx
    exact hfalse

/-- And it holds from there on. -/
theorem searchIn_after (hkeeps : KeepsHolding p xs) {i : Nat} {x : α} (hi : searchIn p xs ≤ i)
    (hx : xs[i]? = some x) : p x = true := by
  obtain ⟨hxi, hxi'⟩ := List.getElem?_eq_some_iff.1 hx
  have hlt : searchIn p xs < xs.length := by omega
  have hat := (searchLoop_boundary _ 0 xs.length (Nat.zero_le _)).2.2.2 hlt
  change xs[searchIn p xs]?.any p = true at hat
  rw [List.getElem?_eq_getElem hlt, Option.any_some] at hat
  rcases Nat.lt_or_ge (searchIn p xs) i with hfar | hnear
  · have hnext := List.pairwise_iff_getElem.1 hkeeps (searchIn p xs) i hlt hxi hfar
    rw [hxi'] at hnext
    exact hnext hat
  · have heq : i = searchIn p xs := by omega
    subst heq
    rwa [hxi'] at hat

theorem searchIn_le_iff (hkeeps : KeepsHolding p xs) {i : Nat} {x : α} (hx : xs[i]? = some x) :
    searchIn p xs ≤ i ↔ p x = true := by
  refine ⟨fun hi => searchIn_after hkeeps hi hx, fun hpx => ?_⟩
  by_contra hlt
  have hfalse := searchIn_before hkeeps (Nat.lt_of_not_le hlt) hx
  exact Bool.false_ne_true (hfalse.symm.trans hpx)

/-- The search finds what a scan finds. -/
theorem getElem?_searchIn (hkeeps : KeepsHolding p xs) : xs[searchIn p xs]? = xs.find? p := by
  cases hat : xs[searchIn p xs]? with
  | none =>
    symm
    rw [List.find?_eq_none]
    intro x hx hpx
    obtain ⟨i, hi⟩ := List.getElem?_of_mem hx
    have hlt : i < searchIn p xs := (List.getElem?_eq_some_iff.1 hi).1.trans_le (List.getElem?_eq_none_iff.1 hat)
    rw [searchIn_before hkeeps hlt hi] at hpx
    cases hpx
  | some x =>
    obtain ⟨hlt, rfl⟩ := List.getElem?_eq_some_iff.1 hat
    symm
    rw [List.find?_eq_some_iff_getElem]
    refine ⟨searchIn_after hkeeps (Nat.le_refl _) hat, searchIn p xs, hlt, rfl, ?_⟩
    intro j hj
    rw [searchIn_before hkeeps hj (List.getElem?_eq_getElem (hj.trans hlt))]
    rfl

/-- In an ordered list the element just before the position found is the last one without `p`. -/
theorem eq_or_rel_pred {r : α → α → Prop} (hordered : xs.Pairwise r) (hkeeps : KeepsHolding p xs) {last x : α}
    (hlast : xs[searchIn p xs - 1]? = some last) (hx : x ∈ xs) (hpx : p x = false) :
    x = last ∨ r x last := by
  obtain ⟨i, hi⟩ := List.getElem?_of_mem hx
  have hlt : i < searchIn p xs := by
    rw [← Nat.not_le, searchIn_le_iff hkeeps hi, hpx]
    exact Bool.false_ne_true
  rcases Nat.lt_or_ge i (searchIn p xs - 1) with hfar | hnear
  · obtain ⟨hi', rfl⟩ := List.getElem?_eq_some_iff.1 hi
    obtain ⟨hlast', rfl⟩ := List.getElem?_eq_some_iff.1 hlast
    exact .inr (List.pairwise_iff_getElem.1 hordered _ _ hi' hlast' hfar)
  · rw [show i = searchIn p xs - 1 by omega, hlast] at hi
    exact .inl (Option.some.inj hi).symm

end

end BinderTracer.Lib
