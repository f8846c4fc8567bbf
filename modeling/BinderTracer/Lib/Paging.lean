import Mathlib.Data.List.Basic

/-!
# Paging by key

Rows are kept in decreasing order of a key. A page holds the first rows below a cursor; if it is full, the
key of its last row is the next cursor. Following the cursors from the start gives all rows, once each and
in order.
-/

namespace BinderTracer.Lib

/-- Some rows, and where to go on, if anywhere. -/
structure Page (α K : Type) where
  items : List α
  nextCursor : Option K

/-- The rows that are collected by following the cursors, in at most `fuel` pages. -/
def follow {α K : Type} (query : Option K → Page α K) : Nat → Option K → Option (List α)
  | 0, _ => none
  | fuel + 1, cursor =>
    let page := query cursor
    match page.nextCursor with
    | none => some page.items
    | some next => (follow query fuel (some next)).map (page.items ++ ·)

/-- Following the cursors comes to an end with the rows `all`. -/
def Collects {α K : Type} (query : Option K → Page α K) (all : List α) : Prop :=
  ∃ fuel, follow query fuel none = some all

section
variable {α K : Type} {query : Option K → Page α K}

/-- More pages change nothing once the end is reached. -/
theorem follow_succ {fuel : Nat} {cursor : Option K} {all : List α} (h : follow query fuel cursor = some all) :
    follow query (fuel + 1) cursor = some all := by
  induction fuel generalizing cursor all with
  | zero => exact nomatch h
  | succ fuel ih =>
    rw [follow] at h ⊢
    cases hnext : (query cursor).nextCursor with
    | none =>
      simp only [hnext] at h ⊢
      exact h
    | some next =>
      simp only [hnext] at h ⊢
      obtain ⟨rest, hrest, hall⟩ := Option.map_eq_some_iff.1 h
      rw [ih hrest, Option.map_some, hall]

theorem follow_mono {fuel fuel' : Nat} {cursor : Option K} {all : List α}
    (h : follow query fuel cursor = some all) (hle : fuel ≤ fuel') : follow query fuel' cursor = some all := by
  induction hle with
  | refl => exact h
  | step _ ih => exact follow_succ ih

/-- What is collected is determined. -/
theorem Collects.unique {all all' : List α} (h : Collects query all) (h' : Collects query all') : all = all' := by
  obtain ⟨fuel, h⟩ := h
  obtain ⟨fuel', h'⟩ := h'
  have hmax := follow_mono h (Nat.le_max_left fuel fuel')
  have hmax' := follow_mono h' (Nat.le_max_right fuel fuel')
  exact Option.some.inj (hmax.symm.trans hmax')

end

section
variable {α K : Type} [LT K] [DecidableLT K] (key : α → K)

/-- The rows below a cursor. -/
def rowsBelow (cursor : Option K) (rows : List α) : List α :=
  match cursor with
  | none => rows
  | some k => rows.filter fun r => key r < k

/-- The page below a cursor. -/
def pageBelow (size : Nat) (rows : List α) (cursor : Option K) : Page α K :=
  let items := (rowsBelow key cursor rows).take size
  { items, nextCursor := if items.length < size then none else items.getLast?.map key }

variable [Std.Asymm fun a b : K => a < b] {key}

/-- In decreasing order, the rows below one of the keys are those after it. -/
theorem filter_lt_key {before : List α} {r : α} {after : List α}
    (h : (before ++ r :: after).Pairwise fun a b => key b < key a) :
    (before ++ r :: after).filter (fun r' => key r' < key r) = after := by
  have hasymm : ∀ {a b : K}, a < b → ¬b < a := fun {a b} => Std.Asymm.asymm a b
  obtain ⟨-, hrest, hcross⟩ := List.pairwise_append.1 h
  have hafter := (List.pairwise_cons.1 hrest).1
  rw [List.filter_append, List.filter_eq_nil_iff.2, List.nil_append, List.filter_cons_of_neg,
    List.filter_eq_self.2]
  · exact fun a ha => decide_eq_true (hafter a ha)
  · exact fun hlt => hasymm (of_decide_eq_true hlt) (of_decide_eq_true hlt)
  · exact fun a ha hlt => hasymm (hcross a ha r List.mem_cons_self) (of_decide_eq_true hlt)

/-- A page that is full ends with the row before the next ones. -/
theorem exists_last_of_full {rows before left : List α} {size : Nat} (hsize : 1 ≤ size)
    (h : rows.Pairwise fun a b => key b < key a) (hrows : rows = before ++ left) (hfull : size ≤ left.length) :
    ∃ r, (left.take size).getLast? = some r ∧ rowsBelow key (some (key r)) rows = left.drop size := by
  have hne : left.take size ≠ [] := by
    rw [← List.length_pos_iff, List.length_take]
    omega
  refine ⟨(left.take size).getLast hne, List.getLast?_eq_some_getLast hne, ?_⟩
  have hsplit : rows = (before ++ (left.take size).dropLast) ++ (left.take size).getLast hne :: left.drop size := by
    rw [hrows, List.append_assoc]
    congr 1
    calc left = left.take size ++ left.drop size := (List.take_append_drop size left).symm
      _ = (left.take size).dropLast ++ [(left.take size).getLast hne] ++ left.drop size := by
        rw [List.dropLast_append_getLast hne]
      _ = _ := by rw [List.append_assoc, List.singleton_append]
  rw [hsplit] at h
  rw [rowsBelow, hsplit]
  exact filter_lt_key h

/-- What is left at a cursor is a suffix of the rows, and each page makes it shorter. -/
theorem follow_pageBelow {rows : List α} {size : Nat} (hsize : 1 ≤ size)
    (h : rows.Pairwise fun a b => key b < key a) (fuel : Nat) (cursor : Option K) (before : List α)
    (hrows : rows = before ++ rowsBelow key cursor rows) (hfuel : (rowsBelow key cursor rows).length < fuel) :
    follow (pageBelow key size rows) fuel cursor = some (rowsBelow key cursor rows) := by
  induction fuel generalizing cursor before with
  | zero => exact absurd hfuel (Nat.not_lt_zero _)
  | succ fuel ih =>
    rw [follow, pageBelow]
    generalize hleft : rowsBelow key cursor rows = left at hrows hfuel
    by_cases hfull : size ≤ left.length
    · obtain ⟨r, hlast, hbelow⟩ := exists_last_of_full hsize h hrows hfull
      have htake : ¬(left.take size).length < size := by
        rw [List.length_take]
        omega
      have hrest := ih (some (key r)) (before ++ left.take size)
        (by rw [hbelow, List.append_assoc, List.take_append_drop, hrows])
        (by rw [hbelow, List.length_drop]; omega)
      simp only [if_neg htake, hlast, Option.map_some]
      rw [hrest, hbelow, Option.map_some, List.take_append_drop]
    · have htake : (left.take size).length < size := by
        rw [List.length_take]
        omega
      simp only [if_pos htake]
      rw [List.take_of_length_le (by omega)]

/-- **Following the cursors collects the rows.** -/
theorem collects_pageBelow {rows : List α} {size : Nat} (hsize : 1 ≤ size)
    (h : rows.Pairwise fun a b => key b < key a) : Collects (pageBelow key size rows) rows :=
  ⟨rows.length + 1, follow_pageBelow hsize h _ none [] rfl (Nat.lt_succ_self _)⟩

end

/-! ### On the way

A reader that has got so far: what it has read is the beginning of the rows, and its cursor is the key of the last
row that it has read, or there is nothing left. -/

section
variable {α K : Type} {key : α → K} {rows items : List α}

/-- The rows read so far, and the cursor to go on with. -/
def ReadSoFar (key : α → K) (rows items : List α) (cursor : Option K) : Prop :=
  ∃ rest, rows = items ++ rest ∧ (cursor = none → rest = []) ∧
    ∀ k, cursor = some k → items.getLast?.map key = some k

/-- A page of what is left is the next part of it. -/
theorem readSoFar_page {before left : List α} {size : Nat} (hsize : 1 ≤ size) (hrows : rows = before ++ left) :
    ReadSoFar key rows (before ++ left.take size)
      (if (left.take size).length < size then none else (left.take size).getLast?.map key) := by
  refine ⟨left.drop size, by rw [List.append_assoc, List.take_append_drop, hrows], fun hnone => ?_, fun k hk => ?_⟩
  · split at hnone
    · next hshort =>
      rw [List.length_take] at hshort
      exact List.drop_eq_nil_of_le (by omega)
    · next hfull =>
      rw [List.length_take] at hfull
      rw [Option.map_eq_none_iff, List.getLast?_eq_none_iff, List.take_eq_nil_iff] at hnone
      rcases hnone with hzero | hnil
      · omega
      · rw [hnil, List.drop_nil]
  · split at hk
    · cases hk
    · rw [List.getLast?_append, Option.map_or, hk, Option.some_or]

/-- The cursor is the key of a row that has been read. -/
theorem ReadSoFar.mem {k : K} (h : ReadSoFar key rows items (some k)) :
    ∃ r ∈ rows, key r = k := by
  obtain ⟨rest, rfl, -, hlast⟩ := h
  obtain ⟨r, hr, hk⟩ := Option.map_eq_some_iff.1 (hlast k rfl)
  exact ⟨r, List.mem_append_left _ (List.mem_of_getLast? hr), hk⟩

variable [LT K] [DecidableLT K]

theorem readSoFar_first {size : Nat} (hsize : 1 ≤ size) (rows : List α) :
    ReadSoFar key rows (pageBelow key size rows none).items (pageBelow key size rows none).nextCursor :=
  readSoFar_page hsize (List.nil_append rows).symm

/-- Rows that are not below the cursor do not matter. -/
theorem pageBelow_append {new : List α} {k : K} (hnew : ∀ r ∈ new, ¬ key r < k) (size : Nat) (rows : List α) :
    pageBelow key size (new ++ rows) (some k) = pageBelow key size rows (some k) := by
  have hnone : new.filter (fun r => decide (key r < k)) = [] :=
    List.filter_eq_nil_iff.2 fun r hr hlt => hnew r hr (of_decide_eq_true hlt)
  rw [pageBelow, pageBelow, rowsBelow, rowsBelow, List.filter_append, hnone, List.nil_append]

/-- **The next page goes on where the last one has ended.** -/
theorem ReadSoFar.next [Std.Asymm fun a b : K => a < b] {k : K} (h : ReadSoFar key rows items (some k)) {size : Nat}
    (hsize : 1 ≤ size) (hsorted : rows.Pairwise fun a b => key b < key a) :
    ReadSoFar key rows (items ++ (pageBelow key size rows (some k)).items)
      (pageBelow key size rows (some k)).nextCursor := by
  obtain ⟨rest, hrows, -, hlast⟩ := h
  obtain ⟨r, hr, rfl⟩ := Option.map_eq_some_iff.1 (hlast k rfl)
  obtain ⟨front, rfl⟩ := List.getLast?_eq_some_iff.1 hr
  have hleft : rowsBelow key (some (key r)) rows = rest := by
    rw [List.append_assoc, List.singleton_append] at hrows
    rw [hrows] at hsorted
    rw [rowsBelow, hrows]
    exact filter_lt_key hsorted
  rw [pageBelow, hleft]
  exact readSoFar_page hsize hrows

end

end BinderTracer.Lib
