import Mathlib.Data.List.AList
import Mathlib.Data.List.Sort
import Mathlib.Algebra.Order.Ring.Nat

/-!
# Finite maps

A finite map is Mathlib's `AList` with a constant value type. What is added here is what a program
does with one while it iterates: keep the entries that satisfy a test (`retain`), and account for
the values held (`values`), up to permutation since the order of iteration is not specified.
-/

/-- A finite map from `K` to `V`: an association list without duplicate keys. -/
abbrev BinderTracer.Lib.Table (K V : Type) := AList (fun _ : K => V)

namespace AList

open BinderTracer.Lib

variable {K V : Type}

/-- The values held, one for each key. -/
def values (m : Table K V) : List V := m.entries.map Sigma.snd

/-- The number of keys. -/
def size (m : Table K V) : Nat := m.entries.length

/-- Keep the entries whose value satisfies `p`. -/
def retain (p : V → Bool) (m : Table K V) : Table K V where
  entries := m.entries.filter fun e => p e.2
  nodupKeys := (List.filter_sublist.map Sigma.fst).nodup m.nodupKeys

/-- The same keys with other values. -/
def mapValues {W : Type} (f : V → W) (m : Table K V) : Table K W where
  entries := m.entries.map fun e => ⟨e.1, f e.2⟩
  nodupKeys := by
    have hkeys : (m.entries.map fun e => (⟨e.1, f e.2⟩ : Sigma fun _ : K => W)).keys = m.entries.keys := by
      rw [List.keys, List.map_map]
      rfl
    rw [List.NodupKeys, hkeys]
    exact m.nodupKeys

theorem keys_mapValues {W : Type} (f : V → W) (m : Table K V) : (m.mapValues f).keys = m.keys :=
  List.map_map

@[simp] theorem size_mapValues {W : Type} (f : V → W) (m : Table K V) : (m.mapValues f).size = m.size :=
  List.length_map _

@[simp] theorem size_empty : (∅ : Table K V).size = 0 := rfl

theorem length_values (m : Table K V) : m.values.length = m.size := by
  simp [values, size]

@[simp] theorem values_retain (p : V → Bool) (m : Table K V) :
    (m.retain p).values = m.values.filter p := by
  simp only [values, retain, List.filter_map]
  rfl

variable [DecidableEq K]

theorem mem_entries_iff {m : Table K V} {k : K} {v : V} :
    (⟨k, v⟩ : Sigma fun _ : K => V) ∈ m.entries ↔ m.lookup k = some v :=
  (AList.mem_lookup_iff (s := m)).symm

theorem mem_values_iff {m : Table K V} {v : V} : v ∈ m.values ↔ ∃ k, m.lookup k = some v := by
  simp only [values, List.mem_map]
  constructor
  · rintro ⟨⟨k, w⟩, hmem, rfl⟩
    exact ⟨k, mem_entries_iff.1 hmem⟩
  · rintro ⟨k, hk⟩
    exact ⟨⟨k, v⟩, mem_entries_iff.2 hk, rfl⟩

@[simp] theorem lookup_mapValues {W : Type} (f : V → W) (m : Table K V) (k : K) :
    (m.mapValues f).lookup k = (m.lookup k).map f := by
  apply Option.ext
  intro w
  rw [← mem_entries_iff, mapValues, List.mem_map, Option.map_eq_some_iff]
  constructor
  · rintro ⟨⟨k', v⟩, hmem, heq⟩
    cases heq
    exact ⟨v, mem_entries_iff.1 hmem, rfl⟩
  · rintro ⟨v, hv, rfl⟩
    exact ⟨⟨k, v⟩, mem_entries_iff.2 hv, rfl⟩

/-- Keeping some entries looks a key up and tests what it finds. -/
@[simp] theorem lookup_retain (p : V → Bool) (m : Table K V) (k : K) :
    (m.retain p).lookup k = (m.lookup k).filter p := by
  apply Option.ext
  intro v
  rw [← mem_entries_iff, Option.filter_eq_some_iff, ← mem_entries_iff]
  simp [retain]

/-- The keys whose values are converted, with what is made of them. -/
def filterMapValues {W : Type} (f : K → V → Option W) (m : Table K V) : Table K W where
  entries := m.entries.filterMap fun e => (f e.1 e.2).map fun w => ⟨e.1, w⟩
  nodupKeys := by
    have hsub : ∀ l : List (Sigma fun _ : K => V),
        (l.filterMap fun e => (f e.1 e.2).map fun w => (⟨e.1, w⟩ : Sigma fun _ : K => W)).keys.Sublist l.keys := by
      intro l
      induction l with
      | nil => exact .slnil
      | cons e l ih =>
        cases h : f e.1 e.2 with
        | none => simpa [h] using ih.cons e.1
        | some w => simpa [h] using ih.cons_cons e.1
    exact (hsub m.entries).nodup m.nodupKeys

@[simp] theorem lookup_filterMapValues {W : Type} (f : K → V → Option W) (m : Table K V) (k : K) :
    (m.filterMapValues f).lookup k = (m.lookup k).bind (f k) := by
  apply Option.ext
  intro w
  rw [← mem_entries_iff, filterMapValues, List.mem_filterMap, Option.bind_eq_some_iff]
  constructor
  · rintro ⟨⟨k', v⟩, hmem, heq⟩
    obtain ⟨w', hw', heq⟩ := Option.map_eq_some_iff.1 heq
    cases heq
    exact ⟨v, mem_entries_iff.1 hmem, hw'⟩
  · rintro ⟨v, hv, hw⟩
    exact ⟨⟨k, v⟩, mem_entries_iff.2 hv, by rw [hw]; rfl⟩

theorem mapValues_erase {W : Type} (f : V → W) (m : Table K V) (k : K) :
    (m.mapValues f).erase k = (m.erase k).mapValues f :=
  AList.ext (List.eraseP_map ..)

theorem mapValues_insert {W : Type} (f : V → W) (m : Table K V) (k : K) (v : V) :
    (m.insert k v).mapValues f = (m.mapValues f).insert k (f v) :=
  AList.ext (congrArg (List.cons _) (congrArg AList.entries (mapValues_erase f m k)).symm)

/-- Converting the values back gives the map. -/
theorem filterMapValues_mapValues {W : Type} {f : K → W → Option V} {g : V → W} {m : Table K V}
    (h : ∀ k v, m.lookup k = some v → f k (g v) = some v) : (m.mapValues g).filterMapValues f = m := by
  apply AList.ext
  show ((m.entries.map fun e => (⟨e.1, g e.2⟩ : Sigma fun _ : K => W)).filterMap _) = m.entries
  rw [List.filterMap_map]
  refine (List.filterMap_congr ?_).trans List.filterMap_some
  rintro ⟨k, v⟩ hmem
  simp [h k v (mem_entries_iff.1 hmem)]

/-- Keeping the entries that satisfy a test changes nothing if all do. -/
theorem retain_of_forall {p : V → Bool} {m : Table K V} (h : ∀ k v, m.lookup k = some v → p v = true) :
    m.retain p = m := by
  apply AList.ext
  refine List.filter_eq_self.2 ?_
  rintro ⟨k, v⟩ hmem
  exact h k v (mem_entries_iff.1 hmem)

/-- Taking one entry out of a map. -/
theorem entries_erase {m : Table K V} {k : K} {v : V} (h : m.lookup k = some v) :
    m.entries.Perm (⟨k, v⟩ :: (m.erase k).entries) := by
  have hmem : k ∈ m.entries.keys := AList.lookup_isSome.1 (by rw [h]; rfl)
  obtain ⟨w, l, r, _, hm, he⟩ := List.exists_of_kerase hmem
  have hw : w = v := by
    have : (⟨k, w⟩ : Sigma fun _ : K => V) ∈ m.entries := by rw [hm]; simp
    rw [mem_entries_iff, h] at this
    exact (Option.some.inj this).symm
  subst hw
  change m.entries.Perm (⟨k, w⟩ :: m.entries.kerase k)
  rw [he, hm]
  exact List.perm_middle

theorem values_erase {m : Table K V} {k : K} {v : V} (h : m.lookup k = some v) :
    m.values.Perm (v :: (m.erase k).values) := by
  have hperm := (entries_erase h).map fun e : Sigma fun _ : K => V => e.2
  exact hperm

theorem erase_of_lookup_none {m : Table K V} {k : K} (h : m.lookup k = none) : m.erase k = m := by
  apply AList.ext
  change m.entries.kerase k = m.entries
  exact List.kerase_of_notMem_keys (AList.lookup_eq_none.1 h)

/-- A map is recovered from its entries. -/
theorem toAList_entries (m : Table K V) : m.entries.toAList = m := by
  have hdedup : ∀ l : List (Sigma fun _ : K => V), l.NodupKeys → l.dedupKeys = l := by
    intro l hl
    induction l with
    | nil => rfl
    | cons e l ih =>
      obtain ⟨hnot, hrest⟩ := List.nodupKeys_cons.1 hl
      rw [List.dedupKeys_cons, ih hrest, List.kinsert_def, List.kerase_of_notMem_keys hnot]
  exact AList.ext (hdedup m.entries m.nodupKeys)

/-- Enter a key that is not there yet. -/
def putIfAbsent (m : Table K V) (e : K × V) : Table K V := if e.1 ∈ m then m else m.insert e.1 e.2

/-- Of several entries for a key, the first one counts. -/
theorem lookup_foldl_putIfAbsent (m : Table K V) (es : List (K × V)) (k : K) :
    (es.foldl putIfAbsent m).lookup k = (m.lookup k).or ((es.find? fun e => e.1 = k).map Prod.snd) := by
  induction es generalizing m with
  | nil => exact (Option.or_none).symm
  | cons e es ih =>
    rw [List.foldl_cons, ih]
    unfold putIfAbsent
    by_cases hk : e.1 = k
    · subst hk
      have hfirst : (e :: es).find? (fun x => decide (x.1 = e.1)) = some e :=
        List.find?_cons_of_pos (decide_eq_true rfl)
      rw [hfirst]
      split
      · next hmem =>
        obtain ⟨v, hv⟩ := Option.isSome_iff_exists.1 (AList.lookup_isSome.2 hmem)
        rw [hv]
        rfl
      · next hnot =>
        rw [AList.lookup_insert, AList.lookup_eq_none.2 hnot]
        rfl
    · rw [List.find?_cons_of_neg (by simpa using hk)]
      split
      · rfl
      · rw [AList.lookup_insert_ne (Ne.symm hk)]

/-! ### Eviction -/

/-- Remove all the keys of a list. -/
def eraseAll (m : Table K V) (ks : List K) : Table K V := ks.foldl (fun m k => m.erase k) m

theorem eraseAll_append (m : Table K V) (ks ks' : List K) :
    m.eraseAll (ks ++ ks') = (m.eraseAll ks).eraseAll ks' :=
  List.foldl_append

theorem lookup_eraseAll (m : Table K V) (ks : List K) (k : K) :
    (m.eraseAll ks).lookup k = if k ∈ ks then none else m.lookup k := by
  induction ks generalizing m with
  | nil => rfl
  | cons k' ks ih =>
    rw [eraseAll, List.foldl_cons, ← eraseAll, ih]
    by_cases hk : k = k'
    · subst hk
      simp
    · simp [hk, AList.lookup_erase_ne hk]

end AList

namespace BinderTracer.Lib

/-- An order in which a map hands out its entries. It is not specified, and may differ between calls. -/
structure IterationOrder (K V : Type) where
  iterate : List (Sigma fun _ : K => V) → List (Sigma fun _ : K => V)
  perm : ∀ entries, (iterate entries).Perm entries

/-- The order of entries that comes from an order of their keys. -/
def IterationOrder.ofKeys {K V : Type} [DecidableEq K] (order : List K → List K) : IterationOrder K V where
  iterate entries := entries.insertionSort fun a b =>
    (order entries.keys).idxOf a.1 ≤ (order entries.keys).idxOf b.1
  perm _ := List.perm_insertionSort _ _

theorem IterationOrder.map_fst_ofKeys {K V : Type} [DecidableEq K] {order : List K → List K}
    (hperm : ∀ keys, (order keys).Perm keys) (m : Table K V) :
    ((ofKeys order).iterate m.entries).map Sigma.fst = order m.keys := by
  have hnodup : (order m.keys).Nodup := (hperm m.keys).nodup_iff.2 m.keys_nodup
  have hsorted : (((ofKeys order).iterate m.entries).map Sigma.fst).Pairwise fun a b =>
      (order m.keys).idxOf a ≤ (order m.keys).idxOf b := by
    let r : (Sigma fun _ : K => V) → (Sigma fun _ : K => V) → Prop := fun a b =>
      (order m.keys).idxOf a.1 ≤ (order m.keys).idxOf b.1
    have : Std.Total r := ⟨fun _ _ => Nat.le_total _ _⟩
    have : IsTrans _ r := ⟨fun _ _ _ => Nat.le_trans⟩
    exact List.pairwise_map.2 (List.pairwise_insertionSort r m.entries)
  have hkeys : (order m.keys).Pairwise fun a b => (order m.keys).idxOf a ≤ (order m.keys).idxOf b := by
    refine List.pairwise_iff_getElem.2 fun i j hi hj hij => ?_
    rw [List.Nodup.idxOf_getElem hnodup, List.Nodup.idxOf_getElem hnodup]
    exact Nat.le_of_lt hij
  refine List.Perm.eq_of_pairwise ?_ hsorted hkeys ?_
  · intro a b _ hb hab hba
    exact ((List.idxOf_inj hb).1 (Nat.le_antisymm hba hab)).symm
  · exact (((ofKeys order).perm m.entries).map Sigma.fst).trans (hperm m.keys).symm

end BinderTracer.Lib

namespace AList

open BinderTracer.Lib

variable {K V A : Type} [DecidableEq K] [LE A] [DecidableLE A]

/-- If there are more than `cap` entries, remove as many as are too many, those of least `age` first;
entries of the same age go in the order of iteration. -/
def evictOldest (age : V → A) (cap : Nat) (order : IterationOrder K V) (m : Table K V) : Table K V :=
  if cap < m.size then
    let sorted := (order.iterate m.entries).insertionSort fun a b => age a.2 ≤ age b.2
    m.eraseAll ((sorted.take (m.size - cap)).map Sigma.fst)
  else m

theorem size_erase {m : Table K V} {k : K} (h : k ∈ m) : (m.erase k).size + 1 = m.size := by
  obtain ⟨v, hv⟩ := Option.isSome_iff_exists.1 (AList.lookup_isSome.2 h)
  exact (entries_erase hv).length_eq.symm

theorem size_eraseAll {m : Table K V} {ks : List K} (hks : ks.Nodup) (hm : ∀ k ∈ ks, k ∈ m) :
    (m.eraseAll ks).size + ks.length = m.size := by
  induction ks generalizing m with
  | nil => rfl
  | cons k ks ih =>
    have hrest : ∀ k' ∈ ks, k' ∈ m.erase k := by
      intro k' hk'
      refine AList.mem_erase.2 ⟨?_, hm k' (List.mem_cons_of_mem k hk')⟩
      rintro rfl
      exact (List.nodup_cons.1 hks).1 hk'
    have hsize := ih (List.nodup_cons.1 hks).2 hrest
    have hk := size_erase (hm k List.mem_cons_self)
    rw [eraseAll, List.foldl_cons, ← eraseAll, List.length_cons]
    omega

theorem size_erase_le (m : Table K V) (k : K) : (m.erase k).size ≤ m.size :=
  (List.kerase_sublist k m.entries).length_le

theorem size_le_size_erase (m : Table K V) (k : K) : m.size ≤ (m.erase k).size + 1 := by
  by_cases h : k ∈ m
  · exact (size_erase h).ge
  · rw [erase_of_lookup_none (AList.lookup_eq_none.2 h)]
    exact Nat.le_succ _

theorem size_eraseAll_le (m : Table K V) (ks : List K) : (m.eraseAll ks).size ≤ m.size := by
  induction ks generalizing m with
  | nil => exact le_rfl
  | cons k ks ih => exact (ih (m.erase k)).trans (size_erase_le m k)

/-- An eviction comes down to the capacity. -/
theorem size_evictOldest (age : V → A) (cap : Nat) (order : IterationOrder K V) (m : Table K V) :
    (m.evictOldest age cap order).size ≤ cap := by
  rw [evictOldest]
  split
  · next hcap =>
    have hperm : ((order.iterate m.entries).insertionSort fun a b => age a.2 ≤ age b.2).Perm m.entries :=
      (List.perm_insertionSort _ _).trans (order.perm m.entries)
    generalize (order.iterate m.entries).insertionSort (fun a b => age a.2 ≤ age b.2) = sorted at hperm
    have hkeys : (sorted.map Sigma.fst).Perm m.keys := hperm.map Sigma.fst
    have hsub := (List.take_sublist (m.size - cap) sorted).map Sigma.fst
    have hsize := size_eraseAll ((hkeys.nodup_iff.2 m.keys_nodup).sublist hsub)
      fun k hk => AList.mem_keys.2 (hkeys.subset (hsub.subset hk))
    rw [List.length_map, List.length_take, hperm.length_eq] at hsize
    change _ + min (m.size - cap) m.size = m.size at hsize
    dsimp only
    omega
  · omega

theorem evictOldest_of_size_le {age : V → A} {cap : Nat} {order : IterationOrder K V} {m : Table K V}
    (h : m.size ≤ cap) : m.evictOldest age cap order = m := by
  rw [evictOldest, if_neg (Nat.not_lt.2 h)]

theorem size_evictOldest_le (age : V → A) (cap : Nat) (order : IterationOrder K V) (m : Table K V) :
    (m.evictOldest age cap order).size ≤ m.size := by
  by_cases h : cap < m.size
  · exact (size_evictOldest age cap order m).trans (Nat.le_of_lt h)
  · rw [evictOldest_of_size_le (Nat.not_lt.1 h)]

/-- What an eviction leaves is unchanged. -/
theorem lookup_evictOldest (age : V → A) (cap : Nat) (order : IterationOrder K V) (m : Table K V) (k : K) :
    (m.evictOldest age cap order).lookup k = m.lookup k ∨ (m.evictOldest age cap order).lookup k = none := by
  rw [evictOldest]
  split
  · rw [lookup_eraseAll]
    split
    · exact .inr rfl
    · exact .inl rfl
  · exact .inl rfl

end AList

/-! ### Lists with keys -/

namespace BinderTracer.Lib

/-- Collecting from a list whose elements, one apart, have nothing to give. -/
theorem flatMap_eq_of_forall_ne {X Y : Type} {xs : List X} {x : X} {f : X → List Y} (nodup : xs.Nodup)
    (hx : x ∈ xs) (hothers : ∀ y ∈ xs, y ≠ x → f y = []) : xs.flatMap f = f x := by
  obtain ⟨before, after, rfl⟩ := List.append_of_mem hx
  have hnot := List.nodup_middle.1 nodup
  rw [List.nodup_cons] at hnot
  have hbefore : before.flatMap f = [] := by
    refine List.flatMap_eq_nil_iff.2 fun y hy => hothers y (List.mem_append_left _ hy) ?_
    rintro rfl
    exact hnot.1 (List.mem_append_left _ hy)
  have hafter : after.flatMap f = [] := by
    refine List.flatMap_eq_nil_iff.2 fun y hy =>
      hothers y (List.mem_append_right _ (List.mem_cons_of_mem _ hy)) ?_
    rintro rfl
    exact hnot.1 (List.mem_append_right _ hy)
  rw [List.flatMap_append, List.flatMap_cons, hbefore, hafter, List.nil_append, List.append_nil]

/-- **Matching by keys**: if every `x` finds exactly one `y` under its key, in the relation to it, and every
`y` has the key of some `x`, then the two lists correspond one to one. -/
theorem exists_matching {X Y K : Type} [DecidableEq K] {key : X → K} {key' : Y → K} {R : X → Y → Prop}
    {xs : List X} {ys : List Y} (nodup : (xs.map key).Nodup)
    (one : ∀ x ∈ xs, ∃ y, ys.filter (fun y => key' y == key x) = [y] ∧ R x y)
    (all : ∀ y ∈ ys, ∃ x ∈ xs, key x = key' y) :
    ∃ order : List X, order.Perm xs ∧ List.Forall₂ R order ys := by
  induction ys generalizing xs with
  | nil =>
    cases xs with
    | nil => exact ⟨[], .nil, .nil⟩
    | cons x xs =>
      obtain ⟨y, hy, -⟩ := one x List.mem_cons_self
      cases hy
  | cons y ys ih =>
    obtain ⟨x, hx, hkey⟩ := all y List.mem_cons_self
    obtain ⟨before, after, rfl⟩ := List.append_of_mem hx
    have hperm : (before ++ x :: after).Perm (x :: (before ++ after)) := List.perm_middle
    have hnodup := ((hperm.map key).nodup_iff).1 nodup
    rw [List.map_cons, List.nodup_cons] at hnodup
    -- the key of `y` occurs once on either side
    obtain ⟨y', hfound, hrel⟩ := one x hx
    rw [List.filter_cons, hkey, beq_self_eq_true, if_pos rfl] at hfound
    obtain ⟨rfl, hrest⟩ := List.cons.inj hfound
    have hone : ∀ x₁ ∈ before ++ after, ∃ y₁, ys.filter (fun y => key' y == key x₁) = [y₁] ∧ R x₁ y₁ := by
      intro x₁ hx₁
      obtain ⟨y₁, hfound₁, hrel₁⟩ := one x₁ (hperm.symm.subset (List.mem_cons_of_mem _ hx₁))
      have hne : key' y ≠ key x₁ := by
        rw [← hkey]
        intro heq
        exact hnodup.1 (heq ▸ List.mem_map_of_mem hx₁)
      rw [List.filter_cons, if_neg (by simpa using hne)] at hfound₁
      exact ⟨y₁, hfound₁, hrel₁⟩
    have hall : ∀ y₁ ∈ ys, ∃ x₁ ∈ before ++ after, key x₁ = key' y₁ := by
      intro y₁ hy₁
      obtain ⟨x₁, hx₁, hkey₁⟩ := all y₁ (List.mem_cons_of_mem _ hy₁)
      rcases List.mem_cons.1 (hperm.subset hx₁) with rfl | hx₁
      · have hmem : y₁ ∈ ys.filter fun z => key' z == key' y :=
          List.mem_filter.2 ⟨hy₁, by rw [← hkey₁, hkey]; exact beq_self_eq_true _⟩
        rw [hrest] at hmem
        cases hmem
      · exact ⟨x₁, hx₁, hkey₁⟩
    obtain ⟨order, horder, hmatch⟩ := ih hnodup.2 hone hall
    exact ⟨x :: order, (horder.cons x).trans hperm.symm, .cons hrel hmatch⟩

end BinderTracer.Lib

/-! ### Sets -/

namespace BinderTracer.Lib

/-- An order in which a hash set hands out its elements. It is not specified. -/
structure SetOrder (α : Type) where
  iterate : List α → List α
  perm : ∀ elems, (iterate elems).Perm elems

/-- The elements as they are listed. -/
def SetOrder.listed {α : Type} : SetOrder α where
  iterate elems := elems
  perm := List.Perm.refl

section
variable {α : Type} [DecidableEq α]

/-- Add an element to a set that is kept in the order of insertion. -/
def insertLast (xs : List α) (x : α) : List α := if x ∈ xs then xs else xs ++ [x]

def insertAllLast (xs ys : List α) : List α := ys.foldl insertLast xs

@[simp] theorem mem_insertLast {xs : List α} {x y : α} : y ∈ insertLast xs x ↔ y ∈ xs ∨ y = x := by
  rw [insertLast]
  split
  · next h => exact ⟨.inl, fun hy => hy.elim id fun heq => heq ▸ h⟩
  · rw [List.mem_append, List.mem_singleton]

theorem nodup_insertLast {xs : List α} (h : xs.Nodup) (x : α) : (insertLast xs x).Nodup := by
  rw [insertLast]
  split
  · exact h
  · next hx =>
    refine List.nodup_append.2 ⟨h, List.nodup_singleton x, ?_⟩
    rintro a ha b hb rfl
    exact hx (List.mem_singleton.1 hb ▸ ha)

@[simp] theorem mem_insertAllLast {xs ys : List α} {y : α} : y ∈ insertAllLast xs ys ↔ y ∈ xs ∨ y ∈ ys := by
  induction ys generalizing xs with
  | nil => simp [insertAllLast]
  | cons z ys ih =>
    rw [insertAllLast, List.foldl_cons, ← insertAllLast, ih, mem_insertLast, List.mem_cons, or_assoc]

theorem nodup_insertAllLast {xs : List α} (h : xs.Nodup) (ys : List α) : (insertAllLast xs ys).Nodup := by
  induction ys generalizing xs with
  | nil => exact h
  | cons y ys ih => exact ih (nodup_insertLast h y)

end

end BinderTracer.Lib
