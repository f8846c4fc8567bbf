import BinderTracer.Lib.LinkedList
import BinderTracer.Lib.Table

/-!
# A map with a companion list in order of use

A bounded cache as it is often written by hand: a map from keys to entries, and beside it a linked
list of the keys, most recently used first, where each entry keeps the handle of its list element.
Nothing forces the two to agree. `push` assigns the key whether or not it is present, and the old
entry's list element then stays behind; `Coherent` says that this has not happened.

What the operations do to the values held is stated up to permutation and needs no coherence;
the capacity bound does.
-/

namespace BinderTracer.Lib

/-- A map entry: the value, and the handle of the key's element in the companion list. -/
structure LruEntry (V : Type) where
  value : V
  listElem : Nat
deriving DecidableEq, Repr

/-- A map together with the list of its keys in order of use. -/
structure LruMap (K V : Type) where
  table : Table K (LruEntry V) := ∅
  lru : LinkedList K := {}

namespace LruMap

variable {K V : Type}

/-- The values held. -/
def values (m : LruMap K V) : List V := m.table.values.map LruEntry.value

/-- The number of keys in the map. -/
def size (m : LruMap K V) : Nat := m.table.size

/-- The entries of the map as list elements: the handle each one keeps, and its key. -/
def nodes (m : LruMap K V) : List (Nat × K) := m.table.entries.map fun e => (e.2.listElem, e.1)

/-- Take out the entries whose value satisfies `p`, with their list elements. -/
def sweep (p : V → Bool) (m : LruMap K V) : LruMap K V where
  table := m.table.retain fun e => !p e.value
  lru := (m.table.values.filter fun e => p e.value).foldl (fun l e => l.remove e.listElem) m.lru

/-- The values `sweep` takes out. -/
def swept (p : V → Bool) (m : LruMap K V) : List V := m.values.filter p

@[simp] theorem size_empty : ({} : LruMap K V).size = 0 := rfl

theorem length_values (m : LruMap K V) : m.values.length = m.size := by
  simp [values, size, AList.length_values]

variable [DecidableEq K]

def lookup (m : LruMap K V) (k : K) : Option V := (m.table.lookup k).map LruEntry.value

/-- `m.lru.PushFront(k)` and `m.table[k] = v`. -/
def push (m : LruMap K V) (k : K) (v : V) : LruMap K V where
  table := m.table.insert k ⟨v, m.lru.next⟩
  lru := m.lru.pushFront k

/-- Remove the list element the entry of `k` keeps, and the entry. -/
def drop (m : LruMap K V) (k : K) : LruMap K V :=
  match m.table.lookup k with
  | none => m
  | some e => { table := m.table.erase k, lru := m.lru.remove e.listElem }

/-- Give the entry of `k` a new value and move its list element to the front. -/
def touch (m : LruMap K V) (k : K) (v : V) : LruMap K V :=
  match m.table.lookup k with
  | none => m
  | some e => { table := m.table.insert k { e with value := v }, lru := m.lru.moveToFront e.listElem }

/-- One round of eviction: remove the last list element, and the map entry of its key if there
is one; that entry's value is returned. -/
def evictBack (m : LruMap K V) : LruMap K V × List V :=
  match m.lru.back with
  | none => (m, [])
  | some (h, k) =>
    ({ table := m.table.erase k, lru := m.lru.remove h }, (m.lookup k).toList)

/-- Evict until the list has at most `cap` elements, for at most `fuel` rounds. -/
def evictLoop (cap : Nat) : Nat → LruMap K V → LruMap K V × List V
  | 0, m => (m, [])
  | fuel + 1, m =>
    if m.lru.len ≤ cap then (m, [])
    else
      let (m', out) := m.evictBack
      let (m'', more) := evictLoop cap fuel m'
      (m'', out ++ more)

/-- Evict from the end of the list until it has at most `cap` elements. Each round takes one
element off the list, so its length is fuel enough. -/
def evict (cap : Nat) (m : LruMap K V) : LruMap K V × List V := evictLoop cap m.lru.len m

/-- A bounded cache's `get`: an entry that is found moves to the front. -/
def get (m : LruMap K V) (k : K) : Option V × LruMap K V :=
  match m.lookup k with
  | none => (none, m)
  | some v => (some v, m.touch k v)

/-- Give `k` a value and move it to the front. -/
def assign (m : LruMap K V) (k : K) (v : V) : LruMap K V :=
  match m.lookup k with
  | some _ => m.touch k v
  | none => m.push k v

/-- A bounded cache's `put`: a new key that is one too many puts the last one out. -/
def put (cap : Nat) (m : LruMap K V) (k : K) (v : V) : LruMap K V :=
  if (m.lookup k).isNone ∧ cap < (m.assign k v).lru.len then (m.assign k v).evictBack.1 else m.assign k v

/-- Take out the keys with `p`, with their list elements. -/
def dropKeys (p : K → Bool) (m : LruMap K V) : LruMap K V := (m.table.keys.filter p).foldl drop m

/-! ### What a key maps to -/

@[simp] theorem lookup_empty (k : K) : ({} : LruMap K V).lookup k = none := rfl

theorem lookup_push (m : LruMap K V) (k : K) (v : V) (k' : K) :
    (m.push k v).lookup k' = if k' = k then some v else m.lookup k' := by
  by_cases h : k' = k
  · subst h
    simp [lookup, push]
  · simp [lookup, push, h, AList.lookup_insert_ne h]

@[simp] theorem lookup_push_self (m : LruMap K V) (k : K) (v : V) : (m.push k v).lookup k = some v := by
  simp [lookup_push]

theorem lookup_push_ne (m : LruMap K V) {k k' : K} (v : V) (h : k' ≠ k) :
    (m.push k v).lookup k' = m.lookup k' := by
  simp [lookup_push, h]

theorem lookup_eq_none {m : LruMap K V} {k : K} : m.lookup k = none ↔ m.table.lookup k = none := by
  simp [lookup]

theorem lookup_eq_some {m : LruMap K V} {k : K} {v : V} :
    m.lookup k = some v ↔ ∃ h, m.table.lookup k = some ⟨v, h⟩ := by
  simp only [lookup, Option.map_eq_some_iff]
  constructor
  · rintro ⟨⟨w, h⟩, he, rfl⟩
    exact ⟨h, he⟩
  · rintro ⟨h, he⟩
    exact ⟨_, he, rfl⟩

theorem drop_of_lookup_none {m : LruMap K V} {k : K} (h : m.lookup k = none) : m.drop k = m := by
  simp [drop, lookup_eq_none.1 h]

theorem table_drop (m : LruMap K V) (k : K) : (m.drop k).table = m.table.erase k := by
  unfold drop
  split
  · next h => exact (AList.erase_of_lookup_none h).symm
  · rfl

theorem lookup_drop (m : LruMap K V) (k k' : K) :
    (m.drop k).lookup k' = if k' = k then none else m.lookup k' := by
  simp only [lookup, table_drop]
  by_cases h : k' = k
  · subst h
    simp
  · simp [h, AList.lookup_erase_ne h]

@[simp] theorem lookup_drop_self (m : LruMap K V) (k : K) : (m.drop k).lookup k = none := by
  simp [lookup_drop]

theorem lookup_drop_ne (m : LruMap K V) {k k' : K} (h : k' ≠ k) : (m.drop k).lookup k' = m.lookup k' := by
  simp [lookup_drop, h]

theorem lookup_foldl_drop (m : LruMap K V) (ks : List K) (k : K) :
    (ks.foldl drop m).lookup k = if k ∈ ks then none else m.lookup k := by
  induction ks generalizing m with
  | nil => simp
  | cons k' ks ih =>
    rw [List.foldl_cons, ih, lookup_drop]
    by_cases hk : k = k' <;> simp [hk]

theorem lookup_dropKeys (p : K → Bool) (m : LruMap K V) (k : K) :
    (m.dropKeys p).lookup k = if p k then none else m.lookup k := by
  rw [dropKeys, lookup_foldl_drop]
  by_cases hk : k ∈ m.table.keys
  · by_cases hp : p k <;> simp [List.mem_filter, hk, hp]
  · have hnone : m.lookup k = none := lookup_eq_none.2 (AList.lookup_eq_none.2 hk)
    rw [hnone, ite_self, ite_self]

theorem lookup_touch (m : LruMap K V) (k : K) (v : V) (k' : K) :
    (m.touch k v).lookup k' = if k' = k then (m.lookup k).map fun _ => v else m.lookup k' := by
  unfold touch
  split
  · next h =>
    by_cases hk : k' = k
    · subst hk
      simp [lookup, h]
    · simp [hk]
  · next e h =>
    by_cases hk : k' = k
    · subst hk
      simp [lookup, h]
    · simp [lookup, hk, AList.lookup_insert_ne hk]

@[simp] theorem lookup_sweep (p : V → Bool) (m : LruMap K V) (k : K) :
    (m.sweep p).lookup k = (m.lookup k).filter fun v => !p v := by
  simp only [lookup, sweep, AList.lookup_retain]
  cases m.table.lookup k with
  | none => rfl
  | some e => by_cases h : p e.value <;> simp [Option.filter, h]

theorem evict_of_len_le {cap : Nat} {m : LruMap K V} (h : m.lru.len ≤ cap) : m.evict cap = (m, []) := by
  unfold evict
  cases m.lru.len with
  | zero => rfl
  | succ n => simp [evictLoop, h]

theorem len_touch (m : LruMap K V) (k : K) (v : V) : (m.touch k v).lru.len = m.lru.len := by
  unfold touch
  split
  · rfl
  · next e _ => exact (LinkedList.toFront_perm e.listElem m.lru.elems).length_eq

theorem len_get (m : LruMap K V) (k : K) : (m.get k).2.lru.len = m.lru.len := by
  unfold get
  split
  · rfl
  · exact len_touch m k _

theorem len_assign_le (m : LruMap K V) (k : K) (v : V) : (m.assign k v).lru.len ≤ m.lru.len + 1 := by
  unfold assign
  split
  · rw [len_touch]
    exact Nat.le_succ _
  · exact Nat.le_refl _

theorem lookup_of_evictBack {m : LruMap K V} {k : K} {v : V} (h : m.evictBack.1.lookup k = some v) :
    m.lookup k = some v := by
  unfold evictBack at h
  split at h
  · exact h
  · next n k' _ =>
    by_cases hk : k = k'
    · subst hk
      simp [lookup] at h
    · simpa [lookup, AList.lookup_erase_ne hk] using h

theorem lookup_of_evictLoop {cap fuel : Nat} {m : LruMap K V} {k : K} {v : V}
    (h : (evictLoop cap fuel m).1.lookup k = some v) : m.lookup k = some v := by
  induction fuel generalizing m with
  | zero => exact h
  | succ fuel ih =>
    unfold evictLoop at h
    split at h
    · exact h
    · exact lookup_of_evictBack (ih h)

/-- Eviction enters nothing. -/
theorem lookup_of_evict {cap : Nat} {m : LruMap K V} {k : K} {v : V}
    (h : (m.evict cap).1.lookup k = some v) : m.lookup k = some v :=
  lookup_of_evictLoop h

theorem get_fst (m : LruMap K V) (k : K) : (m.get k).1 = m.lookup k := by
  unfold get
  split
  · next h => exact h.symm
  · next h => exact h.symm

/-- Looking a key up changes no value. -/
theorem lookup_get (m : LruMap K V) (k k' : K) : (m.get k).2.lookup k' = m.lookup k' := by
  unfold get
  split
  · rfl
  · next v hv =>
    rw [lookup_touch, hv]
    split
    · next hk => rw [hk, hv, Option.map_some]
    · rfl

theorem lookup_assign (m : LruMap K V) (k : K) (v : V) (k' : K) :
    (m.assign k v).lookup k' = if k' = k then some v else m.lookup k' := by
  unfold assign
  split
  · next u hu => rw [lookup_touch, hu, Option.map_some]
  · exact lookup_push m k v k'

/-- What is found after an assignment was assigned now or was there before. -/
theorem lookup_of_assign {m : LruMap K V} {k k' : K} {v w : V} (h : (m.assign k v).lookup k' = some w) :
    (k' = k ∧ w = v) ∨ m.lookup k' = some w := by
  rw [lookup_assign] at h
  split at h
  · next hk => exact .inl ⟨hk, (Option.some.inj h).symm⟩
  · exact .inr h

theorem lookup_of_put {cap : Nat} {m : LruMap K V} {k k' : K} {v w : V}
    (h : (m.put cap k v).lookup k' = some w) : (k' = k ∧ w = v) ∨ m.lookup k' = some w := by
  unfold put at h
  split at h
  · exact lookup_of_assign (lookup_of_evictBack h)
  · exact lookup_of_assign h

/-! ### The values held -/

theorem mem_values_iff {m : LruMap K V} {v : V} : v ∈ m.values ↔ ∃ k, m.lookup k = some v := by
  simp only [values, List.mem_map, AList.mem_values_iff]
  constructor
  · rintro ⟨e, ⟨k, hk⟩, rfl⟩
    exact ⟨k, by simp [lookup, hk]⟩
  · rintro ⟨k, hk⟩
    obtain ⟨h, he⟩ := lookup_eq_some.1 hk
    exact ⟨_, ⟨k, he⟩, rfl⟩

theorem swept_of_forall {p : V → Bool} {m : LruMap K V} (h : ∀ k v, m.lookup k = some v → p v = false) :
    m.swept p = [] := by
  refine List.filter_eq_nil_iff.2 fun v hv => ?_
  obtain ⟨k, hk⟩ := mem_values_iff.1 hv
  simp [h k v hk]

/-- A sweep that takes nothing out leaves the map as it is. -/
theorem sweep_of_forall {p : V → Bool} {m : LruMap K V} (h : ∀ k v, m.lookup k = some v → p v = false) :
    m.sweep p = m := by
  have hvalue : ∀ k e, m.table.lookup k = some e → p e.value = false :=
    fun k e hk => h k e.value (lookup_eq_some.2 ⟨e.listElem, hk⟩)
  have hdead : (m.table.values.filter fun e => p e.value) = [] := by
    refine List.filter_eq_nil_iff.2 fun e he => ?_
    obtain ⟨k, hk⟩ := AList.mem_values_iff.1 he
    simp [hvalue k e hk]
  have hkept : m.table.retain (fun e => !p e.value) = m.table :=
    AList.retain_of_forall fun k e hk => by simp [hvalue k e hk]
  simp only [sweep, hdead, hkept, List.foldl_nil]

/-- Assigning a key gives up the value it had and adds the new one. -/
theorem values_push (m : LruMap K V) (k : K) (v : V) :
    (m.push k v).values = v :: (m.drop k).values := by
  simp only [values, push, table_drop]
  rfl

theorem values_push_fresh {m : LruMap K V} {k : K} (v : V) (h : m.lookup k = none) :
    (m.push k v).values = v :: m.values := by
  rw [values_push, drop_of_lookup_none h]

theorem values_drop {m : LruMap K V} {k : K} {v : V} (h : m.lookup k = some v) :
    m.values.Perm (v :: (m.drop k).values) := by
  obtain ⟨e, he⟩ := lookup_eq_some.1 h
  have hperm := (AList.values_erase he).map LruEntry.value
  simpa [values, table_drop] using hperm

theorem values_drop_subset (m : LruMap K V) (k : K) : (m.drop k).values ⊆ m.values := by
  cases h : m.lookup k with
  | none => rw [drop_of_lookup_none h]; exact List.Subset.refl _
  | some v => exact fun x hx => (values_drop h).mem_iff.2 (List.mem_cons_of_mem v hx)

theorem values_evictBack (m : LruMap K V) :
    m.values.Perm (m.evictBack.2 ++ m.evictBack.1.values) := by
  unfold evictBack
  split
  · exact List.Perm.refl _
  · next h k hback =>
    cases hk : m.lookup k with
    | none => simp [values, AList.erase_of_lookup_none (lookup_eq_none.1 hk)]
    | some v => simpa [values, table_drop] using values_drop hk

theorem values_evictLoop (cap fuel : Nat) (m : LruMap K V) :
    m.values.Perm ((evictLoop cap fuel m).2 ++ (evictLoop cap fuel m).1.values) := by
  induction fuel generalizing m with
  | zero => exact List.Perm.refl _
  | succ fuel ih =>
    unfold evictLoop
    split
    · exact List.Perm.refl _
    · refine (values_evictBack m).trans ?_
      simpa using (ih m.evictBack.1).append_left m.evictBack.2

/-- **Eviction gives out what it takes away.** -/
theorem values_evict (cap : Nat) (m : LruMap K V) :
    m.values.Perm ((m.evict cap).2 ++ (m.evict cap).1.values) :=
  values_evictLoop cap m.lru.len m

omit [DecidableEq K] in
/-- **A sweep gives out what it takes away.** -/
theorem values_sweep (p : V → Bool) (m : LruMap K V) :
    m.values.Perm (m.swept p ++ (m.sweep p).values) := by
  have hkept : (m.sweep p).values = m.values.filter fun v => !p v := by
    simp only [values, sweep, AList.values_retain, List.filter_map]
    rfl
  rw [hkept, swept]
  exact (List.filter_append_perm p m.values).symm

/-! ### Sizes -/

theorem size_push_fresh {m : LruMap K V} {k : K} (v : V) (h : m.lookup k = none) :
    (m.push k v).size = m.size + 1 := by
  rw [← length_values, ← length_values, values_push_fresh v h, List.length_cons]

theorem size_drop {m : LruMap K V} {k : K} {v : V} (h : m.lookup k = some v) :
    (m.drop k).size + 1 = m.size := by
  rw [← length_values, ← length_values, (values_drop h).length_eq, List.length_cons]

theorem size_evict (cap : Nat) (m : LruMap K V) : (m.evict cap).2.length + (m.evict cap).1.size = m.size := by
  rw [← length_values, ← length_values, (values_evict cap m).length_eq, List.length_append]

omit [DecidableEq K] in
theorem size_sweep (p : V → Bool) (m : LruMap K V) : (m.swept p).length + (m.sweep p).size = m.size := by
  rw [← length_values, ← length_values, (values_sweep p m).length_eq, List.length_append]

/-! ### Map and list in step -/

/-- The list holds exactly the keys of the map, each in the element its entry points to. -/
def Coherent (m : LruMap K V) : Prop := m.nodes.Perm m.lru.elems

omit [DecidableEq K] in
theorem Coherent.empty : ({} : LruMap K V).Coherent := List.Perm.nil

omit [DecidableEq K] in
theorem Coherent.len_eq_size {m : LruMap K V} (h : m.Coherent) : m.lru.len = m.size := by
  simpa [nodes, LinkedList.len, size, AList.size] using h.length_eq.symm

theorem Coherent.push {m : LruMap K V} {k : K} (h : m.Coherent) (v : V) (hk : m.lookup k = none) :
    (m.push k v).Coherent := by
  have hfresh : k ∉ m.table := AList.lookup_eq_none.1 (lookup_eq_none.1 hk)
  have hnodes : (m.push k v).nodes = (m.lru.next, k) :: m.nodes := by
    simp only [nodes, LruMap.push, AList.entries_insert_of_notMem hfresh]
    rfl
  unfold Coherent
  rw [hnodes]
  exact h.cons _

theorem nodes_erase {m : LruMap K V} {k : K} {e : LruEntry V} (hk : m.table.lookup k = some e) :
    m.nodes.Perm ((e.listElem, k) :: (m.table.erase k).entries.map fun e => (e.2.listElem, e.1)) :=
  (AList.entries_erase hk).map fun e : Sigma fun _ : K => LruEntry V => (e.2.listElem, e.1)

theorem Coherent.drop {m : LruMap K V} (h : m.Coherent) (k : K) : (m.drop k).Coherent := by
  unfold LruMap.drop
  split
  · exact h
  · next e hk =>
    have hnodes := nodes_erase hk
    have hmem : (e.listElem, k) ∈ m.lru.elems := h.subset (hnodes.mem_iff.2 List.mem_cons_self)
    exact List.Perm.cons_inv (hnodes.symm.trans (h.trans (LinkedList.elems_remove hmem)))

/-- The last list element of a coherent map is the one its key's entry points to. -/
theorem Coherent.evictBack {m : LruMap K V} (h : m.Coherent) {n : Nat} {k : K}
    (hback : m.lru.back = some (n, k)) :
    ∃ v, m.lookup k = some v ∧ m.evictBack = (m.drop k, [v]) := by
  have hmem : (n, k) ∈ m.nodes := h.symm.subset (LinkedList.back_mem hback)
  obtain ⟨⟨k', e⟩, hentry, heq⟩ := List.mem_map.1 hmem
  obtain ⟨rfl, rfl⟩ := Prod.mk.inj heq
  have hk : m.table.lookup k' = some e := AList.mem_entries_iff.1 hentry
  refine ⟨e.value, by simp [lookup, hk], ?_⟩
  simp [LruMap.evictBack, hback, LruMap.drop, hk, lookup]

theorem Coherent.evictLoop {m : LruMap K V} (h : m.Coherent) (cap fuel : Nat) :
    (evictLoop cap fuel m).1.Coherent := by
  induction fuel generalizing m with
  | zero => exact h
  | succ fuel ih =>
    unfold LruMap.evictLoop
    split
    · exact h
    · refine ih ?_
      cases hback : m.lru.back with
      | none => simpa [LruMap.evictBack, hback] using h
      | some e =>
        obtain ⟨v, -, heq⟩ := h.evictBack hback
        rw [heq]
        exact h.drop e.2

theorem Coherent.evict {m : LruMap K V} (h : m.Coherent) (cap : Nat) : (m.evict cap).1.Coherent :=
  h.evictLoop cap m.lru.len

/-- A coherent map whose list is too long gives up a value. -/
theorem Coherent.evict_ne_nil {m : LruMap K V} (h : m.Coherent) {cap : Nat} (hcap : cap < m.lru.len) :
    (m.evict cap).2 ≠ [] := by
  unfold LruMap.evict
  cases hlen : m.lru.len with
  | zero => omega
  | succ n =>
    cases hback : m.lru.back with
    | none => exact absurd (LinkedList.back_eq_none hback) (by omega)
    | some e =>
      obtain ⟨v, -, heq⟩ := h.evictBack hback
      simp [LruMap.evictLoop, Nat.not_le.2 hcap, heq]

omit [DecidableEq K] in
/-- Removing the elements `dead` from a list that holds `dead` and `live` leaves `live`. -/
theorem elems_removeAll {live dead : List (Nat × K)} {l : LinkedList K}
    (h : l.elems.Perm (dead ++ live)) :
    (dead.foldl (fun l e => l.remove e.1) l).elems.Perm live := by
  induction dead generalizing l with
  | nil => exact h
  | cons d dead ih =>
    have hmem : (d.1, d.2) ∈ l.elems := h.symm.subset List.mem_cons_self
    exact ih (List.Perm.cons_inv ((LinkedList.elems_remove hmem).symm.trans h))

omit [DecidableEq K] in
theorem Coherent.sweep {m : LruMap K V} (h : m.Coherent) (p : V → Bool) : (m.sweep p).Coherent := by
  let node : (Sigma fun _ : K => LruEntry V) → Nat × K := fun e => (e.2.listElem, e.1)
  let dead := (m.table.entries.filter fun e => p e.2.value).map node
  have hsplit : m.nodes.Perm (dead ++ (m.sweep p).nodes) := by
    have hperm := (List.filter_append_perm (fun e => p e.2.value) m.table.entries).symm.map node
    rwa [List.map_append] at hperm
  have hlru : (m.sweep p).lru = dead.foldl (fun l e => l.remove e.1) m.lru := by
    simp only [LruMap.sweep, AList.values, List.filter_map, List.foldl_map, dead]
    rfl
  unfold Coherent
  rw [hlru]
  exact (elems_removeAll (h.symm.trans hsplit)).symm

theorem Coherent.touch {m : LruMap K V} (h : m.Coherent) (k : K) (v : V) : (m.touch k v).Coherent := by
  unfold LruMap.touch
  split
  · exact h
  · next e hk =>
    -- the entry keeps its list element, which only moves
    have hnodes : ((m.table.insert k { e with value := v }).entries.map fun e => (e.2.listElem, e.1)).Perm m.nodes :=
      (nodes_erase hk).symm
    exact hnodes.trans (h.trans (LinkedList.toFront_perm e.listElem m.lru.elems).symm)

/-! ### Within a capacity -/

/-- A round of eviction shortens the list. -/
theorem len_evictBack_lt {m : LruMap K V} (h : 0 < m.lru.len) : m.evictBack.1.lru.len < m.lru.len := by
  unfold evictBack
  split
  · next hback => exact absurd (LinkedList.back_eq_none hback) (by omega)
  · next n k hback =>
    have hlength := (LinkedList.elems_remove (LinkedList.back_mem hback)).length_eq
    rw [List.length_cons] at hlength
    show (m.lru.remove n).elems.length < m.lru.elems.length
    omega

theorem len_evictLoop_le {cap fuel : Nat} {m : LruMap K V} (h : m.lru.len ≤ cap + fuel) :
    (evictLoop cap fuel m).1.lru.len ≤ cap := by
  induction fuel generalizing m with
  | zero => exact h
  | succ fuel ih =>
    unfold LruMap.evictLoop
    split
    · next hshort => exact hshort
    · next hlong =>
      have hround : m.evictBack.1.lru.len < m.lru.len := len_evictBack_lt (by omega)
      exact ih (by omega)

theorem len_evict_le (cap : Nat) (m : LruMap K V) : (m.evict cap).1.lru.len ≤ cap :=
  len_evictLoop_le (Nat.le_add_left _ _)

/-- A map in step with its list, which has at most `cap` elements. -/
structure Within (cap : Nat) (m : LruMap K V) : Prop where
  coherent : m.Coherent
  short : m.lru.len ≤ cap

namespace Within

variable {cap : Nat} {m : LruMap K V}

omit [DecidableEq K] in
theorem empty (cap : Nat) : ({} : LruMap K V).Within cap := ⟨Coherent.empty, Nat.zero_le cap⟩

omit [DecidableEq K] in
/-- A map that shrinks stays within its capacity. -/
theorem of_size_le {m' : LruMap K V} (h : m.Within cap) (hcoherent : m'.Coherent) (hsize : m'.size ≤ m.size) :
    m'.Within cap := by
  refine ⟨hcoherent, ?_⟩
  rw [hcoherent.len_eq_size]
  exact (hsize.trans_eq h.coherent.len_eq_size.symm).trans h.short

theorem drop (h : m.Within cap) (k : K) : (m.drop k).Within cap := by
  refine h.of_size_le (h.coherent.drop k) ?_
  cases hk : m.lookup k with
  | none => rw [drop_of_lookup_none hk]
  | some v =>
    have := size_drop hk
    omega

omit [DecidableEq K] in
theorem sweep (h : m.Within cap) (p : V → Bool) : (m.sweep p).Within cap := by
  have hsize := size_sweep p m
  exact h.of_size_le (h.coherent.sweep p) (by omega)

theorem touch (h : m.Within cap) (k : K) (v : V) : (m.touch k v).Within cap :=
  ⟨h.coherent.touch k v, (len_touch m k v).trans_le h.short⟩

theorem evict (h : m.Coherent) (cap : Nat) : (m.evict cap).1.Within cap := ⟨h.evict cap, len_evict_le cap m⟩

/-- A new key is entered, and what is too much evicted. -/
theorem push_evict (h : m.Within cap) {k : K} (v : V) (hk : m.lookup k = none) :
    ((m.push k v).evict cap).1.Within cap :=
  evict (h.coherent.push v hk) cap

end Within

omit [DecidableEq K] in
theorem keys_nodes (m : LruMap K V) : m.nodes.map Prod.snd = m.table.keys := by
  rw [nodes, List.map_map]
  rfl

/-- What `Within` says about the map and the list, in terms of their keys. -/
structure InStep (cap : Nat) (m : LruMap K V) : Prop where
  /-- No key is in the list twice. -/
  nodup : (m.lru.elems.map Prod.snd).Nodup
  /-- The list has the keys of the map. -/
  keys : ∀ k, k ∈ m.lru.elems.map Prod.snd ↔ k ∈ m.table
  /-- Every entry points to the list element of its key. -/
  own : ∀ k e, m.table.lookup k = some e → (e.listElem, k) ∈ m.lru.elems
  bounded : m.size ≤ cap

theorem Within.inStep {cap : Nat} {m : LruMap K V} (h : m.Within cap) : m.InStep cap where
  nodup := by
    rw [← (h.coherent.map Prod.snd).nodup_iff, keys_nodes]
    exact m.table.nodupKeys
  keys := by
    intro k
    rw [← (h.coherent.map Prod.snd).mem_iff, keys_nodes]
    exact AList.mem_keys.symm
  own := by
    intro k e hk
    exact h.coherent.subset (List.mem_map.2 ⟨⟨k, e⟩, AList.mem_entries_iff.2 hk, rfl⟩)
  bounded := h.coherent.len_eq_size ▸ h.short

/-- A map all of whose keys are in `ks` has at most as many keys as `ks`. -/
theorem size_le_length {m : LruMap K V} {ks : List K} (h : ∀ k, m.lookup k ≠ none → k ∈ ks) :
    m.size ≤ ks.length := by
  have hkeys : m.table.keys ⊆ ks := by
    intro k hk
    refine h k fun hnone => ?_
    exact AList.lookup_eq_none.1 (lookup_eq_none.1 hnone) hk
  have hsub : m.table.keys.Subperm ks := List.subperm_of_subset m.table.nodupKeys hkeys
  simpa [size, AList.size, AList.keys, List.keys] using hsub.length_le

end LruMap

end BinderTracer.Lib
