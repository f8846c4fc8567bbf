import BinderTracer.App.MethodResolver
import BinderTracer.Lib.Runs

/-!
# Invalidating cached signatures

`SignatureCache`, whose calls come from several threads. Each of its `synchronized` sections is one step; `getOrLoad`
has two, and calls its loader between them, without the lock. Signatures are kept here with where they come from,
which the code does not know: a loader call, with the number of invalidations of the package before it started, or a
`put`.

`invalidatePackage` takes the signatures of a package out. A loader call that is on its way has read the old classes
and stores its result afterwards (`invalidation_overtaken`); where there is none, the cache holds nothing older than
the last invalidation (`invalidation_effective`).
-/

namespace BinderTracer.App.SignatureCache

open BinderTracer.Lib

/-! ### The sections -/

/-- `store`: the signatures of an interface under the package bucket and the name of the interface. -/
abbrev Store (σ : Type) := LruMap (String × String) (Table String σ)

section
variable {σ : Type} (maxEntries : Nat)

/-- `put`. -/
def put (store : Store σ) (key : String × String) (methodName : String) (signature : σ) : Store σ :=
  let (old, store) := LruMap.get store key
  ((LruMap.assign store key ((old.getD ∅).insert methodName signature)).evict maxEntries).1

/-- `get`. -/
def get (store : Store σ) (key : String × String) (methodName : String) : Option σ × Store σ :=
  let (found, store) := LruMap.get store key
  (found.bind (·.lookup methodName), store)

/-- The second section of `getOrLoad`. An empty result is not cached. -/
def storeLoaded (store : Store σ) (key : String × String) (loaded : Table String σ) : Store σ :=
  if loaded.entries = [] then store else ((LruMap.assign store key loaded).evict maxEntries).1

/-- `invalidatePackage`. -/
def invalidatePackage (store : Store σ) (bucket : String) : Store σ := store.dropKeys fun key => key.1 = bucket

theorem put_eq (store : Store σ) (key : String × String) (methodName : String) (signature : σ) :
    put maxEntries store key methodName signature =
      ((LruMap.assign (LruMap.get store key).2 key
        (((LruMap.lookup store key).getD ∅).insert methodName signature)).evict maxEntries).1 := by
  rw [← LruMap.get_fst]
  rfl

end

/-! ### Calls from several threads -/

/-- Where a signature comes from. -/
inductive Source where
  | put
  /-- A loader call that started after this many invalidations of the package. -/
  | loader (epoch : Nat)
deriving DecidableEq, Repr

/-- A signature with its source. -/
structure Sourced where
  signature : MethodSignature
  source : Source
deriving DecidableEq, Repr

/-- Where a call of `getOrLoad` is, after its first section. -/
inductive Phase where
  | missed
  | loading (epoch : Nat)
  | returned
deriving DecidableEq, Repr

/-- A call of `getOrLoad`. -/
structure LoadCall where
  key : String × String
  phase : Phase
deriving DecidableEq, Repr

/-- The cache, the calls of `getOrLoad`, and the packages invalidated so far. -/
structure State where
  store : Store Sourced := {}
  calls : List LoadCall := []
  invalidations : List String := []

inductive Action where
  | put (key : String × String) (signature : MethodSignature)
  | get (key : String × String) (methodName : String)
  /-- `getOrLoad` looks its key up. -/
  | getOrLoad (key : String × String)
  /-- Call `i` of `getOrLoad` calls its loader. -/
  | startLoader (i : Nat)
  /-- The loader has returned this, and call `i` stores it. -/
  | storeLoaded (i : Nat) (loaded : Signatures)
  | invalidatePackage (pkg : String)

namespace State

/-- The number of invalidations of a package so far. -/
def epoch (s : State) (pkg : String) : Nat := s.invalidations.count pkg

/-- Call `i` goes on. -/
def moveCall (s : State) (i : Nat) (c : LoadCall) (phase : Phase) : State :=
  { s with calls := s.calls.set i { c with phase } }

variable (maxEntries : Nat)

def step (s : State) : Action → Except Blocked State
  | .put key signature =>
    .ok { s with store := SignatureCache.put maxEntries s.store key signature.methodName ⟨signature, .put⟩ }
  | .get key methodName => .ok { s with store := (SignatureCache.get s.store key methodName).2 }
  | .getOrLoad key =>
    match LruMap.get s.store key with
    | (some _, store) => .ok { s with store, calls := s.calls ++ [⟨key, .returned⟩] }
    | (none, store) => .ok { s with store, calls := s.calls ++ [⟨key, .missed⟩] }
  | .startLoader i =>
    match s.calls[i]? with
    | some c => if c.phase = .missed then .ok (s.moveCall i c (.loading (s.epoch c.key.1))) else .error .blocked
    | none => .error .blocked
  | .storeLoaded i loaded =>
    match s.calls[i]? with
    | some ⟨key, .loading epoch⟩ =>
      let sourced := loaded.mapValues fun signature => Sourced.mk signature (.loader epoch)
      .ok { s.moveCall i ⟨key, .loading epoch⟩ .returned with
        store := SignatureCache.storeLoaded maxEntries s.store key sourced }
    | _ => .error .blocked
  | .invalidatePackage pkg =>
    .ok { s with
      store := SignatureCache.invalidatePackage s.store pkg
      invalidations := s.invalidations ++ [pkg] }

/-- The signature was put, or loaded by a call that started after the last invalidation of the package. -/
def Current (s : State) (pkg : String) (v : Sourced) : Prop := v.source = .put ∨ v.source = .loader (s.epoch pkg)

/-- Every signature that can be read is current. -/
def Effective (s : State) : Prop :=
  ∀ key entry, s.store.lookup key = some entry → ∀ name v, entry.lookup name = some v → s.Current key.1 v

/-- No loader call for the package is on its way when it is invalidated. -/
def Undisturbed (s : State) : Action → Prop
  | .invalidatePackage pkg => ∀ c ∈ s.calls, c.key.1 = pkg → c.phase = .missed ∨ c.phase = .returned
  | _ => True

instance (s : State) (a : Action) : Decidable (s.Undisturbed a) := by
  unfold Undisturbed
  split <;> infer_instance

/-! ### What the cache holds -/

/-- Every signature that can be read is current, and every loader call that is on its way. -/
structure Settled (s : State) : Prop where
  effective : s.Effective
  loading : ∀ c ∈ s.calls, ∀ epoch, c.phase = .loading epoch → epoch = s.epoch c.key.1

variable {maxEntries : Nat} {s t : State}

/-- The entries of the new store were there before or hold current signatures only. -/
theorem Effective.of_store (h : s.Effective) (hinvalidations : t.invalidations = s.invalidations)
    (hstore : ∀ key entry, t.store.lookup key = some entry → s.store.lookup key = some entry ∨
      ∀ name v, entry.lookup name = some v → s.Current key.1 v) : t.Effective := by
  intro key entry hentry name v hv
  have hcurrent : s.Current key.1 v := by
    rcases hstore key entry hentry with hold | hnew
    · exact h key entry hold name v hv
    · exact hnew name v hv
  rwa [Current, epoch, hinvalidations]

/-- Looking a key up moves its entry to the front. -/
theorem Effective.get (h : s.Effective) (key : String × String) (calls : List LoadCall) :
    Effective { s with store := (LruMap.get s.store key).2, calls } := by
  refine h.of_store rfl fun key' entry hentry => .inl ?_
  exact (LruMap.lookup_get s.store key key').symm.trans hentry

/-- A merged entry has the signatures of the old one and the new one. -/
theorem Effective.put (h : s.Effective) (key : String × String) (signature : MethodSignature) :
    Effective { s with
      store := SignatureCache.put maxEntries s.store key signature.methodName ⟨signature, .put⟩ } := by
  refine h.of_store rfl fun key' entry hentry => ?_
  rw [put_eq] at hentry
  rcases LruMap.lookup_of_assign (LruMap.lookup_of_evict hentry) with ⟨rfl, rfl⟩ | hold
  · right
    intro name v hv
    by_cases hname : name = signature.methodName
    · subst hname
      rw [AList.lookup_insert] at hv
      cases hv
      exact .inl rfl
    · rw [AList.lookup_insert_ne hname] at hv
      cases hlookup : s.store.lookup key' with
      | none =>
        rw [hlookup] at hv
        cases hv
      | some old =>
        rw [hlookup] at hv
        exact h key' old hlookup name v hv
  · exact .inl ((LruMap.lookup_get s.store key key').symm.trans hold)

/-- What a loader call has returned is stored while it is current. -/
theorem Effective.storeLoaded (h : s.Effective) (key : String × String) (loaded : Signatures)
    (calls : List LoadCall) :
    Effective { s with
      calls
      store := SignatureCache.storeLoaded maxEntries s.store key
        (loaded.mapValues fun signature => Sourced.mk signature (.loader (s.epoch key.1))) } := by
  refine h.of_store rfl fun key' entry hentry => ?_
  unfold SignatureCache.storeLoaded at hentry
  simp only at hentry
  split at hentry
  · exact .inl hentry
  · rcases LruMap.lookup_of_assign (LruMap.lookup_of_evict hentry) with ⟨rfl, rfl⟩ | hold
    · right
      intro name v hv
      rw [AList.lookup_mapValues, Option.map_eq_some_iff] at hv
      obtain ⟨signature, -, rfl⟩ := hv
      exact .inr rfl
    · exact .inl hold

theorem epoch_invalidated {pkg pkg' : String} (hpkg : pkg' ≠ pkg) (store : Store Sourced) :
    epoch { s with store, invalidations := s.invalidations ++ [pkg] } pkg' = s.epoch pkg' := by
  rw [epoch, List.count_append, List.count_singleton, if_neg (by simpa using hpkg.symm), Nat.add_zero, epoch]

/-- Nothing of the package is left. -/
theorem Effective.invalidatePackage (h : s.Effective) (pkg : String) :
    Effective { s with
      store := SignatureCache.invalidatePackage s.store pkg
      invalidations := s.invalidations ++ [pkg] } := by
  intro key entry hentry name v hv
  rw [SignatureCache.invalidatePackage, LruMap.lookup_dropKeys] at hentry
  split at hentry
  · cases hentry
  · next hkey =>
    rw [Current, epoch_invalidated (by simpa using hkey)]
    exact h key entry hentry name v hv

/-- A call that moves on does not fall behind if it starts its loader now. -/
theorem Settled.loading_set (h : s.Settled) (i : Nat) (c : LoadCall) {phase : Phase}
    (hphase : ∀ epoch, phase = .loading epoch → epoch = s.epoch c.key.1) :
    ∀ c' ∈ s.calls.set i { c with phase }, ∀ epoch, c'.phase = .loading epoch → epoch = s.epoch c'.key.1 := by
  intro c' hc' epoch hloading
  rcases List.mem_or_eq_of_mem_set hc' with hold | rfl
  · exact h.loading c' hold epoch hloading
  · exact hphase epoch hloading

/-- A new call has not started its loader. -/
theorem Settled.loading_append (h : s.Settled) (key : String × String) {phase : Phase}
    (hphase : ∀ epoch, phase ≠ .loading epoch) :
    ∀ c ∈ s.calls ++ [⟨key, phase⟩], ∀ epoch, c.phase = .loading epoch → epoch = s.epoch c.key.1 := by
  intro c hc epoch hloading
  rcases List.mem_append.1 hc with hold | hc
  · exact h.loading c hold epoch hloading
  · rw [List.mem_singleton.1 hc] at hloading
    exact absurd hloading (hphase epoch)

/-- Loader calls of other packages stay current. -/
theorem Settled.loading_invalidated (h : s.Settled) {pkg : String} (store : Store Sourced)
    (hundisturbed : s.Undisturbed (.invalidatePackage pkg)) :
    ∀ c ∈ s.calls, ∀ epoch, c.phase = .loading epoch →
      epoch = State.epoch { s with store, invalidations := s.invalidations ++ [pkg] } c.key.1 := by
  intro c hc epoch hloading
  have hpkg : c.key.1 ≠ pkg := by
    intro heq
    rcases hundisturbed c hc heq with hphase | hphase
    · cases hloading.symm.trans hphase
    · cases hloading.symm.trans hphase
  rw [epoch_invalidated hpkg]
  exact h.loading c hc epoch hloading

theorem Settled.step (h : s.Settled) {a : Action} (hundisturbed : s.Undisturbed a)
    (hstep : s.step maxEntries a = .ok t) : t.Settled := by
  cases a with
  | put key signature =>
    cases hstep
    exact ⟨h.effective.put key signature, h.loading⟩
  | get key methodName =>
    cases hstep
    exact ⟨h.effective.get key s.calls, h.loading⟩
  | getOrLoad key =>
    have hget := h.effective.get key
    simp only [State.step] at hstep
    split at hstep
    · next heq =>
      cases hstep
      rw [heq] at hget
      exact ⟨hget _, h.loading_append key (by rintro epoch ⟨⟩)⟩
    · next heq =>
      cases hstep
      rw [heq] at hget
      exact ⟨hget _, h.loading_append key (by rintro epoch ⟨⟩)⟩
  | startLoader i =>
    simp only [State.step] at hstep
    split at hstep
    · next c _ =>
      split at hstep
      · cases hstep
        refine ⟨h.effective.of_store rfl fun _ _ hentry => .inl hentry, h.loading_set i c ?_⟩
        rintro epoch ⟨⟩
        rfl
      · cases hstep
    · cases hstep
  | storeLoaded i loaded =>
    simp only [State.step] at hstep
    split at hstep
    · next key epoch hi =>
      obtain rfl : epoch = s.epoch key.1 := h.loading _ (List.mem_of_getElem? hi) epoch rfl
      cases hstep
      exact ⟨h.effective.storeLoaded key loaded _, h.loading_set i _ (by rintro epoch ⟨⟩)⟩
    · cases hstep
  | invalidatePackage pkg =>
    cases hstep
    exact ⟨h.effective.invalidatePackage pkg, h.loading_invalidated _ hundisturbed⟩

/-- **Invalidation is effective**: where no loader call for a package is on its way when the package is invalidated,
the cache never holds a signature that a loader call has read before the last invalidation of its package. -/
theorem invalidation_effective (maxEntries : Nat) (actions : List Action)
    (hundisturbed : StepsMeet (step maxEntries) Undisturbed {} actions) :
    ∀ done, done <+: actions → ∀ s, run (step maxEntries) {} done = .ok s → s.Effective := by
  intro done hdone s hs
  have hsettled : s.Settled := by
    refine run_along (P := fun _ s => s.Settled) ?_ ?_ hs
    · exact ⟨by rintro key entry ⟨⟩, fun c hc => absurd hc List.not_mem_nil⟩
    · intro before a m t hpre hm hsettled hstep
      exact hsettled.step (hundisturbed before a (hpre.trans hdone) m hm) hstep
  exact hsettled.effective

/-- The signatures of an interface with one method. -/
def oneMethod (paramTypes : List String) : Signatures :=
  (∅ : Signatures).insert "open" ⟨"open", paramTypes, none⟩

/-- The package is loaded, invalidated and loaded again. -/
def reloaded : List Action :=
  [.getOrLoad ("p", "I"), .startLoader 0, .storeLoaded 0 (oneMethod []), .invalidatePackage "p",
    .getOrLoad ("p", "I"), .startLoader 1, .storeLoaded 1 (oneMethod ["int"])]

theorem invalidation_effective_reloaded :
    ∃ s, run (step 256) {} reloaded = .ok s ∧ s.Effective ∧
      (s.store.lookup ("p", "I")).bind (·.lookup "open") =
        some ⟨⟨"open", ["int"], none⟩, .loader 1⟩ := by
  obtain ⟨s, hs, hlookup⟩ : ∃ s, run (step 256) {} reloaded = .ok s ∧
      (s.store.lookup ("p", "I")).bind (·.lookup "open") = some ⟨⟨"open", ["int"], none⟩, .loader 1⟩ :=
    exists_of_endsIn (by decide +kernel)
  exact ⟨s, hs, invalidation_effective 256 reloaded (stepsMeet_of_eval (by decide +kernel)) reloaded
    List.prefix_rfl s hs, hlookup⟩

/-- The package is invalidated while a loader runs: what that has read of the old version is stored, and is found
from then on. -/
theorem invalidation_overtaken :
    ∃ s, run (step 256) {}
        [.getOrLoad ("p", "I"), .startLoader 0, .invalidatePackage "p", .storeLoaded 0 (oneMethod [])] = .ok s ∧
      s.epoch "p" = 1 ∧
      (s.store.lookup ("p", "I")).bind (·.lookup "open") = some ⟨⟨"open", [], none⟩, .loader 0⟩ :=
  exists_of_endsIn (by decide +kernel)

end State
end BinderTracer.App.SignatureCache
