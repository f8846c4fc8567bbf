import BinderTracer.App.PersistentSignatureCache
import BinderTracer.Lib.Runs

/-!
# Versions in the signature cache

Signatures are stored per interface, the version they belong to per package. A table that `get` returns
for a version should have been supplied for that version. This holds along every run in which no `Put`
changes the version of a package that keeps other interfaces, and no load adds interfaces to a package
that is held at another version (`KeepsVersion`).
-/

namespace BinderTracer.App

open BinderTracer.Lib

namespace HotCopy

variable (hot : HotCopy) (pkg iface : String)

/-! ### What the operations change -/

@[simp] theorem get_put_self (sig : Signatures) (now : Int64) :
    (hot.put pkg iface sig now).get pkg iface = some sig := by
  simp [get, put]

theorem get_put_ne_interface {iface' : String} (h : iface' ≠ iface) (sig : Signatures) (now : Int64) :
    (hot.put pkg iface sig now).get pkg iface' = hot.get pkg iface' := by
  simp only [get, put, AList.lookup_insert, Option.bind_some, AList.lookup_insert_ne h]
  cases hot.interfaces.lookup pkg <;> rfl

theorem get_put_ne_package {pkg' : String} (h : pkg' ≠ pkg) (iface' : String) (sig : Signatures) (now : Int64) :
    (hot.put pkg iface sig now).get pkg' iface' = hot.get pkg' iface' := by
  simp only [get, put, AList.lookup_insert_ne h]

theorem get_removePackage_ne {pkg' : String} (h : pkg' ≠ pkg) (iface' : String) :
    (hot.removePackage pkg).get pkg' iface' = hot.get pkg' iface' := by
  simp only [get, removePackage, AList.lookup_erase_ne h]

@[simp] theorem get_removePackage_self (iface' : String) : (hot.removePackage pkg).get pkg iface' = none := by
  simp [get, removePackage]

@[simp] theorem get_putPackageMeta (ver : Int32) (mtime : Int64) (pkg' iface' : String) :
    (hot.putPackageMeta pkg ver mtime).get pkg' iface' = hot.get pkg' iface' := rfl

@[simp] theorem packageMeta_put (sig : Signatures) (now : Int64) :
    (hot.put pkg iface sig now).packageMeta = hot.packageMeta := rfl

/-! ### Tables with the version they were supplied for -/

/-- Every table belongs to the version of its package, in the sense of `P`. -/
def Versioned (P : String → String → PackageMeta → Signatures → Prop) (hot : HotCopy) : Prop :=
  ∀ pkg iface sig, hot.get pkg iface = some sig →
    ∃ info, hot.packageMeta.lookup pkg = some info ∧ P pkg iface info sig

variable {hot pkg iface} {P : String → String → PackageMeta → Signatures → Prop}

theorem Versioned.mono {Q : String → String → PackageMeta → Signatures → Prop} (h : Versioned P hot)
    (hPQ : ∀ pkg iface info sig, P pkg iface info sig → Q pkg iface info sig) : Versioned Q hot := by
  intro pkg iface sig hget
  obtain ⟨info, hinfo, hP⟩ := h pkg iface sig hget
  exact ⟨info, hinfo, hPQ pkg iface info sig hP⟩

theorem Versioned.removePackage (h : Versioned P hot) (pkg : String) : Versioned P (hot.removePackage pkg) := by
  intro pkg' iface sig hget
  by_cases hpkg : pkg' = pkg
  · subst hpkg
    rw [get_removePackage_self] at hget
    exact nomatch hget
  · rw [get_removePackage_ne hot pkg hpkg] at hget
    obtain ⟨info, hinfo, hP⟩ := h pkg' iface sig hget
    exact ⟨info, by rw [HotCopy.removePackage, AList.lookup_erase_ne hpkg, hinfo], hP⟩

/-- The `Put` does not change the version of other interfaces. -/
def PutKeeps (hot : HotCopy) (pkg iface : String) (ver : Int32) (mtime : Int64) : Prop :=
  ∀ info, hot.packageMeta.lookup pkg = some info →
    info = ⟨ver, mtime⟩ ∨ ∀ iface' sig, hot.get pkg iface' = some sig → iface' = iface

theorem Versioned.applyPut {ver : Int32} {mtime : Int64} {sig : Signatures} (h : Versioned P hot)
    (hkeeps : PutKeeps hot pkg iface ver mtime) (hP : P pkg iface ⟨ver, mtime⟩ sig) (now : Int64) :
    Versioned P (hot.applyPut pkg iface ver mtime sig now) := by
  intro pkg' iface' sig' hget
  rw [HotCopy.applyPut] at hget ⊢
  rw [packageMeta_put, putPackageMeta]
  by_cases hpkg : pkg' = pkg
  · subst hpkg
    refine ⟨⟨ver, mtime⟩, AList.lookup_insert _, ?_⟩
    by_cases hiface : iface' = iface
    · subst hiface
      rw [get_put_self] at hget
      cases hget
      exact hP
    · rw [get_put_ne_interface _ _ _ hiface, get_putPackageMeta] at hget
      obtain ⟨info, hinfo, hold⟩ := h pkg' iface' sig' hget
      rcases hkeeps info hinfo with rfl | honly
      · exact hold
      · exact absurd (honly iface' sig' hget) hiface
  · rw [get_put_ne_package _ _ _ hpkg, get_putPackageMeta] at hget
    obtain ⟨info, hinfo, hold⟩ := h pkg' iface' sig' hget
    exact ⟨info, by rw [AList.lookup_insert_ne hpkg, hinfo], hold⟩

/-! ### Loading -/

section
variable (now : Int64) (pkg) (entries : List (Sigma fun _ : String => Signatures)) (hot)

/-- The inner loop of a load touches its package only, and not its version. -/
theorem loadInterfaces_frame :
    (entries.foldl (loadInterface now pkg) hot).packageMeta = hot.packageMeta ∧
      ∀ pkg' iface, pkg' ≠ pkg →
        (entries.foldl (loadInterface now pkg) hot).get pkg' iface = hot.get pkg' iface := by
  induction entries generalizing hot with
  | nil => exact ⟨rfl, fun _ _ _ => rfl⟩
  | cons e entries ih =>
    obtain ⟨hmeta, hget⟩ := ih (loadInterface now pkg hot e)
    rw [List.foldl_cons, hmeta, loadInterface]
    refine ⟨by split <;> rfl, fun pkg' iface hpkg => ?_⟩
    rw [← loadInterface, hget pkg' iface hpkg, loadInterface]
    split
    · rfl
    · exact get_put_ne_package hot pkg e.1 hpkg iface e.2 now

/-- A table of the package was there before, or is one of those loaded. -/
theorem get_loadInterfaces {iface : String} {sig : Signatures}
    (h : (entries.foldl (loadInterface now pkg) hot).get pkg iface = some sig) :
    hot.get pkg iface = some sig ∨ ⟨iface, sig⟩ ∈ entries := by
  induction entries generalizing hot with
  | nil => exact .inl h
  | cons e entries ih =>
    rcases ih (loadInterface now pkg hot e) h with hold | hmem
    · rw [loadInterface] at hold
      split at hold
      · exact .inl hold
      · by_cases hiface : iface = e.1
        · subst hiface
          rw [get_put_self] at hold
          cases hold
          exact .inr List.mem_cons_self
        · rw [get_put_ne_interface hot pkg e.1 hiface] at hold
          exact .inl hold
    · exact .inr (List.mem_cons_of_mem e hmem)

/-- Interfaces that are there already are not loaded. -/
theorem loadInterfaces_of_contains (h : ∀ e ∈ entries, hot.contains pkg e.1 = true) :
    entries.foldl (loadInterface now pkg) hot = hot := by
  induction entries with
  | nil => rfl
  | cons e entries ih =>
    rw [List.foldl_cons, loadInterface, if_pos (h e List.mem_cons_self)]
    exact ih fun e' he' => h e' (List.mem_cons_of_mem e he')

end

/-- The load of a package does not add interfaces to another version of it. -/
def LoadKeeps (hot : HotCopy) (pkg : String) (d : PackageData) : Prop :=
  ∀ info, hot.packageMeta.lookup pkg = some info →
    info = ⟨d.version, d.lastUpdated⟩ ∨ ∀ iface sig, d.interfaces.lookup iface = some sig →
      hot.contains pkg iface = true

theorem LoadKeeps.congr {hot' : HotCopy} {d : PackageData} (h : LoadKeeps hot pkg d)
    (hmeta : hot'.packageMeta.lookup pkg = hot.packageMeta.lookup pkg)
    (hget : ∀ iface, hot'.get pkg iface = hot.get pkg iface) : LoadKeeps hot' pkg d := by
  intro info hinfo
  rw [hmeta] at hinfo
  refine (h info hinfo).imp_right fun hall iface sig hsig => ?_
  rw [contains, hget iface]
  exact hall iface sig hsig

/-- Loading one package leaves the others alone. -/
theorem loadPackage_frame (now : Int64) (hot : HotCopy) (e : Sigma fun _ : String => PackageData)
    {pkg : String} (h : pkg ≠ e.1) :
    (loadPackage now hot e).packageMeta.lookup pkg = hot.packageMeta.lookup pkg ∧
      ∀ iface, (loadPackage now hot e).get pkg iface = hot.get pkg iface := by
  obtain ⟨hmeta, hget⟩ := loadInterfaces_frame hot e.1 now e.2.interfaces.entries
  rw [loadPackage]
  split
  · exact ⟨by rw [hmeta], fun iface => hget pkg iface h⟩
  · refine ⟨?_, fun iface => (get_putPackageMeta ..).trans (hget pkg iface h)⟩
    rw [putPackageMeta, AList.lookup_insert_ne h, hmeta]

theorem Versioned.loadPackage {d : PackageData} (h : Versioned P hot) (hkeeps : LoadKeeps hot pkg d)
    (hP : ∀ iface sig, d.interfaces.lookup iface = some sig → P pkg iface ⟨d.version, d.lastUpdated⟩ sig)
    (now : Int64) : Versioned P (HotCopy.loadPackage now hot ⟨pkg, d⟩) := by
  intro pkg' iface sig hget
  by_cases hpkg : pkg' = pkg
  · subst hpkg
    have hmeta := (loadInterfaces_frame hot pkg' now d.interfaces.entries).1
    have hloaded : ∀ iface sig, ⟨iface, sig⟩ ∈ d.interfaces.entries →
        P pkg' iface ⟨d.version, d.lastUpdated⟩ sig := fun iface sig hmem =>
      hP iface sig (AList.mem_entries_iff.1 hmem)
    cases hinfo : hot.packageMeta.lookup pkg' with
    | none =>
      -- The package was not there: all its tables come from the record.
      have hnew : ¬(d.interfaces.entries.foldl (loadInterface now pkg') hot).hasPackageMeta pkg' = true := by
        rw [hasPackageMeta, hmeta, hinfo]
        exact Bool.false_ne_true
      rw [HotCopy.loadPackage, if_neg hnew] at hget ⊢
      refine ⟨⟨d.version, d.lastUpdated⟩, AList.lookup_insert _, ?_⟩
      rcases get_loadInterfaces hot pkg' now _ hget with hold | hmem
      · obtain ⟨info, hinfo', -⟩ := h pkg' iface sig hold
        rw [hinfo] at hinfo'
        exact nomatch hinfo'
      · exact hloaded iface sig hmem
    | some info =>
      have hkept : (d.interfaces.entries.foldl (loadInterface now pkg') hot).hasPackageMeta pkg' = true := by
        rw [hasPackageMeta, hmeta, hinfo]
        rfl
      rw [HotCopy.loadPackage, if_pos hkept] at hget ⊢
      rw [hmeta]
      rcases hkeeps info hinfo with rfl | hall
      · rcases get_loadInterfaces hot pkg' now _ hget with hold | hmem
        · exact h pkg' iface sig hold
        · exact ⟨_, hinfo, hloaded iface sig hmem⟩
      · have hsame := loadInterfaces_of_contains hot pkg' now d.interfaces.entries fun e he =>
          hall e.1 e.2 (AList.mem_entries_iff.1 he)
        dsimp only at hget
        rw [hsame] at hget
        exact h pkg' iface sig hget
  · obtain ⟨hmeta, hget'⟩ := loadPackage_frame now hot ⟨pkg, d⟩ hpkg
    rw [hget'] at hget
    rw [hmeta]
    exact h pkg' iface sig hget

/-- What each package of the staging may do, the whole load may. -/
theorem Versioned.applyLoadComplete {staging : Packages} (h : Versioned P hot)
    (hkeeps : ∀ pkg d, staging.lookup pkg = some d → LoadKeeps hot pkg d)
    (hP : ∀ pkg d, staging.lookup pkg = some d → ∀ iface sig, d.interfaces.lookup iface = some sig →
      P pkg iface ⟨d.version, d.lastUpdated⟩ sig)
    (now : Int64) : Versioned P (hot.applyLoadComplete staging now) := by
  have hloop : ∀ (entries : List (Sigma fun _ : String => PackageData)) (hot : HotCopy),
      entries.NodupKeys → Versioned P hot → (∀ e ∈ entries, LoadKeeps hot e.1 e.2) →
      (∀ e ∈ entries, ⟨e.1, e.2⟩ ∈ staging.entries) →
      Versioned P (entries.foldl (HotCopy.loadPackage now) hot) := by
    intro entries
    induction entries with
    | nil => exact fun _ _ h _ _ => h
    | cons e entries ih =>
      intro hot hnodup h hkeeps hmem
      obtain ⟨hfresh, hnodup⟩ := List.nodupKeys_cons.1 hnodup
      refine ih _ hnodup ?_ ?_ fun e' he' => hmem e' (List.mem_cons_of_mem e he')
      · exact h.loadPackage (hkeeps e List.mem_cons_self)
          (hP e.1 e.2 (AList.mem_entries_iff.1 (hmem e List.mem_cons_self))) now
      · intro e' he'
        have hne : e'.1 ≠ e.1 := by
          intro heq
          exact hfresh (heq ▸ List.mem_keys_of_mem he')
        obtain ⟨hmeta, hget⟩ := loadPackage_frame now hot e hne
        exact (hkeeps e' (List.mem_cons_of_mem e he')).congr hmeta hget
  exact hloop staging.entries hot staging.nodupKeys h
    (fun e he => hkeeps e.1 e.2 (AList.mem_entries_iff.1 he)) fun e he => he

/-! ### Flushing -/

theorem Versioned.evictWhile (tooMuch : Packages → Bool) (keys : List String) {s : Packages × HotCopy}
    (h : Versioned P s.2) : Versioned P (CacheConfig.evictWhile tooMuch keys s).2 := by
  induction keys generalizing s with
  | nil => exact h
  | cons victim keys ih =>
    rw [CacheConfig.evictWhile]
    split
    · exact ih (h.removePackage victim)
    · exact h

/-- A flush may evict packages, and does nothing else to the tables in memory. -/
theorem Versioned.flushToDisk (h : Versioned P hot) (cfg : CacheConfig) (env : StepEnv) (dirty : List String)
    (disk : Option DiskJson) : Versioned P (cfg.flushToDisk env dirty disk hot).2 := by
  rw [CacheConfig.flushToDisk]
  apply Versioned.evictWhile
  apply Versioned.evictWhile
  exact h

end HotCopy

namespace SignatureWriter

/-! ### Runs -/

/-- A `Put` of the events, or a record of a load, supplied the table for this version. -/
def Supplied (events : List WriterEvent) (pkg iface : String) (info : PackageMeta) (sig : Signatures) : Prop :=
  ∃ env, .received (.put pkg iface info.versionCode info.lastUpdateTime sig) env ∈ events ∨
    ∃ staging d, .received (.loadComplete staging) env ∈ events ∧ staging.lookup pkg = some d ∧
      d.version = info.versionCode ∧ d.lastUpdated = info.lastUpdateTime ∧
      d.interfaces.lookup iface = some sig

/-- What `get` returns for a version was supplied for that version. -/
def Coherent (events : List WriterEvent) (s : SignatureWriter) : Prop :=
  ∀ pkg iface ver mtime sig, s.get pkg iface ver mtime = some sig → Supplied events pkg iface ⟨ver, mtime⟩ sig

/-- The event does not put tables of one version under another. -/
def KeepsVersion (s : SignatureWriter) : WriterEvent → Prop
  | .received (.put pkg iface ver mtime _) _ => s.hot.PutKeeps pkg iface ver mtime
  | .received (.loadComplete staging) _ => ∀ pkg d, staging.lookup pkg = some d → s.hot.LoadKeeps pkg d
  | _ => True

theorem Supplied.mono {events : List WriterEvent} (e : WriterEvent) {pkg iface : String} {info : PackageMeta}
    {sig : Signatures} (h : Supplied events pkg iface info sig) :
    Supplied (events ++ [e]) pkg iface info sig := by
  obtain ⟨env, hput | ⟨staging, d, hload, hd⟩⟩ := h
  · exact ⟨env, .inl (List.mem_append_left [e] hput)⟩
  · exact ⟨env, .inr ⟨staging, d, List.mem_append_left [e] hload, hd⟩⟩

theorem coherent_of_versioned {events : List WriterEvent} {s : SignatureWriter}
    (h : s.hot.Versioned (Supplied events)) : Coherent events s := by
  intro pkg iface ver mtime sig hget
  rw [get] at hget
  cases hinfo : s.hot.packageMeta.lookup pkg with
  | none =>
    rw [hinfo] at hget
    exact nomatch hget
  | some info =>
    simp only [hinfo] at hget
    split at hget
    · exact nomatch hget
    · next hsame =>
      obtain ⟨info', hinfo', hsupplied⟩ := h pkg iface sig hget
      rw [hinfo] at hinfo'
      cases hinfo'
      rw [not_or, not_not, not_not] at hsame
      obtain ⟨rfl, rfl⟩ := hsame
      exact hsupplied

theorem versioned_flushBatch {P : String → String → PackageMeta → Signatures → Prop} {s : SignatureWriter}
    (h : s.hot.Versioned P) (cfg : CacheConfig) (env : StepEnv) : (s.flushBatch cfg env).hot.Versioned P := by
  rw [flushBatch]
  split
  · exact h.flushToDisk cfg env s.pendingDirty s.disk
  · exact h

/-- One turn of the writer. -/
theorem versioned_step (cfg : CacheConfig) {events : List WriterEvent} {s : SignatureWriter} {e : WriterEvent}
    (h : s.hot.Versioned (Supplied events)) (hkeeps : s.KeepsVersion e) :
    (s.step cfg e).hot.Versioned (Supplied (events ++ [e])) := by
  have hmono : s.hot.Versioned (Supplied (events ++ [e])) := h.mono fun _ _ _ _ => Supplied.mono e
  have hlast : e ∈ events ++ [e] := List.mem_append_right events List.mem_cons_self
  match e with
  | .timeout env =>
    rw [step]
    split
    · exact hmono.flushToDisk cfg env s.pendingDirty s.disk
    · exact hmono
  | .received (.put pkg iface ver mtime sig) env =>
    apply versioned_flushBatch
    exact hmono.applyPut hkeeps ⟨env, .inl hlast⟩ env.now
  | .received (.invalidate pkg) env =>
    apply versioned_flushBatch
    exact hmono.removePackage pkg
  | .received (.loadComplete staging) env =>
    apply versioned_flushBatch
    apply hmono.applyLoadComplete hkeeps
    intro pkg d hd iface sig hsig
    exact ⟨env, .inr ⟨staging, d, hlast, hd, rfl, rfl, hsig⟩⟩
  | .received .flush env =>
    rw [step]
    split
    · exact hmono.flushToDisk cfg env s.pendingDirty s.disk
    · exact hmono

/-- **Along every run whose events keep the versions, `get` returns for a version only what was supplied
for it.** -/
theorem coherent_of_keepsVersion (cfg : CacheConfig) (disk : Option DiskJson) (events : List WriterEvent)
    (h : ∀ done e, done ++ [e] <+: events → (run cfg { disk } done).KeepsVersion e)
    (done : List WriterEvent) (hdone : done <+: events) : Coherent done (run cfg { disk } done) := by
  apply coherent_of_versioned
  refine foldl_schedule (P := fun done (s : SignatureWriter) => s.hot.Versioned (Supplied done)) ?_ ?_ done hdone
  · intro pkg iface sig hget
    exact nomatch hget
  · intro done e hpre hversioned
    exact versioned_step cfg hversioned (h done e hpre)

/-- A configuration in which nothing is evicted, and a moment. -/
def sampleConfig : CacheConfig where
  packageLength := fun _ => 0
  packagesLength := fun _ => 0

def sampleEnv : StepEnv where
  now := 1
  packageOrder := ⟨id, List.Perm.refl⟩
  interfaceOrder := ⟨id, List.Perm.refl⟩

/-- The table of an interface with one method. -/
def sampleTable (method : String) : Signatures :=
  (∅ : Signatures).insert method { methodName := method, paramTypes := [], returnType := none }

/-- A `Put` for version `ver` of the package. -/
def samplePut (iface : String) (ver : Int32) : WriterEvent :=
  .received (.put "com.example" iface ver 0 (sampleTable "call")) sampleEnv

/-- An upgrade after which the package is invalidated. -/
def invalidatedUpgrade : List WriterEvent :=
  [samplePut "IFoo" 1, .received (.invalidate "com.example") sampleEnv, samplePut "IBar" 2,
    .received .flush sampleEnv]

theorem invalidatedUpgrade_coherent :
    Coherent invalidatedUpgrade (run sampleConfig {} invalidatedUpgrade) ∧
      (run sampleConfig {} invalidatedUpgrade).get "com.example" "IFoo" 2 0 = none := by
  refine ⟨?_, by decide +kernel⟩
  refine coherent_of_keepsVersion sampleConfig none invalidatedUpgrade ?_ _ (List.prefix_refl _)
  intro done e hpre
  obtain ⟨hdone, he⟩ := next_in_schedule hpre
  rw [hdone]
  match done.length, he with
  | 0, he =>
    cases he
    intro info hinfo
    exact nomatch hinfo
  | 1, he =>
    cases he
    trivial
  | 2, he =>
    cases he
    intro info hinfo
    exact nomatch hinfo
  | 3, he =>
    cases he
    trivial

/-- An upgrade that is noticed while another interface is resolved: the table of the old version is
returned for the new one. -/
theorem unnoticed_upgrade_incoherent :
    let events := [samplePut "IFoo" 1, samplePut "IBar" 2]
    ∃ sig, (run sampleConfig {} events).get "com.example" "IFoo" 2 0 = some sig ∧
      ¬Coherent events (run sampleConfig {} events) := by
  intro events
  have hget : (run sampleConfig {} events).get "com.example" "IFoo" 2 0 = some (sampleTable "call") := rfl
  refine ⟨_, hget, fun h => ?_⟩
  obtain ⟨env, hput | ⟨staging, d, hload, -⟩⟩ := h _ _ _ _ _ hget
  · simp [events, samplePut] at hput
  · simp [events, samplePut] at hload

end SignatureWriter

end BinderTracer.App
