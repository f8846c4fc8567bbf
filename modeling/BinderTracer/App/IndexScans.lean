import BinderTracer.Lib.JsonText
import BinderTracer.App.LoaderVersions
import BinderTracer.App.InterfaceIndex

/-!
# Scans for the interface index

`scanAsync` builds the index anew: it loads the saved index, clears it, collects the packages to scan and adds what
it finds in them. `scanPackageAsync` adds what it finds in one package. A scan and any number of these merges go on
at the same time, and so does the registry of class loaders. Each section under the lock of the index, each read
and write of the saved text and each scan of a package is one step.

A merge may add entries that the clear of a scan then removes. But the packages to scan are collected after the
clear, so that a package which is monitored by then is found again: at any time an entry of a monitored package is
in the index, or its merge will still add it, or the scan will (`Accounted`).
-/

namespace BinderTracer.App.IndexScans

open BinderTracer.Lib

/-! ### Steps -/

/-- What the system answers. A package that is not found or cannot be scanned has no answer; one without a name is
not found. -/
structure Environment where
  tables : CharTables
  codec : JsonCodec
  order : SetOrder String
  installedPackages : Nat → Option (List InstalledPackage)
  getApplicationInfo : Nat → String → Option ApplicationInfo
  unnamed : ∀ n, getApplicationInfo n "" = none
  dex : Nat → String → Option DexReads

/-- The `n`-th scan of a package. -/
def Environment.scan (env : Environment) (n : Nat) (pkg : String) : Option (List String) :=
  match env.getApplicationInfo n pkg, env.dex n pkg with
  | some ai, some dex => some (scanPackage env.tables dex ai)
  | _, _ => none

/-- What `scanAsync` has to do next. -/
inductive ScanStage where
  | load
  | enter (parsed : InterfaceIndex)
  | clear
  | collect
  | packages (candidates : List String)
  /-- What was found in a package is added. -/
  | add (pkg : String) (stubs candidates : List String)
  | snapshot
  | write (json : String)
  | invalidate

/-- What `scanPackageAsync` has to do next. -/
inductive MergeStage where
  | scan
  /-- The rest of what was found is added. -/
  | add (descriptors rest : List String)
  | write (json : String)
  | done
deriving DecidableEq

structure Merge where
  packageName : String
  stage : MergeStage
deriving DecidableEq

structure State where
  registry : Registry := {}
  index : InterfaceIndex := {}
  /-- The saved text. -/
  prefs : Option String := none
  /-- The scan that is in progress. -/
  scan : Option ScanStage := none
  merges : List Merge := []
  /-- The packages whose methods were to be resolved again. -/
  invalidated : List String := []
  /-- How many scans of packages there were. -/
  scanned : Nat := 0

inductive Action where
  | registry (action : RegistryAction)
  | scanAsync
  | scanPackageAsync (packageName : String)
  /-- The scan goes on. -/
  | advanceScan
  /-- The merge at `i` goes on. -/
  | advanceMerge (i : Nat)
deriving DecidableEq

namespace State

/-- `AppClassLoaderRegistry.monitoredPackages`. -/
def monitoredPackages (s : State) : List String := s.registry.classLoaders.keys

/-- The class loader of a package is ready. -/
def Ready (s : State) (pkg : String) : Prop := pkg ∈ s.monitoredPackages

instance (s : State) (pkg : String) : Decidable (s.Ready pkg) :=
  inferInstanceAs (Decidable (pkg ∈ s.monitoredPackages))

def scanAsync (s : State) : State :=
  match s.scan with
  | some _ => s
  | none => { s with scan := some .load }

def scanPackageAsync (s : State) (packageName : String) : State :=
  { s with merges := s.merges ++ [⟨packageName, if packageName = "" then .done else .scan⟩] }

end State

section
variable (env : Environment)

def scanStep (s : State) : ScanStage → State
  | .load =>
    match s.prefs with
    | none => { s with scan := some .clear }
    | some json => { s with scan := some (.enter (.parseJson env.codec env.order json)) }
  | .enter parsed => { s with index := s.index.load parsed, scan := some .clear }
  | .clear => { s with index := s.index.clear, scan := some .collect }
  | .collect =>
    let candidates := collectCandidatePackages env.order (env.installedPackages s.scanned) s.monitoredPackages
    { s with scan := some (.packages candidates) }
  | .packages [] => { s with scan := some .snapshot }
  | .packages (pkg :: candidates) =>
    let stage :=
      match env.scan s.scanned pkg with
      | some stubs => .add pkg stubs candidates
      | none => .packages candidates
    { s with scanned := s.scanned + 1, scan := some stage }
  | .add _ [] candidates => { s with scan := some (.packages candidates) }
  | .add pkg (iface :: stubs) candidates =>
    { s with index := s.index.addEntry iface pkg, scan := some (.add pkg stubs candidates) }
  | .snapshot => { s with scan := some (.write (s.index.serialize env.codec)) }
  | .write json => { s with prefs := some json, scan := some .invalidate }
  | .invalidate => { s with invalidated := s.invalidated ++ s.monitoredPackages, scan := none }

/-- The next step of a merge, and what it has to do after that. -/
def mergeStep (s : State) (pkg : String) : MergeStage → State × MergeStage
  | .scan =>
    let descriptors := (env.scan s.scanned pkg).getD []
    ({ s with scanned := s.scanned + 1 }, .add descriptors descriptors)
  | .add descriptors (d :: rest) =>
    if d = "" then (s, .add descriptors rest)
    else ({ s with index := s.index.addEntry d pkg }, .add descriptors rest)
  | .add descriptors [] => if descriptors = [] then (s, .done) else (s, .write (s.index.serialize env.codec))
  | .write json => ({ s with prefs := some json }, .done)
  | .done => (s, .done)

def step (s : State) : Action → Except Blocked State
  | .registry action => (s.registry.step action).map fun registry => { s with registry }
  | .scanAsync => .ok s.scanAsync
  | .scanPackageAsync packageName => .ok (s.scanPackageAsync packageName)
  | .advanceScan =>
    match s.scan with
    | none => .error .blocked
    | some stage => .ok (scanStep env s stage)
  | .advanceMerge i =>
    match s.merges[i]? with
    | none | some ⟨_, .done⟩ => .error .blocked
    | some m =>
      let next := mergeStep env s m.packageName m.stage
      .ok { next.1 with merges := s.merges.set i { m with stage := next.2 } }

end

/-! ### What is still to be added -/

/-- The scan will yet add the package to the interface, if the package is ready when the packages are collected. -/
def ScanStage.Owes (pkg d : String) : ScanStage → Prop
  | .collect => True
  | .packages candidates => pkg ∈ candidates
  | .add current stubs candidates => (current = pkg ∧ d ∈ stubs) ∨ pkg ∈ candidates
  | _ => False

/-- The merge will yet add its package to the interface. -/
def MergeStage.Owes (d : String) : MergeStage → Prop
  | .scan => True
  | .add _ rest => d ∈ rest
  | _ => False

/-- The package is in the index under the interface, or the scan or the merge at `k` will add it. -/
def State.Accounted (s : State) (pkg d : String) (k : Nat) : Prop :=
  pkg ∈ s.index.lookupOrdered d ∨ (∃ stage, s.scan = some stage ∧ stage.Owes pkg d) ∨
    ∃ stage, s.merges[k]? = some ⟨pkg, stage⟩ ∧ stage.Owes d

/-- A package that can be scanned has a name, and so have its interfaces. -/
theorem Environment.ne_empty_of_scan {env : Environment} {n : Nat} {pkg : String} {descriptors : List String}
    (h : env.scan n pkg = some descriptors) : pkg ≠ "" ∧ ∀ d ∈ descriptors, d ≠ "" := by
  rw [scan] at h
  split at h
  · next ai dex hai _ =>
    cases h
    constructor
    · rintro rfl
      rw [env.unnamed n] at hai
      cases hai
    · exact fun d hd => ne_empty_of_mem_scanPackage hd
  · cases h

section
variable {env : Environment} {pkg d : String} {descriptors : List String} {s : State}

/-- A step of the scan leaves the merges and the registry alone. -/
theorem scanStep_frame (s : State) (stage : ScanStage) :
    (scanStep env s stage).merges = s.merges ∧ (scanStep env s stage).registry = s.registry := by
  unfold scanStep
  split <;> first | exact ⟨rfl, rfl⟩ | (split <;> exact ⟨rfl, rfl⟩)

/-- A step of a merge leaves the scan and the registry alone. -/
theorem mergeStep_frame (s : State) (p : String) (stage : MergeStage) :
    (mergeStep env s p stage).1.scan = s.scan ∧ (mergeStep env s p stage).1.registry = s.registry := by
  unfold mergeStep
  split <;> first | exact ⟨rfl, rfl⟩ | (split <;> exact ⟨rfl, rfl⟩)

/-- A step of a merge takes nothing from the index. -/
theorem lookupOrdered_mergeStep (h : pkg ∈ s.index.lookupOrdered d) (p : String) (stage : MergeStage) :
    pkg ∈ (mergeStep env s p stage).1.index.lookupOrdered d := by
  unfold mergeStep
  split
  · exact h
  · split
    · exact h
    · exact InterfaceIndex.mem_lookupOrdered_addEntry.2 (.inl h)
  · split <;> exact h
  · exact h
  · exact h

-- every scan of the package finds the same interfaces
variable (hscan : ∀ n, env.scan n pkg = some descriptors) (hd : d ∈ descriptors)
include hscan hd

/-- A step of the scan adds an entry that it owes or goes on owing it. What it clears, it owes. -/
theorem scanStep_owes (hready : s.Ready pkg) {stage : ScanStage}
    (h : pkg ∈ s.index.lookupOrdered d ∨ stage.Owes pkg d) :
    pkg ∈ (scanStep env s stage).index.lookupOrdered d ∨
      ∃ next, (scanStep env s stage).scan = some next ∧ next.Owes pkg d := by
  obtain ⟨hpkg, hnames⟩ := Environment.ne_empty_of_scan (hscan 0)
  cases stage with
  | load =>
    have hmem := h.resolve_right id
    rw [scanStep]
    split <;> exact .inl hmem
  | enter parsed => exact .inl (InterfaceIndex.mem_lookupOrdered_load.2 (.inl (h.resolve_right id)))
  | clear => exact .inr ⟨.collect, rfl, trivial⟩
  | collect => exact .inr ⟨_, rfl, mem_collectCandidatePackages hready⟩
  | packages candidates =>
    cases candidates with
    | nil => exact .inl (h.resolve_right List.not_mem_nil)
    | cons p candidates =>
      rcases h with hmem | howes
      · exact .inl hmem
      · refine .inr ⟨_, rfl, ?_⟩
        rcases List.mem_cons.1 howes with rfl | hmem
        · rw [hscan]
          exact .inl ⟨rfl, hd⟩
        · cases env.scan s.scanned p with
          | none => exact hmem
          | some stubs => exact .inr hmem
  | add current stubs candidates =>
    cases stubs with
    | nil =>
      refine h.imp_right fun howes => ⟨_, rfl, ?_⟩
      exact howes.resolve_left fun hcurrent => List.not_mem_nil hcurrent.2
    | cons iface stubs =>
      rcases h with hmem | ⟨rfl, hstub⟩ | hmem
      · exact .inl (InterfaceIndex.mem_lookupOrdered_addEntry.2 (.inl hmem))
      · rcases List.mem_cons.1 hstub with rfl | hstub
        · exact .inl (InterfaceIndex.mem_lookupOrdered_addEntry.2 (.inr ⟨rfl, rfl, hnames d hd, hpkg⟩))
        · exact .inr ⟨_, rfl, .inl ⟨rfl, hstub⟩⟩
      · exact .inr ⟨_, rfl, .inr hmem⟩
  | snapshot => exact .inl (h.resolve_right id)
  | write json => exact .inl (h.resolve_right id)
  | invalidate => exact .inl (h.resolve_right id)

/-- A step of the merge adds an entry that it owes or goes on owing it. -/
theorem mergeStep_owes {stage : MergeStage} (h : stage.Owes d) :
    pkg ∈ (mergeStep env s pkg stage).1.index.lookupOrdered d ∨ (mergeStep env s pkg stage).2.Owes d := by
  obtain ⟨hpkg, hnames⟩ := Environment.ne_empty_of_scan (hscan 0)
  cases stage with
  | scan =>
    refine .inr ?_
    show d ∈ (env.scan s.scanned pkg).getD []
    rw [hscan]
    exact hd
  | add found rest =>
    cases rest with
    | nil => cases h
    | cons first rest =>
      rw [mergeStep]
      rcases List.mem_cons.1 h with rfl | hrest
      · rw [if_neg (hnames d hd)]
        exact .inl (InterfaceIndex.mem_lookupOrdered_addEntry.2 (.inr ⟨rfl, rfl, hnames d hd, hpkg⟩))
      · split <;> exact .inr hrest
  | write json => cases h
  | done => cases h

theorem State.Accounted.scanStep {stage : ScanStage} {k : Nat} (h : s.Accounted pkg d k) (hready : s.Ready pkg)
    (hstage : s.scan = some stage) : (scanStep env s stage).Accounted pkg d k := by
  have hscanned : pkg ∈ s.index.lookupOrdered d ∨ stage.Owes pkg d →
      (IndexScans.scanStep env s stage).Accounted pkg d k :=
    fun h => (scanStep_owes hscan hd hready h).imp_right .inl
  rcases h with hmem | ⟨stage', hstage', howes⟩ | hmerge
  · exact hscanned (.inl hmem)
  · rw [hstage] at hstage'
    cases hstage'
    exact hscanned (.inr howes)
  · refine .inr (.inr ?_)
    rwa [(scanStep_frame s stage).1]

/-- A merge goes on, be it the one that owes the entry or another. -/
theorem State.Accounted.mergeStep {m : Merge} {i k : Nat} (h : s.Accounted pkg d k) (hm : s.merges[i]? = some m) :
    State.Accounted
      { (mergeStep env s m.packageName m.stage).1 with
        merges := s.merges.set i { m with stage := (mergeStep env s m.packageName m.stage).2 } } pkg d k := by
  rcases h with hmem | hscanned | ⟨stage, hstage, howes⟩
  · exact .inl (lookupOrdered_mergeStep hmem _ _)
  · exact .inr (.inl (by rwa [← (mergeStep_frame s m.packageName m.stage).1] at hscanned))
  · by_cases hi : i = k
    · subst hi
      rw [hm] at hstage
      cases hstage
      refine (mergeStep_owes hscan hd howes).imp_right fun hnext => .inr ⟨_, ?_, hnext⟩
      exact List.getElem?_set_self (List.getElem?_eq_some_iff.1 hm).1
    · exact .inr (.inr ⟨stage, (List.getElem?_set_ne hi).trans hstage, howes⟩)

/-- No step loses track of an entry of a package that is ready. -/
theorem State.Accounted.step {s' : State} {a : Action} {k : Nat} (h : s.Accounted pkg d k) (hready : s.Ready pkg)
    (hstep : step env s a = .ok s') : s'.Accounted pkg d k := by
  cases a with
  | registry action =>
    obtain ⟨registry, -, rfl⟩ := exists_of_map_eq_ok hstep
    exact h
  | scanAsync =>
    cases hstep
    unfold State.scanAsync
    split
    · exact h
    · next hnone =>
      -- a scan that has not begun owes nothing
      refine h.imp_right (.imp_left ?_)
      rintro ⟨stage, hstage, -⟩
      rw [hnone] at hstage
      cases hstage
  | scanPackageAsync packageName =>
    cases hstep
    refine h.imp_right (.imp_right ?_)
    rintro ⟨stage, hstage, howes⟩
    have hk := (List.getElem?_eq_some_iff.1 hstage).1
    exact ⟨stage, (List.getElem?_append_left hk).trans hstage, howes⟩
  | advanceScan =>
    rw [IndexScans.step] at hstep
    split at hstep
    · cases hstep
    · next stage hstage =>
      cases hstep
      exact h.scanStep hscan hd hready hstage
  | advanceMerge i =>
    rw [IndexScans.step] at hstep
    split at hstep
    · cases hstep
    · cases hstep
    · next m _ hm =>
      cases hstep
      exact h.mergeStep hscan hd hm

end

/-! ### How long a loader stays ready -/

theorem ready_step {env : Environment} {s s' : State} {a : Action} {pkg : String} (h : s.Ready pkg)
    (ha : ∀ packageInfo now, a ≠ .registry (.prepareAsync pkg packageInfo now)) (hstep : step env s a = .ok s') :
    s'.Ready pkg := by
  cases a with
  | registry action =>
    obtain ⟨registry, hregistry, rfl⟩ := exists_of_map_eq_ok hstep
    have haction : ∀ packageInfo now, action ≠ .prepareAsync pkg packageInfo now :=
      fun packageInfo now heq => ha packageInfo now (heq ▸ rfl)
    exact AList.mem_keys.1 (Registry.mem_classLoaders_step (AList.mem_keys.2 h) haction hregistry)
  | scanAsync =>
    cases hstep
    unfold State.scanAsync
    split <;> exact h
  | scanPackageAsync packageName =>
    cases hstep
    exact h
  | advanceScan =>
    rw [step] at hstep
    split at hstep
    · cases hstep
    · next stage _ =>
      cases hstep
      rwa [State.Ready, State.monitoredPackages, (scanStep_frame s stage).2]
  | advanceMerge i =>
    rw [step] at hstep
    split at hstep
    · cases hstep
    · cases hstep
    · next m _ _ =>
      cases hstep
      show pkg ∈ (mergeStep env s m.packageName m.stage).1.registry.classLoaders.keys
      rwa [(mergeStep_frame s m.packageName m.stage).2]

/-- A loader stays ready until `prepareAsync` is called for its package. -/
theorem stepsMeet_ready {env : Environment} {s : State} {actions : List Action} {pkg : String} (h : s.Ready pkg)
    (hnone : ∀ packageInfo now, .registry (.prepareAsync pkg packageInfo now) ∉ actions) :
    StepsMeet (step env) (fun s _ => s.Ready pkg) s actions := by
  intro done a hpre m hm
  refine run_along (P := fun _ s => s.Ready pkg) h ?_ hm
  intro before o t t' hbefore _ ht hstep
  refine ready_step ht ?_ hstep
  rintro packageInfo now rfl
  have hdone : .registry (.prepareAsync pkg packageInfo now) ∈ done := hbefore.subset (by simp)
  exact hnone packageInfo now (hpre.subset (List.mem_append_left _ hdone))

/-! ### Monitored packages -/

/-- **A monitored package is not lost from the index**: if every scan of it finds the same interfaces, and its class
loader is ready from the call of `scanPackageAsync` on, then the index has the package under each of them whenever
this merge is done and no scan is in progress, whatever the scan and other merges did before and after the call. -/
theorem monitored_package_indexed {env : Environment} {pkg : String} {descriptors : List String}
    (hscan : ∀ n, env.scan n pkg = some descriptors) {m s : State} {actions : List Action}
    (hrun : run (step env) (m.scanPackageAsync pkg) actions = .ok s)
    (hready : StepsMeet (step env) (fun s _ => s.Ready pkg) (m.scanPackageAsync pkg) actions)
    (hmerged : s.merges[m.merges.length]? = some ⟨pkg, .done⟩) (hscanned : s.scan = none) :
    ∀ d ∈ descriptors, pkg ∈ s.index.lookupOrdered d := by
  intro d hd
  have hpkg := (Environment.ne_empty_of_scan (hscan 0)).1
  have hstart : (m.scanPackageAsync pkg).Accounted pkg d m.merges.length := by
    refine .inr (.inr ⟨.scan, ?_, trivial⟩)
    rw [State.scanPackageAsync, if_neg hpkg]
    exact List.getElem?_concat_length
  have hend : s.Accounted pkg d m.merges.length := by
    refine run_along (P := fun _ s => s.Accounted pkg d m.merges.length) hstart ?_ hrun
    intro done a t t' hpre ht hacc hstep
    exact hacc.step hscan hd (hready done a hpre t ht) hstep
  rcases hend with hmem | ⟨stage, hstage, -⟩ | ⟨stage, hstage, howes⟩
  · exact hmem
  · rw [hscanned] at hstage
    cases hstage
  · rw [hmerged] at hstage
    cases hstage
    exact howes.elim

/-- One file with one stub, found under every package that has a name. -/
def oneStub : Environment where
  tables := asciiTables
  codec := .compact
  order := .listed
  installedPackages _ := none
  getApplicationInfo _ pkg := if pkg = "" then none else some ⟨some "base.apk", none⟩
  unnamed _ := rfl
  dex _ _ := some ⟨fun _ => ["a.IFoo", "a.IFoo$Stub"], fun _ => true, fun _ _ => some "a.IFoo"⟩

/-- The loader of `p` is ready. -/
def oneMonitored : State where
  registry := { classLoaders := (∅ : Table String PackageMeta).insert "p" ⟨1, 10⟩ }

/-- A scan clears the index between the entry of the merge and its end, and scans the package again. -/
def clearedMerge : List Action :=
  [.advanceMerge 0, .advanceMerge 0, .scanAsync, .advanceScan, .advanceScan, .advanceMerge 0, .advanceScan,
    .advanceScan, .advanceScan, .advanceScan, .advanceScan, .advanceScan, .advanceMerge 0, .advanceScan,
    .advanceScan]

theorem monitored_package_indexed_clearedMerge :
    ∃ s, run (step oneStub) (oneMonitored.scanPackageAsync "p") clearedMerge = .ok s ∧ s.scan = none ∧
      "p" ∈ s.index.lookupOrdered "a.IFoo" := by
  have hscan : ∀ n, oneStub.scan n "p" = some ["a.IFoo"] := by
    intro n
    have hfirst : oneStub.scan 0 "p" = some ["a.IFoo"] := by decide +kernel
    exact hfirst
  have hready : StepsMeet (step oneStub) (fun s _ => s.Ready "p") (oneMonitored.scanPackageAsync "p") clearedMerge :=
    stepsMeet_ready (by decide) (by simp [clearedMerge])
  obtain ⟨s, hs, hmerged, hscanned⟩ : ∃ s : State,
      run (step oneStub) (oneMonitored.scanPackageAsync "p") clearedMerge = .ok s ∧
        s.merges[0]? = some ⟨"p", .done⟩ ∧ s.scan = none :=
    exists_of_endsIn (by decide +kernel)
  exact ⟨s, hs, hscanned, monitored_package_indexed hscan hs hready hmerged hscanned _ List.mem_cons_self⟩

end BinderTracer.App.IndexScans
