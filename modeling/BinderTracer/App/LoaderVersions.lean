import BinderTracer.App.AppClassLoaderRegistry

/-!
# Class loaders and recorded versions

A loader that stays in the registry should be of the version that is recorded for its package. A build that
has copied the APK publishes its loader even if `prepareAsync` has recorded a new version since; the build
launched then finds a loader and does nothing, and later calls find nothing to do either. Where no upgrade
is noticed between the copying and the publishing, and none is overlooked, the versions agree.
-/

namespace BinderTracer.App.Registry

open BinderTracer.Lib

/-- No build of the package runs or waits, and it was not upgraded since the last `prepareAsync`. -/
structure Quiescent (s : Registry) (pkg : String) : Prop where
  notRunning : ∀ stage, s.running ≠ some (pkg, stage)
  notQueued : pkg ∉ s.queued
  notUpgraded : pkg ∉ s.upgraded

/-- The loader of a package that is left alone is of the recorded version. -/
def LoadersMatch (s : Registry) : Prop :=
  ∀ pkg, s.Quiescent pkg → ∀ copied, s.classLoaders.lookup pkg = some copied →
    s.packageMeta.lookup pkg = some copied

/-- The version recorded for the package, if any, is installed. -/
def UpToDate (s : Registry) (pkg : String) : Prop :=
  s.packageMeta.lookup pkg = none ∨ s.packageMeta.lookup pkg = s.installed.lookup pkg

/-- An upgrade does not bring back the recorded version; `prepareAsync` does not notice an upgrade between the
copying of another version and the publishing, and does not overlook one because the package manager fails; and a
build can read the metadata. -/
def Orderly (s : Registry) : RegistryAction → Prop
  | .upgrade pkg version => s.packageMeta.lookup pkg ≠ some version
  | .prepareAsync pkg false _ => s.UpToDate pkg
  | .prepareAsync pkg true _ =>
    match s.running with
    | some (pkg', .publish copied) =>
      pkg' = pkg → s.packageMeta.lookup pkg = s.installed.lookup pkg ∨ s.installed.lookup pkg = some copied
    | _ => True
  | .readMeta packageInfo _ _ => packageInfo = true
  | _ => True

instance (s : Registry) (a : RegistryAction) : Decidable (s.Orderly a) := by
  unfold Orderly
  split
  · infer_instance
  · exact inferInstanceAs (Decidable (_ ∨ _))
  · split <;> infer_instance
  · infer_instance
  · infer_instance

/-- A version is recorded, and the copy is of it as long as it is installed. -/
def Matches (s : Registry) (pkg : String) (copied : PackageMeta) : Prop :=
  ∃ recorded, s.packageMeta.lookup pkg = some recorded ∧
    (s.installed.lookup pkg = some recorded → copied = recorded)

/-- What an orderly run keeps. -/
structure Inv (s : Registry) : Prop where
  known : ∀ pkg recorded, s.packageMeta.lookup pkg = some recorded → (s.installed.lookup pkg).isSome
  recorded : ∀ pkg, pkg ∉ s.upgraded → ∀ recorded, s.packageMeta.lookup pkg = some recorded →
    s.installed.lookup pkg = some recorded
  loader : ∀ pkg copied, s.classLoaders.lookup pkg = some copied → s.Matches pkg copied
  building : ∀ pkg stage, s.running = some (pkg, stage) → s.classLoaders.lookup pkg = none
  copying : ∀ pkg, s.running = some (pkg, .copy) → (s.packageMeta.lookup pkg).isSome
  publishing : ∀ pkg copied, s.running = some (pkg, .publish copied) → s.Matches pkg copied

variable {s t : Registry}

theorem Inv.start (installed : Table String PackageMeta) : Inv { installed } where
  known := by rintro pkg recorded ⟨⟩
  recorded := by rintro pkg - recorded ⟨⟩
  loader := by rintro pkg copied ⟨⟩
  building := by rintro pkg stage ⟨⟩
  copying := by rintro pkg ⟨⟩
  publishing := by rintro pkg copied ⟨⟩

/-- The state agrees on what the invariant is about. -/
structure SameVersions (s t : Registry) : Prop where
  installed : t.installed = s.installed
  classLoaders : t.classLoaders = s.classLoaders
  packageMeta : t.packageMeta = s.packageMeta
  upgraded : t.upgraded = s.upgraded

theorem Matches.congr {pkg : String} {copied : PackageMeta} (h : s.Matches pkg copied)
    (hsame : SameVersions s t) : t.Matches pkg copied := by
  rw [Matches, hsame.installed, hsame.packageMeta]
  exact h

/-- Only the build that runs may have changed, for one that is as far or has ended. -/
theorem Inv.congr (h : s.Inv) (hsame : SameVersions s t) (hrunning : t.running = s.running ∨ t.running = none) :
    t.Inv := by
  have hback : ∀ pkg stage, t.running = some (pkg, stage) → s.running = some (pkg, stage) := by
    intro pkg stage hr
    rcases hrunning with heq | hnone
    · exact heq ▸ hr
    · rw [hnone] at hr
      cases hr
  refine ⟨?_, ?_, ?_, ?_, ?_, ?_⟩
  · rw [hsame.packageMeta, hsame.installed]
    exact h.known
  · rw [hsame.packageMeta, hsame.installed, hsame.upgraded]
    exact h.recorded
  · intro pkg copied hloader
    rw [hsame.classLoaders] at hloader
    exact (h.loader pkg copied hloader).congr hsame
  · intro pkg stage hr
    rw [hsame.classLoaders]
    exact h.building pkg stage (hback pkg stage hr)
  · intro pkg hr
    rw [hsame.packageMeta]
    exact h.copying pkg (hback pkg _ hr)
  · intro pkg copied hr
    exact (h.publishing pkg copied (hback pkg _ hr)).congr hsame

theorem Inv.finish (h : s.Inv) (pkg : String) : (s.finish pkg).Inv :=
  h.congr ⟨rfl, rfl, rfl, rfl⟩ (.inr rfl)

theorem Inv.fail (h : s.Inv) (pkg : String) (kind : ErrorKind) (info : Option PackageMeta) (now : Int64) :
    (s.fail pkg kind info now).Inv :=
  h.congr ⟨rfl, rfl, rfl, rfl⟩ (.inr rfl)

/-! ### One step -/

/-- A version that is not the recorded one is installed. -/
theorem Matches.upgrade {pkg pkg' : String} {copied version : PackageMeta} (h : s.Matches pkg' copied)
    (hnew : s.packageMeta.lookup pkg ≠ some version) (upgraded : List String) :
    Matches { s with installed := s.installed.insert pkg version, upgraded } pkg' copied := by
  obtain ⟨recorded, hrecorded, hcopied⟩ := h
  refine ⟨recorded, hrecorded, ?_⟩
  intro hinstalled
  by_cases hpkg : pkg' = pkg
  · subst hpkg
    rw [AList.lookup_insert] at hinstalled
    exact absurd (hrecorded.trans hinstalled.symm) hnew
  · rw [AList.lookup_insert_ne hpkg] at hinstalled
    exact hcopied hinstalled

theorem Inv.upgrade (h : s.Inv) {pkg : String} {version : PackageMeta}
    (hnew : s.packageMeta.lookup pkg ≠ some version) :
    Inv { s with installed := s.installed.insert pkg version, upgraded := pkg :: s.upgraded } where
  known pkg' recorded hrecorded := by
    by_cases hpkg : pkg' = pkg
    · subst hpkg
      simp
    · simp only [AList.lookup_insert_ne hpkg]
      exact h.known pkg' recorded hrecorded
  recorded pkg' hnot recorded hrecorded := by
    rw [List.mem_cons, not_or] at hnot
    obtain ⟨hpkg, hnot⟩ := hnot
    simp only [AList.lookup_insert_ne hpkg]
    exact h.recorded pkg' hnot recorded hrecorded
  loader pkg' copied hloader := (h.loader pkg' copied hloader).upgrade hnew _
  building := h.building
  copying := h.copying
  publishing pkg' copied hrunning := (h.publishing pkg' copied hrunning).upgrade hnew _

theorem sameVersions_launchBuild (s : Registry) (pkg : String) (pmSnapshot : PackageMeta) (now : Int64) :
    SameVersions s (s.launchBuild pkg pmSnapshot now) ∧ (s.launchBuild pkg pmSnapshot now).running = s.running := by
  unfold launchBuild
  split
  · exact ⟨⟨rfl, rfl, rfl, rfl⟩, rfl⟩
  · split
    · exact ⟨⟨rfl, rfl, rfl, rfl⟩, rfl⟩
    · exact ⟨⟨rfl, rfl, rfl, rfl⟩, rfl⟩

theorem mem_upgraded_filter {upgraded : List String} {pkg pkg' : String}
    (h : pkg' ∉ upgraded.filter (· ≠ pkg)) : pkg' = pkg ∨ pkg' ∉ upgraded := by
  by_cases hpkg : pkg' = pkg
  · exact .inl hpkg
  · exact .inr fun hmem => h (List.mem_filter.2 ⟨hmem, by simpa using hpkg⟩)

/-- The recorded version is the installed one: nothing is noticed. -/
theorem Inv.settle (h : s.Inv) {pkg : String}
    (hsame : ∀ recorded, s.packageMeta.lookup pkg = some recorded → s.installed.lookup pkg = some recorded) :
    Inv { s with upgraded := s.upgraded.filter (· ≠ pkg) } where
  known := h.known
  recorded pkg' hnot recorded hrecorded := by
    rcases mem_upgraded_filter hnot with rfl | hnot
    · exact hsame recorded hrecorded
    · exact h.recorded pkg' hnot recorded hrecorded
  loader := h.loader
  building := h.building
  copying := h.copying
  publishing := h.publishing

/-- A version is recorded for another package. -/
theorem Matches.recorded_ne {pkg pkg' : String} {copied version : PackageMeta} (h : s.Matches pkg' copied)
    (hpkg : pkg' ≠ pkg) (hinstalled : t.installed = s.installed)
    (hmeta : t.packageMeta = s.packageMeta.insert pkg version) : t.Matches pkg' copied := by
  rw [Matches, hinstalled, hmeta, AList.lookup_insert_ne hpkg]
  exact h

/-- An upgrade is noticed while no build holds a copy of another version. -/
theorem Inv.noticed (h : s.Inv) {pkg : String} {version : PackageMeta}
    (hinstalled : s.installed.lookup pkg = some version)
    (hcopy : ∀ copied, s.running = some (pkg, .publish copied) → copied = version)
    (invalidated : List String) (failedPackages : FailedPackages) :
    Inv { s with
      upgraded := s.upgraded.filter (· ≠ pkg), packageMeta := s.packageMeta.insert pkg version
      classLoaders := s.classLoaders.erase pkg, invalidated, failedPackages } where
  known pkg' recorded hrecorded := by
    by_cases hpkg : pkg' = pkg
    · subst hpkg
      simp [hinstalled]
    · simp only [AList.lookup_insert_ne hpkg] at hrecorded
      exact h.known pkg' recorded hrecorded
  recorded pkg' hnot recorded hrecorded := by
    by_cases hpkg : pkg' = pkg
    · subst hpkg
      simp only [AList.lookup_insert] at hrecorded
      exact hinstalled.trans hrecorded
    · simp only [AList.lookup_insert_ne hpkg] at hrecorded
      exact h.recorded pkg' ((mem_upgraded_filter hnot).resolve_left hpkg) recorded hrecorded
  loader pkg' copied hloader := by
    by_cases hpkg : pkg' = pkg
    · subst hpkg
      simp at hloader
    · simp only [AList.lookup_erase_ne hpkg] at hloader
      exact (h.loader pkg' copied hloader).recorded_ne hpkg rfl rfl
  building pkg' stage hrunning := by
    by_cases hpkg : pkg' = pkg
    · subst hpkg
      simp
    · simp only [AList.lookup_erase_ne hpkg]
      exact h.building pkg' stage hrunning
  copying pkg' hrunning := by
    by_cases hpkg : pkg' = pkg
    · subst hpkg
      simp
    · simp only [AList.lookup_insert_ne hpkg]
      exact h.copying pkg' hrunning
  publishing pkg' copied hrunning := by
    by_cases hpkg : pkg' = pkg
    · subst hpkg
      exact ⟨version, AList.lookup_insert _, fun _ => hcopy copied hrunning⟩
    · exact (h.publishing pkg' copied hrunning).recorded_ne hpkg rfl rfl

theorem UpToDate.installed {pkg : String} (h : s.UpToDate pkg) {recorded : PackageMeta}
    (hrecorded : s.packageMeta.lookup pkg = some recorded) : s.installed.lookup pkg = some recorded := by
  rcases h with hnone | hsame
  · cases hnone.symm.trans hrecorded
  · exact hsame.symm.trans hrecorded

theorem Inv.prepareAsync (h : s.Inv) {pkg : String} {packageInfo : Bool} {now : Int64}
    (horderly : s.Orderly (.prepareAsync pkg packageInfo now)) : (s.prepareAsync pkg packageInfo now).Inv := by
  unfold Registry.prepareAsync
  simp only
  split
  · next hnone =>
    have hdate : s.UpToDate pkg := by
      cases packageInfo with
      | false => exact horderly
      | true =>
        refine .inl (Option.eq_none_iff_forall_not_mem.2 fun recorded hrecorded => ?_)
        have hsome := h.known pkg recorded hrecorded
        rw [show s.installed.lookup pkg = none from hnone] at hsome
        cases hsome
    exact (h.settle fun _ => hdate.installed).congr ⟨rfl, rfl, rfl, rfl⟩ (.inl rfl)
  · next version hread =>
    obtain ⟨rfl, hinstalled⟩ : packageInfo = true ∧ s.installed.lookup pkg = some version :=
      Option.ite_none_right_eq_some.1 hread
    have hnoticed : (noticeUpgrade { s with upgraded := s.upgraded.filter (· ≠ pkg) } pkg version).Inv := by
      unfold noticeUpgrade
      simp only
      split
      · next hnone =>
        refine h.settle fun recorded hrecorded => ?_
        rw [hnone] at hrecorded
        cases hrecorded
      · next cached hcached =>
        split
        · next hne =>
          refine h.noticed hinstalled ?_ _ _
          intro copied hrunning
          rw [Orderly, hrunning] at horderly
          rcases horderly rfl with hsame | hsame
          · exact absurd (Option.some.inj (hcached.symm.trans (hsame.trans hinstalled))) hne
          · exact Option.some.inj (hsame.symm.trans hinstalled)
        · next heq =>
          refine h.settle fun recorded hrecorded => ?_
          rw [hinstalled, ← hrecorded, hcached, not_not.1 heq]
    obtain ⟨hsame, hrunning⟩ := sameVersions_launchBuild
      (noticeUpgrade { s with upgraded := s.upgraded.filter (· ≠ pkg) } pkg version) pkg version now
    exact hnoticed.congr hsame (.inl hrunning)

theorem Inv.check (h : s.Inv) {i : Nat} (hstep : s.checkStep i = .ok t) : t.Inv := by
  unfold checkStep at hstep
  split at hstep
  · next pkg hidle _ =>
    simp only at hstep
    split at hstep
    · cases hstep
      exact (h.congr (t := { s with queued := s.queued.eraseIdx i }) ⟨rfl, rfl, rfl, rfl⟩ (.inl rfl)).finish pkg
    · next hnone =>
      cases hstep
      refine ⟨h.known, h.recorded, h.loader, ?_, ?_, ?_⟩
      · rintro pkg' stage ⟨⟩
        simpa using hnone
      · rintro pkg' ⟨⟩
      · rintro pkg' copied ⟨⟩
  · cases hstep

/-- The metadata are recorded by a build, so while there is no loader. -/
theorem Inv.recordPackageMeta (h : s.Inv) {pkg : String} {version : PackageMeta}
    (hinstalled : s.installed.lookup pkg = some version) (hrunning : s.running = some (pkg, .readMeta)) :
    (s.recordPackageMeta pkg version).Inv where
  known pkg' recorded hrecorded := by
    by_cases hpkg : pkg' = pkg
    · subst hpkg
      simp [Registry.recordPackageMeta, hinstalled]
    · simp only [Registry.recordPackageMeta, AList.lookup_insert_ne hpkg] at hrecorded
      exact h.known pkg' recorded hrecorded
  recorded pkg' hnot recorded hrecorded := by
    by_cases hpkg : pkg' = pkg
    · subst hpkg
      simp only [Registry.recordPackageMeta, AList.lookup_insert] at hrecorded
      exact hinstalled.trans hrecorded
    · simp only [Registry.recordPackageMeta, AList.lookup_insert_ne hpkg] at hrecorded
      exact h.recorded pkg' hnot recorded hrecorded
  loader pkg' copied hloader := by
    have hpkg : pkg' ≠ pkg := by
      rintro rfl
      rw [Registry.recordPackageMeta, h.building pkg' _ hrunning] at hloader
      cases hloader
    exact (h.loader pkg' copied hloader).recorded_ne hpkg rfl rfl
  building := h.building
  copying pkg' hcopying := by cases hrunning.symm.trans hcopying
  publishing pkg' copied hpublishing := by cases hrunning.symm.trans hpublishing

theorem Inv.readMeta (h : s.Inv) {sourceDir : Bool} {now : Int64}
    (hstep : s.readMetaStep true sourceDir now = .ok t) : t.Inv := by
  unfold readMetaStep at hstep
  split at hstep
  · next pkg hrunning =>
    split at hstep
    · cases hstep
      exact h.fail pkg _ _ now
    · next version hinstalled =>
      have hrecorded := h.recordPackageMeta hinstalled hrunning
      simp only [if_true] at hstep
      split at hstep
      · cases hstep
        refine ⟨hrecorded.known, hrecorded.recorded, hrecorded.loader, ?_, ?_, ?_⟩
        · rintro pkg' stage ⟨⟩
          exact hrecorded.building pkg _ hrunning
        · rintro pkg' ⟨⟩
          simp [Registry.recordPackageMeta]
        · rintro pkg' copied ⟨⟩
      · cases hstep
        exact hrecorded.fail pkg _ _ now
  · cases hstep

theorem Inv.copy (h : s.Inv) {success : Bool} {now : Int64} (hstep : s.copyStep success now = .ok t) : t.Inv := by
  unfold copyStep at hstep
  split at hstep
  · next pkg hrunning =>
    split at hstep
    · next version hinstalled =>
      cases hstep
      refine ⟨h.known, h.recorded, h.loader, ?_, ?_, ?_⟩
      · rintro pkg' stage ⟨⟩
        exact h.building pkg _ hrunning
      · rintro pkg' ⟨⟩
      · rintro pkg' copied ⟨⟩
        obtain ⟨recorded, hrecorded⟩ := Option.isSome_iff_exists.1 (h.copying pkg hrunning)
        exact ⟨recorded, hrecorded, fun hsame => Option.some.inj (hinstalled.symm.trans hsame)⟩
    · cases hstep
      exact h.fail pkg _ _ now
  · cases hstep

theorem Inv.publish (h : s.Inv) {success : Bool} {now : Int64} (hstep : s.publishStep success now = .ok t) :
    t.Inv := by
  unfold publishStep at hstep
  split at hstep
  · next pkg copied hrunning =>
    split at hstep
    · cases hstep
      refine ⟨h.known, h.recorded, ?_, ?_, ?_, ?_⟩
      · intro pkg' copied' hloader
        by_cases hpkg : pkg' = pkg
        · subst hpkg
          simp only [Registry.finish, Registry.answer, AList.lookup_insert] at hloader
          cases hloader
          exact h.publishing pkg' copied hrunning
        · simp only [Registry.finish, Registry.answer, AList.lookup_insert_ne hpkg] at hloader
          exact h.loader pkg' copied' hloader
      · rintro pkg' stage ⟨⟩
      · rintro pkg' ⟨⟩
      · rintro pkg' copied' ⟨⟩
    · cases hstep
      exact h.fail pkg _ _ now
  · cases hstep

/-- **An orderly step** keeps the invariant. -/
theorem Inv.step (h : s.Inv) {a : RegistryAction} (horderly : s.Orderly a) (hstep : s.step a = .ok t) : t.Inv := by
  cases a with
  | upgrade pkg version =>
    cases hstep
    exact h.upgrade horderly
  | prepareAsync pkg packageInfo now =>
    cases hstep
    exact h.prepareAsync horderly
  | check i => exact h.check hstep
  | readMeta packageInfo sourceDir now =>
    cases (horderly : packageInfo = true)
    exact h.readMeta hstep
  | copy success now => exact h.copy hstep
  | publish success now => exact h.publish hstep

/-! ### How long there is a loader -/

theorem mem_classLoaders_prepareAsync {pkg p : String} (h : pkg ∈ s.classLoaders) (hp : pkg ≠ p)
    (packageInfo : Bool) (now : Int64) : pkg ∈ (s.prepareAsync p packageInfo now).classLoaders := by
  unfold Registry.prepareAsync
  dsimp only
  split
  · exact h
  · rw [(sameVersions_launchBuild _ _ _ _).1.classLoaders]
    unfold noticeUpgrade
    split
    · exact h
    · split
      · exact AList.mem_erase.2 ⟨hp, h⟩
      · exact h

/-- Only a call of `prepareAsync` for the package takes its loader away. -/
theorem mem_classLoaders_step {a : RegistryAction} {pkg : String} (h : pkg ∈ s.classLoaders)
    (ha : ∀ packageInfo now, a ≠ .prepareAsync pkg packageInfo now) (hstep : s.step a = .ok t) :
    pkg ∈ t.classLoaders := by
  cases a with
  | upgrade p version =>
    cases hstep
    exact h
  | prepareAsync p packageInfo now =>
    cases hstep
    refine mem_classLoaders_prepareAsync h ?_ packageInfo now
    rintro rfl
    exact ha packageInfo now rfl
  | check i =>
    rw [Registry.step, checkStep] at hstep
    split at hstep
    · dsimp only at hstep
      split at hstep <;> (cases hstep; exact h)
    · cases hstep
  | readMeta packageInfo sourceDir now =>
    rw [Registry.step, readMetaStep] at hstep
    split at hstep
    · split at hstep
      · cases hstep
        exact h
      · cases packageInfo <;> cases sourceDir <;> (cases hstep; exact h)
    · cases hstep
  | copy success now =>
    rw [Registry.step, copyStep] at hstep
    split at hstep
    · split at hstep <;> (cases hstep; exact h)
    · cases hstep
  | publish success now =>
    rw [Registry.step, publishStep] at hstep
    split at hstep
    · split at hstep
      · cases hstep
        exact (AList.mem_insert _).2 (.inr h)
      · cases hstep
        exact h
    · cases hstep

/-! ### Runs -/

theorem Inv.loadersMatch (h : s.Inv) : s.LoadersMatch := by
  intro pkg hquiet copied hloader
  obtain ⟨recorded, hrecorded, hcopied⟩ := h.loader pkg copied hloader
  rw [hcopied (h.recorded pkg hquiet.notUpgraded recorded hrecorded)]
  exact hrecorded

/-- **A ready class loader matches the recorded version**, at every point of every orderly run. -/
theorem ready_loader_matches (installed : Table String PackageMeta) (actions : List RegistryAction)
    (horderly : StepsMeet step Orderly { installed } actions) :
    ∀ done, done <+: actions → ∀ s, run step { installed } done = .ok s → s.LoadersMatch := by
  intro done hdone s hs
  have hinv : s.Inv := by
    refine run_along (P := fun _ s => s.Inv) (Inv.start installed) ?_ hs
    intro before a m t hpre hm hinv hstep
    exact hinv.step (horderly before a (hpre.trans hdone) m hm) hstep
  exact hinv.loadersMatch

/-- A package that is upgraded while its loader is built, and again afterwards. -/
def upgradesNoticed : List RegistryAction :=
  [RegistryAction.prepareAsync "p" true 0, .check 0, .readMeta true true 0, .upgrade "p" ⟨2, 20⟩, .prepareAsync "p" true 1,
    .copy true 1, .publish true 1, .check 0, .upgrade "p" ⟨3, 30⟩, .prepareAsync "p" true 2, .check 0,
    .readMeta true true 2, .copy true 2, .publish true 2]

/-- One version of the package `p` is installed. -/
def firstVersion : Table String PackageMeta := (∅ : Table String PackageMeta).insert "p" ⟨1, 10⟩

theorem ready_loader_matches_upgradesNoticed :
    ∃ s, run step { installed := firstVersion } upgradesNoticed = .ok s ∧
      s.classLoaders.lookup "p" = some ⟨3, 30⟩ ∧ s.packageMeta.lookup "p" = some ⟨3, 30⟩ := by
  have horderly : StepsMeet step Orderly { installed := firstVersion } upgradesNoticed :=
    stepsMeet_of_eval (by decide +kernel)
  obtain ⟨s, hs, hloader, hrunning, hqueued, hupgraded⟩ : ∃ s : Registry,
      run step { installed := firstVersion } upgradesNoticed = .ok s ∧
        s.classLoaders.lookup "p" = some ⟨3, 30⟩ ∧ s.running = none ∧ s.queued = [] ∧ s.upgraded = [] :=
    exists_of_endsIn (by decide +kernel)
  have hquiet : s.Quiescent "p" := by
    refine ⟨?_, ?_, ?_⟩
    · simp [hrunning]
    · simp [hqueued]
    · simp [hupgraded]
  exact ⟨s, hs, hloader, ready_loader_matches firstVersion upgradesNoticed horderly upgradesNoticed
    List.prefix_rfl s hs "p" hquiet _ hloader⟩

/-- The upgrade is noticed after the APK was copied: the loader of the old version stays, under the new one. -/
theorem stale_loader_published :
    ∃ s, run step { installed := firstVersion }
        [RegistryAction.prepareAsync "p" true 0, .check 0, .readMeta true true 0, .copy true 0, .upgrade "p" ⟨2, 20⟩,
          .prepareAsync "p" true 1, .publish true 1, .check 0, .prepareAsync "p" true 2] = .ok s ∧
      s.running = none ∧ s.queued = [] ∧ s.upgraded = [] ∧ s.classLoaders.lookup "p" = some ⟨1, 10⟩ ∧
      s.packageMeta.lookup "p" = some ⟨2, 20⟩ :=
  exists_of_endsIn (by decide +kernel)

end BinderTracer.App.Registry
