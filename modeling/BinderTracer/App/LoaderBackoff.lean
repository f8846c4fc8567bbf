import BinderTracer.App.LoaderVersions
import BinderTracer.Lib.SignedWords

/-!
# Backing off after a failed build

A failed build should keep the next one away for `computeBackoffMs`. The test is made by `prepareAsync`, when a build
is requested; the coroutine that it launches makes it no more. As long as no build of a package is requested while
another one waits or runs, every attempt to copy its APK comes late enough after each failure (`copies_backed_off`).
Two requests before the first failure make two attempts one after the other (`second_request_not_backed_off`). A
request that the package manager fails for replaces the record of the failure by one of no version.
-/

namespace BinderTracer.App

open BinderTracer.Lib

/-- What the builds of a package do: they begin to copy its APK, and they fail with a record. -/
inductive BuildEvent where
  | attempt (now : Int64)
  | failure (entry : FailedEntry)
deriving DecidableEq, Repr

/-- The time from which on a failure does not keep a build away. -/
def FailedEntry.over (e : FailedEntry) : Int :=
  e.lastFailAt.toInt + (computeBackoffMs e.failCount e.errorKind).toInt

/-- The version that failed. -/
def FailedEntry.version (e : FailedEntry) : PackageMeta := ⟨e.versionCode, e.lastUpdateTime⟩

/-- An attempt after a failure is late enough. -/
def BackedOff : BuildEvent → BuildEvent → Prop
  | .failure e, .attempt now => e.over ≤ now.toInt
  | _, _ => True

instance : DecidableRel BackedOff := fun a b => by
  unfold BackedOff
  split <;> infer_instance

/-- The clock reading of an action. -/
def RegistryAction.time? : RegistryAction → Option Int64
  | .upgrade _ _ | .check _ => none
  | .prepareAsync _ _ now | .readMeta _ _ now | .copy _ now | .publish _ now => some now

/-- The clock does not go back, and not below 0. -/
def Clocked (actions : List RegistryAction) : Prop :=
  (actions.filterMap RegistryAction.time?).Pairwise (· ≤ ·) ∧
    ∀ now ∈ actions.filterMap RegistryAction.time?, 0 ≤ now

-- `Int64` is finite, but the readings are to be tried, not all its elements
instance (actions : List RegistryAction) : Decidable (Clocked actions) :=
  @instDecidableAnd _ _ inferInstance (List.decidableBAll _ _)

/-! ### Failure records -/

namespace FailedPackages

/-- The record of a package after a failure, if none had to be evicted. -/
theorem lookup_recordFailure {failed : FailedPackages} (hroom : failed.lru.len < failedPackagesMax)
    (pkg pkg' : String) (kind : ErrorKind) (info : Option PackageMeta) (now : Int64) :
    ∃ e : FailedEntry,
      (failed.recordFailure pkg kind info now).lookup pkg' = (if pkg' = pkg then some e else failed.lookup pkg') ∧
      e.lastFailAt = now ∧ e.version = info.getD ⟨-1, -1⟩ := by
  have hassign : ∀ e, (LruMap.assign (LruMap.get failed pkg).2 pkg e).lru.len ≤ failedPackagesMax := by
    intro e
    have hlen := LruMap.len_assign_le (LruMap.get failed pkg).2 pkg e
    rw [LruMap.len_get] at hlen
    omega
  unfold recordFailure
  simp only [LruMap.evict_of_len_le (hassign _), LruMap.lookup_assign, LruMap.lookup_get]
  exact ⟨_, rfl, rfl, by cases info <;> rfl⟩

theorem lookup_recordFailure_ne {failed : FailedPackages} (hroom : failed.lru.len < failedPackagesMax)
    {pkg pkg' : String} (hpkg : pkg' ≠ pkg) (kind : ErrorKind) (info : Option PackageMeta) (now : Int64) :
    (failed.recordFailure pkg kind info now).lookup pkg' = failed.lookup pkg' := by
  obtain ⟨e, hlookup, -⟩ := lookup_recordFailure hroom pkg pkg' kind info now
  rw [hlookup, if_neg hpkg]

theorem lookup_shouldRetry_ne {failed : FailedPackages} {pkg pkg' : String} (hpkg : pkg' ≠ pkg)
    (current : PackageMeta) (now : Int64) :
    (failed.shouldRetry pkg current now).2.lookup pkg' = failed.lookup pkg' := by
  have hget := LruMap.lookup_get failed pkg pkg'
  unfold shouldRetry
  split
  · next heq => rwa [heq] at hget
  · next e m heq =>
    rw [heq] at hget
    split
    · rwa [LruMap.lookup_drop_ne _ hpkg]
    · exact hget

/-- A package with a record of its version keeps it, and waits. -/
theorem shouldRetry_recorded {failed : FailedPackages} {pkg : String} {e : FailedEntry}
    (hlookup : failed.lookup pkg = some e) (now : Int64) :
    (failed.shouldRetry pkg e.version now).2.lookup pkg = some e ∧
      (failed.shouldRetry pkg e.version now).1 =
        decide (now - e.lastFailAt ≥ computeBackoffMs e.failCount e.errorKind) := by
  have hget := LruMap.lookup_get failed pkg pkg
  have hfst := LruMap.get_fst failed pkg
  unfold shouldRetry
  split
  · next m heq =>
    rw [heq, hlookup] at hfst
    cases hfst
  · next e' m heq =>
    rw [heq] at hget hfst
    obtain rfl : e = e' := Option.some.inj (hlookup.symm.trans hfst.symm)
    rw [if_neg (by rintro (hne | hne) <;> exact hne rfl)]
    exact ⟨hget.trans hlookup, rfl⟩

theorem over_of_shouldRetry {failed : FailedPackages} {pkg : String} {e : FailedEntry} {now : Int64}
    (hlookup : failed.lookup pkg = some e) (hlast : 0 ≤ e.lastFailAt) (hnow : 0 ≤ now)
    (hretry : (failed.shouldRetry pkg e.version now).1 = true) : e.over ≤ now.toInt := by
  rw [(shouldRetry_recorded hlookup now).2] at hretry
  have hwait := Int64.le_iff_toInt_le.1 (of_decide_eq_true hretry)
  rw [toInt_sub_of_nonneg hnow hlast] at hwait
  rw [FailedEntry.over]
  omega

end FailedPackages

namespace Registry

/-! ### The builds of one package -/

/-- A build of the package waits or runs. -/
def Building (s : Registry) (pkg : String) : Prop := pkg ∈ s.queued ∨ s.running.map Prod.fst = some pkg

instance (s : Registry) (pkg : String) : Decidable (s.Building pkg) := inferInstanceAs (Decidable (_ ∨ _))

/-- The number of builds of the package that wait or run. -/
def builds (s : Registry) (pkg : String) : Nat :=
  s.queued.count pkg + if s.running.map Prod.fst = some pkg then 1 else 0

/-- The build of the package begins to copy. -/
def attemptIn (pkg : String) (s : Registry) : RegistryAction → List BuildEvent
  | .copy _ now => if s.running = some (pkg, .copy) then [.attempt now] else []
  | _ => []

/-- The build of the package ends and leaves a record. -/
def failureIn (pkg : String) (s t : Registry) : List BuildEvent :=
  if s.running.map Prod.fst = some pkg ∧ t.running = none then
    (t.failedPackages.lookup pkg).toList.map BuildEvent.failure
  else []

/-- What is seen of the builds of a package in one step. -/
def buildEvents (pkg : String) (s : Registry) (a : RegistryAction) (t : Registry) : List BuildEvent :=
  attemptIn pkg s a ++ failureIn pkg s t

/-- A failure of the installed version is recorded. -/
def Failed (s : Registry) (pkg : String) : Prop :=
  (s.failedPackages.lookup pkg).map FailedEntry.version = s.installed.lookup pkg

instance (s : Registry) (pkg : String) : Decidable (s.Failed pkg) := inferInstanceAs (Decidable (_ = _))

/-- There is a loader, or the installed version failed and the failure is not over. -/
def HeldBack (s : Registry) (pkg : String) (now : Int64) : Prop :=
  (s.classLoaders.lookup pkg).isSome ∨ s.Failed pkg ∧
    (s.failedPackages.lookup pkg).all fun e => now - e.lastFailAt < computeBackoffMs e.failCount e.errorKind

instance (s : Registry) (pkg : String) (now : Int64) : Decidable (s.HeldBack pkg now) :=
  inferInstanceAs (Decidable (_ ∨ _ ∧ _))

/-- While a build of the package waits or runs, it is requested only if a loader or a failure holds it back; the package
manager does not fail when the package is requested, unless a build waits or runs or no failure is recorded; its
metadata can be read by the builds; and no failure record is evicted to make room. -/
def Unhurried (pkg : String) (s : Registry) : RegistryAction → Prop
  | .prepareAsync pkg' packageInfo now =>
    s.failedPackages.lru.len < failedPackagesMax ∧
      (pkg' = pkg → if packageInfo then s.Building pkg → s.HeldBack pkg now else s.Failed pkg → s.Building pkg)
  | .readMeta packageInfo _ _ =>
    s.failedPackages.lru.len < failedPackagesMax ∧ (s.running = some (pkg, .readMeta) → packageInfo = true)
  | .copy _ _ | .publish _ _ => s.failedPackages.lru.len < failedPackagesMax
  | .upgrade _ _ | .check _ => True

instance (pkg : String) (s : Registry) (a : RegistryAction) : Decidable (Unhurried pkg s a) :=
  match a with
  | .prepareAsync _ _ _ | .readMeta _ _ _ => instDecidableAnd
  | .copy _ _ | .publish _ _ => Nat.decLt _ _
  | .upgrade _ _ | .check _ => instDecidableTrue

/-- The failure does not keep a build away any more at one of the clock readings. -/
def Over (done : List RegistryAction) (e : FailedEntry) : Prop :=
  ∃ a ∈ done, ∃ now, a.time? = some now ∧ e.over ≤ now.toInt

/-- The failure is recorded for the installed version, and no build has been launched since. -/
structure Waiting (pkg : String) (version : PackageMeta) (s : Registry) (e : FailedEntry) : Prop where
  idle : ¬s.Building pkg
  record : s.failedPackages.lookup pkg = some e
  version : e.version = version
  nonneg : 0 ≤ e.lastFailAt

/-- What holds of the package after the actions `done`, in which `events` were seen. -/
structure Paced (pkg : String) (version : PackageMeta) (done : List RegistryAction) (events : List BuildEvent)
    (s : Registry) : Prop where
  installed : s.installed.lookup pkg = some version
  recorded : ∀ v, s.packageMeta.lookup pkg = some v → v = version
  known : ∀ stage, s.running = some (pkg, stage) → stage ≠ .readMeta → s.packageMeta.lookup pkg = some version
  single : s.builds pkg ≤ 1
  failures : ∀ e, .failure e ∈ events → Over done e ∨ Waiting pkg version s e
  ordered : events.Pairwise BackedOff

/-- The states agree on what concerns the package. -/
structure SameFor (pkg : String) (s t : Registry) : Prop where
  installed : t.installed.lookup pkg = s.installed.lookup pkg
  packageMeta : t.packageMeta.lookup pkg = s.packageMeta.lookup pkg
  failed : t.failedPackages.lookup pkg = s.failedPackages.lookup pkg
  queued : t.queued.count pkg = s.queued.count pkg
  running : ∀ stage, t.running = some (pkg, stage) ↔ s.running = some (pkg, stage)

variable {pkg pkg' : String} {version : PackageMeta} {done : List RegistryAction} {events : List BuildEvent}
  {s t : Registry} {a : RegistryAction} {e : FailedEntry}

theorem building_iff : s.Building pkg ↔ 0 < s.builds pkg := by
  rw [Building, builds, ← List.count_pos_iff]
  split <;> simp_all

theorem running_fst_iff : s.running.map Prod.fst = some pkg ↔ ∃ stage, s.running = some (pkg, stage) := by
  rw [Option.map_eq_some_iff]
  constructor
  · rintro ⟨⟨p, stage⟩, hrunning, rfl⟩
    exact ⟨stage, hrunning⟩
  · rintro ⟨stage, hrunning⟩
    exact ⟨(pkg, stage), hrunning, rfl⟩

theorem SameFor.builds (h : SameFor pkg s t) : t.builds pkg = s.builds pkg := by
  have hrunning : t.running.map Prod.fst = some pkg ↔ s.running.map Prod.fst = some pkg := by
    simp only [running_fst_iff, h.running]
  simp only [Registry.builds, h.queued, hrunning]

theorem Over.snoc (h : Over done e) (a : RegistryAction) : Over (done ++ [a]) e := by
  obtain ⟨b, hb, hover⟩ := h
  exact ⟨b, List.mem_append_left _ hb, hover⟩

/-- While a build waits or runs, all failures are over. -/
theorem Paced.over_of_building (h : Paced pkg version done events s) (hbuilding : s.Building pkg) :
    ∀ e, .failure e ∈ events → Over done e := by
  intro e he
  rcases h.failures e he with hover | hwaiting
  · exact hover
  · exact absurd hbuilding hwaiting.idle

/-- A step that does not concern the package. -/
theorem Paced.sameFor (h : Paced pkg version done events s) (hsame : SameFor pkg s t) :
    Paced pkg version (done ++ [a]) events t where
  installed := hsame.installed.trans h.installed
  recorded := by
    rw [hsame.packageMeta]
    exact h.recorded
  known stage hrunning := by
    rw [hsame.packageMeta]
    exact h.known stage ((hsame.running stage).1 hrunning)
  single := by
    rw [hsame.builds]
    exact h.single
  failures e he := by
    rcases h.failures e he with hover | hwaiting
    · exact .inl (hover.snoc a)
    · refine .inr ⟨?_, hsame.failed.trans hwaiting.record, hwaiting.version, hwaiting.nonneg⟩
      rw [building_iff, hsame.builds, ← building_iff]
      exact hwaiting.idle
  ordered := h.ordered

/-! ### Steps for another package -/

theorem SameFor.trans {u : Registry} (h : SameFor pkg s t) (h' : SameFor pkg t u) : SameFor pkg s u where
  installed := h'.installed.trans h.installed
  packageMeta := h'.packageMeta.trans h.packageMeta
  failed := h'.failed.trans h.failed
  queued := h'.queued.trans h.queued
  running stage := (h'.running stage).trans (h.running stage)

section
variable (hpkg : pkg ≠ pkg')
include hpkg

theorem sameFor_prepareAsync (hroom : s.failedPackages.lru.len < failedPackagesMax) (packageInfo : Bool)
    (now : Int64) : SameFor pkg s (s.prepareAsync pkg' packageInfo now) := by
  have hnotice : ∀ (s : Registry) snapshot, SameFor pkg s (s.noticeUpgrade pkg' snapshot) := by
    intro s snapshot
    unfold noticeUpgrade
    split
    · exact ⟨rfl, rfl, rfl, rfl, fun _ => Iff.rfl⟩
    · split
      · exact ⟨rfl, AList.lookup_insert_ne hpkg, LruMap.lookup_drop_ne _ hpkg, rfl, fun _ => Iff.rfl⟩
      · exact ⟨rfl, rfl, rfl, rfl, fun _ => Iff.rfl⟩
  have hlaunch : ∀ (s : Registry) snapshot, SameFor pkg s (s.launchBuild pkg' snapshot now) := by
    intro s snapshot
    have hfailed := @FailedPackages.lookup_shouldRetry_ne s.failedPackages _ _ hpkg snapshot now
    unfold launchBuild
    split
    · exact ⟨rfl, rfl, rfl, rfl, fun _ => Iff.rfl⟩
    · split
      · next heq => exact ⟨rfl, rfl, by rwa [heq] at hfailed, rfl, fun _ => Iff.rfl⟩
      · next heq =>
        refine ⟨rfl, rfl, by rwa [heq] at hfailed, ?_, fun _ => Iff.rfl⟩
        rw [List.count_append, List.count_singleton, if_neg (by simpa using hpkg.symm), Nat.add_zero]
  unfold prepareAsync
  simp only
  split
  · exact ⟨rfl, rfl, FailedPackages.lookup_recordFailure_ne hroom hpkg _ _ _, rfl, fun _ => Iff.rfl⟩
  · next snapshot _ =>
    have hstart : SameFor pkg s { s with upgraded := s.upgraded.filter (· ≠ pkg') } :=
      ⟨rfl, rfl, rfl, rfl, fun _ => Iff.rfl⟩
    exact (hstart.trans (hnotice _ snapshot)).trans (hlaunch _ snapshot)

/-- The build of another package goes on or ends. -/
theorem SameFor.of_running {stage : BuildStage} {after : Option (String × BuildStage)}
    (hrunning : s.running = some (pkg', stage)) (hafter : ∀ p stage', after = some (p, stage') → p = pkg')
    (hinstalled : t.installed = s.installed)
    (hmeta : t.packageMeta.lookup pkg = s.packageMeta.lookup pkg)
    (hfailed : t.failedPackages.lookup pkg = s.failedPackages.lookup pkg) (hqueued : t.queued = s.queued)
    (ht : t.running = after) : SameFor pkg s t := by
  refine ⟨by rw [hinstalled], hmeta, hfailed, by rw [hqueued], fun stage' => ?_⟩
  constructor
  · intro h
    exact absurd (hafter pkg stage' (ht.symm.trans h)) hpkg
  · intro h
    cases hrunning.symm.trans h
    exact absurd rfl hpkg

theorem sameFor_fail {stage : BuildStage} (hroom : s.failedPackages.lru.len < failedPackagesMax)
    (hrunning : s.running = some (pkg', stage)) (kind : ErrorKind) (info : Option PackageMeta) (now : Int64) :
    SameFor pkg s (s.fail pkg' kind info now) :=
  .of_running hpkg hrunning (by rintro p stage' ⟨⟩) rfl rfl
    (FailedPackages.lookup_recordFailure_ne hroom hpkg kind info now) rfl rfl

end

/-! ### Steps for the package -/

/-- A build that waits or runs begins an attempt: all failures are over by then. -/
theorem Paced.attempt (h : Paced pkg version done events s) (hbuilding : s.Building pkg) {now : Int64}
    (hclock : ∀ e, Over done e → e.over ≤ now.toInt) : Paced pkg version done (events ++ [.attempt now]) s where
  installed := h.installed
  recorded := h.recorded
  known := h.known
  single := h.single
  failures e he := by
    rcases List.mem_append.1 he with he | he
    · exact h.failures e he
    · cases List.mem_singleton.1 he
  ordered := by
    refine List.pairwise_append.2 ⟨h.ordered, List.pairwise_singleton _ _, ?_⟩
    intro x hx y hy
    obtain rfl := List.mem_singleton.1 hy
    cases x with
    | attempt now => trivial
    | failure e => exact hclock e (h.over_of_building hbuilding e hx)

theorem building_of_running {stage : BuildStage} (h : s.running = some (pkg, stage)) : s.Building pkg :=
  .inr (running_fst_iff.2 ⟨stage, h⟩)

/-- A build that waits or runs goes on, without an end. -/
theorem Paced.goesOn (h : Paced pkg version done events s) (hbuilding : s.Building pkg)
    (hinstalled : t.installed = s.installed) (hrecorded : ∀ v, t.packageMeta.lookup pkg = some v → v = version)
    (hknown : ∀ stage, t.running = some (pkg, stage) → stage ≠ .readMeta →
      t.packageMeta.lookup pkg = some version)
    (hsingle : t.builds pkg ≤ 1) : Paced pkg version (done ++ [a]) events t where
  installed := hinstalled ▸ h.installed
  recorded := hrecorded
  known := hknown
  single := hsingle
  failures e he := .inl ((h.over_of_building hbuilding e he).snoc a)
  ordered := h.ordered

/-- The build that runs enters its next stage. -/
theorem Paced.advance (h : Paced pkg version done events s) {stage stage' : BuildStage}
    (hrunning : s.running = some (pkg, stage)) (hinstalled : t.installed = s.installed)
    (hmeta : t.packageMeta.lookup pkg = some version) (hqueued : t.queued = s.queued)
    (ht : t.running = some (pkg, stage')) : Paced pkg version (done ++ [a]) events t := by
  refine h.goesOn (building_of_running hrunning) hinstalled (fun v hv => Option.some.inj (hv.symm.trans hmeta))
    (fun _ _ _ => hmeta) ?_
  have hsingle := h.single
  rw [builds, running_fst_iff.2 ⟨stage, hrunning⟩] at hsingle
  rw [builds, hqueued, running_fst_iff.2 ⟨stage', ht⟩]
  exact hsingle

/-- The build that runs ends, and leaves at most a record of the installed version. -/
theorem Paced.ends (h : Paced pkg version done events s) {stage : BuildStage}
    (hrunning : s.running = some (pkg, stage)) (hinstalled : t.installed = s.installed)
    (hmeta : t.packageMeta.lookup pkg = some version) (hqueued : t.queued = s.queued) (ht : t.running = none)
    (hrecord : ∀ e, t.failedPackages.lookup pkg = some e →
      e.version = version ∧ 0 ≤ e.lastFailAt) :
    Paced pkg version (done ++ [a]) (events ++ failureIn pkg s t) t := by
  have hfst := running_fst_iff.2 ⟨stage, hrunning⟩
  have hidle : ¬t.Building pkg := by
    have hsingle := h.single
    rw [builds, if_pos hfst] at hsingle
    rw [building_iff, builds, hqueued, ht, if_neg (by simp)]
    omega
  have hevents : failureIn pkg s t = (t.failedPackages.lookup pkg).toList.map BuildEvent.failure :=
    if_pos ⟨hfst, ht⟩
  refine ⟨hinstalled ▸ h.installed, fun v hv => Option.some.inj (hv.symm.trans hmeta), fun _ _ _ => hmeta, ?_, ?_, ?_⟩
  · rw [building_iff] at hidle
    omega
  · intro e he
    rcases List.mem_append.1 he with he | he
    · exact .inl ((h.over_of_building (building_of_running hrunning) e he).snoc a)
    · rw [hevents, List.mem_map] at he
      obtain ⟨e', he', heq⟩ := he
      cases heq
      have hlookup := Option.mem_toList.1 he'
      obtain ⟨hversion, hnonneg⟩ := hrecord e hlookup
      exact .inr ⟨hidle, hlookup, hversion, hnonneg⟩
  · refine List.pairwise_append.2 ⟨h.ordered, ?_, ?_⟩
    · rw [hevents]
      cases t.failedPackages.lookup pkg with
      | none => exact List.Pairwise.nil
      | some e => exact List.pairwise_singleton _ _
    · intro x _ y hy
      rw [hevents, List.mem_map] at hy
      obtain ⟨e, -, rfl⟩ := hy
      cases x <;> trivial

/-- The build that runs fails. -/
theorem Paced.fail (h : Paced pkg version done events s) {stage : BuildStage}
    (hrunning : s.running = some (pkg, stage)) (hmeta : s.packageMeta.lookup pkg = some version)
    (hroom : s.failedPackages.lru.len < failedPackagesMax) {now : Int64} (hnow : 0 ≤ now) (kind : ErrorKind) :
    Paced pkg version (done ++ [a])
      (events ++ failureIn pkg s (s.fail pkg kind (s.packageMeta.lookup pkg) now))
      (s.fail pkg kind (s.packageMeta.lookup pkg) now) := by
  refine h.ends hrunning rfl hmeta rfl rfl ?_
  intro e he
  obtain ⟨e', hlookup, hlast, hversion⟩ := FailedPackages.lookup_recordFailure hroom pkg pkg kind
    (s.packageMeta.lookup pkg) now
  rw [if_pos rfl] at hlookup
  obtain rfl : e' = e := Option.some.inj (hlookup.symm.trans he)
  rw [hmeta] at hversion
  exact ⟨hversion, hlast ▸ hnow⟩

theorem running_prepareAsync (s : Registry) (pkg : String) (packageInfo : Bool) (now : Int64) :
    (s.prepareAsync pkg packageInfo now).running = s.running := by
  have hnotice : ∀ (s : Registry) snapshot, (s.noticeUpgrade pkg snapshot).running = s.running := by
    intro s snapshot
    unfold noticeUpgrade
    split
    · rfl
    · split <;> rfl
  unfold Registry.prepareAsync
  simp only
  split
  · rfl
  · rw [(sameVersions_launchBuild _ pkg _ now).2, hnotice]

/-- The version of the package is the recorded one, so no upgrade is noticed. -/
theorem Paced.prepareAsync_eq (h : Paced pkg version done events s) (now : Int64) :
    s.prepareAsync pkg true now =
      launchBuild { s with upgraded := s.upgraded.filter (· ≠ pkg) } pkg version now := by
  have hnotice : noticeUpgrade { s with upgraded := s.upgraded.filter (· ≠ pkg) } pkg version =
      { s with upgraded := s.upgraded.filter (· ≠ pkg) } := by
    unfold noticeUpgrade
    split
    · rfl
    · next cached hcached => rw [if_neg (not_not.2 (h.recorded cached hcached))]
  unfold Registry.prepareAsync
  simp only [readPackageMetaFromPm, h.installed, if_true]
  rw [hnotice]

/-- The package manager fails: a failure that is waited for would lose its record. -/
theorem Paced.prepareAsync_unread (h : Paced pkg version done events s) (now : Int64)
    (hunhurried : s.Failed pkg → s.Building pkg) :
    Paced pkg version (done ++ [.prepareAsync pkg false now]) events (s.prepareAsync pkg false now) where
  installed := h.installed
  recorded := h.recorded
  known := h.known
  single := h.single
  failures e he := by
    rcases h.failures e he with hover | hwaiting
    · exact .inl (hover.snoc _)
    · have hfailed : s.Failed pkg := by
        rw [Failed, hwaiting.record, h.installed, Option.map_some, hwaiting.version]
      exact absurd (hunhurried hfailed) hwaiting.idle
  ordered := h.ordered

/-- What holds a build back keeps `prepareAsync` from launching one. -/
theorem HeldBack.shouldRetry {now : Int64} (h : s.HeldBack pkg now) (hloader : ¬(s.classLoaders.lookup pkg).isSome)
    (hinstalled : s.installed.lookup pkg = some version) :
    (s.failedPackages.shouldRetry pkg version now).1 = false := by
  obtain ⟨hfailed, hall⟩ := h.resolve_left hloader
  rw [Failed, hinstalled] at hfailed
  obtain ⟨e, hlookup, rfl⟩ := Option.map_eq_some_iff.1 hfailed
  rw [hlookup] at hall
  rw [(FailedPackages.shouldRetry_recorded hlookup now).2, decide_eq_false_iff_not]
  exact Int64.not_le.2 (of_decide_eq_true hall)

/-- `prepareAsync` launches a build only if no failure keeps it away. -/
theorem Paced.prepareAsync (h : Paced pkg version done events s) {now : Int64} (hnow : 0 ≤ now)
    (hunhurried : s.Building pkg → s.HeldBack pkg now) :
    Paced pkg version (done ++ [.prepareAsync pkg true now]) events (s.prepareAsync pkg true now) := by
  rw [h.prepareAsync_eq]
  unfold launchBuild
  split
  · exact h.sameFor ⟨rfl, rfl, rfl, rfl, fun _ => Iff.rfl⟩
  next hloader =>
  split
  · next failedPackages heq =>
    -- a failure that is waited for keeps its record
    refine ⟨h.installed, h.recorded, h.known, h.single, ?_, h.ordered⟩
    intro e he
    rcases h.failures e he with hover | hwaiting
    · exact .inl (hover.snoc _)
    · have hrecord := (FailedPackages.shouldRetry_recorded hwaiting.record now).1
      rw [hwaiting.version, show _ = (false, failedPackages) from heq] at hrecord
      exact .inr ⟨hwaiting.idle, hrecord, hwaiting.version, hwaiting.nonneg⟩
  · next failedPackages heq =>
    have hretry : s.failedPackages.shouldRetry pkg version now = (true, failedPackages) := heq
    have hidle : ¬s.Building pkg := by
      intro hbuilding
      have hheld := (hunhurried hbuilding).shouldRetry hloader h.installed
      rw [hretry] at hheld
      cases hheld
    refine ⟨h.installed, h.recorded, h.known, ?_, ?_, h.ordered⟩
    · rw [building_iff, builds] at hidle
      show (s.queued ++ [pkg]).count pkg + (if s.running.map Prod.fst = some pkg then 1 else 0) ≤ 1
      rw [List.count_append, List.count_singleton_self]
      omega
    · intro e he
      rcases h.failures e he with hover | hwaiting
      · exact .inl (hover.snoc _)
      · refine .inl ⟨_, List.mem_append_right _ (List.mem_singleton_self _), now, rfl, ?_⟩
        refine FailedPackages.over_of_shouldRetry hwaiting.record hwaiting.nonneg hnow ?_
        rw [hwaiting.version, hretry]

theorem count_eraseIdx {xs : List String} {i : Nat} {x : String} (h : xs[i]? = some x) (y : String) :
    (xs.eraseIdx i).count y + (if x = y then 1 else 0) = xs.count y := by
  obtain ⟨hi, rfl⟩ := List.getElem?_eq_some_iff.1 h
  rw [List.eraseIdx_eq_take_drop_succ, List.count_append]
  conv_rhs => rw [← List.take_append_drop i xs, List.drop_eq_getElem_cons hi, List.count_append, List.count_cons]
  simp only [beq_iff_eq]
  omega

theorem Paced.check (h : Paced pkg version done events s) {i : Nat} (hstep : s.checkStep i = .ok t) :
    Paced pkg version (done ++ [.check i]) events t := by
  unfold checkStep at hstep
  split at hstep
  · next pkg' hidle hi =>
    have hcount := count_eraseIdx hi pkg
    have hsingle := h.single
    rw [builds, hidle, Option.map_none, if_neg (by simp)] at hsingle
    by_cases hpkg : pkg' = pkg
    · subst hpkg
      have hbuilding : s.Building pkg' := .inl (List.mem_of_getElem? hi)
      rw [if_pos rfl] at hcount
      simp only at hstep
      split at hstep
      · cases hstep
        refine h.goesOn hbuilding rfl h.recorded (by rintro stage ⟨⟩) ?_
        show (s.queued.eraseIdx i).count pkg' + 0 ≤ 1
        omega
      · cases hstep
        refine h.goesOn hbuilding rfl h.recorded (by rintro stage ⟨⟩ hstage; exact absurd rfl hstage) ?_
        show (s.queued.eraseIdx i).count pkg' + (if some pkg' = some pkg' then 1 else 0) ≤ 1
        rw [if_pos rfl]
        omega
    · rw [if_neg hpkg, Nat.add_zero] at hcount
      simp only at hstep
      split at hstep
      · cases hstep
        exact h.sameFor ⟨rfl, rfl, rfl, hcount, fun stage => by rw [hidle]; rfl⟩
      · cases hstep
        refine h.sameFor ⟨rfl, rfl, rfl, hcount, fun stage => ?_⟩
        rw [hidle]
        simp [hpkg]
  · cases hstep

theorem failureIn_other {stage : BuildStage} (hpkg : pkg ≠ pkg') (hrunning : s.running = some (pkg', stage)) :
    failureIn pkg s t = [] := by
  refine if_neg fun hended => hpkg ?_
  rw [hrunning] at hended
  exact (Option.some.inj hended.1).symm

theorem failureIn_running {running : String × BuildStage} (ht : t.running = some running) :
    failureIn pkg s t = [] := by
  refine if_neg fun hended => ?_
  rw [ht] at hended
  cases hended.2

theorem Paced.readMeta (h : Paced pkg version done events s) {packageInfo sourceDir : Bool} {now : Int64}
    (hnow : 0 ≤ now) (hunhurried : s.Unhurried pkg (.readMeta packageInfo sourceDir now))
    (hstep : s.readMetaStep packageInfo sourceDir now = .ok t) :
    Paced pkg version (done ++ [a]) (events ++ failureIn pkg s t) t := by
  obtain ⟨hroom, hread⟩ := hunhurried
  unfold readMetaStep at hstep
  split at hstep
  · next pkg' hrunning =>
    by_cases hpkg : pkg = pkg'
    · subst hpkg
      obtain rfl := hread hrunning
      simp only [h.installed, if_true] at hstep
      have hmeta : (s.recordPackageMeta pkg version).packageMeta.lookup pkg = some version :=
        AList.lookup_insert _
      have hrecorded : Paced pkg version done events (s.recordPackageMeta pkg version) :=
        ⟨h.installed, fun v hv => Option.some.inj (hv.symm.trans hmeta), fun _ _ _ => hmeta, h.single,
          fun e he => .inl (h.over_of_building (building_of_running hrunning) e he), h.ordered⟩
      split at hstep
      · cases hstep
        rw [failureIn_running rfl, List.append_nil]
        exact hrecorded.advance hrunning rfl hmeta rfl rfl
      · cases hstep
        exact hrecorded.fail hrunning hmeta hroom hnow _
    · rw [failureIn_other hpkg hrunning, List.append_nil]
      split at hstep
      · cases hstep
        exact h.sameFor (sameFor_fail hpkg hroom hrunning _ _ now)
      · next newMeta _ =>
        obtain ⟨r, hr, hsame, hfailed, hrunning'⟩ : ∃ r, (if packageInfo then s.recordPackageMeta pkg' newMeta
            else s) = r ∧ SameFor pkg s r ∧ r.failedPackages = s.failedPackages ∧ r.running = s.running := by
          refine ⟨_, rfl, ?_⟩
          split
          · exact ⟨⟨rfl, AList.lookup_insert_ne hpkg, rfl, rfl, fun _ => Iff.rfl⟩, rfl, rfl⟩
          · exact ⟨⟨rfl, rfl, rfl, rfl, fun _ => Iff.rfl⟩, rfl, rfl⟩
        simp only [hr] at hstep
        rw [hrunning] at hrunning'
        split at hstep
        · cases hstep
          exact h.sameFor (hsame.trans
            (.of_running hpkg hrunning' (by rintro p stage ⟨⟩; rfl) rfl rfl rfl rfl rfl))
        · cases hstep
          exact h.sameFor (hsame.trans (sameFor_fail hpkg (hfailed ▸ hroom) hrunning' _ _ now))
  · cases hstep

theorem Paced.copy (h : Paced pkg version done events s) {success : Bool} {now : Int64} (hnow : 0 ≤ now)
    (hroom : s.failedPackages.lru.len < failedPackagesMax)
    (hclock : ∀ e, Over done e → e.over ≤ now.toInt) (hstep : s.copyStep success now = .ok t) :
    Paced pkg version (done ++ [a]) (events ++ buildEvents pkg s (.copy success now) t) t := by
  unfold copyStep at hstep
  split at hstep
  · next pkg' hrunning =>
    by_cases hpkg : pkg = pkg'
    · subst hpkg
      have hattempt := h.attempt (building_of_running hrunning) hclock
      have hmeta := h.known .copy hrunning (by decide)
      rw [buildEvents, attemptIn, if_pos hrunning, ← List.append_assoc]
      split at hstep
      · cases hstep
        rw [failureIn_running rfl, List.append_nil]
        exact hattempt.advance hrunning rfl hmeta rfl rfl
      · cases hstep
        exact hattempt.fail hrunning hmeta hroom hnow _
    · have hnone : attemptIn pkg s (.copy success now) = [] := by
        refine if_neg fun hcopy => hpkg ?_
        cases hrunning.symm.trans hcopy
        rfl
      rw [buildEvents, hnone, failureIn_other hpkg hrunning, List.append_nil, List.append_nil]
      split at hstep
      · cases hstep
        exact h.sameFor (.of_running hpkg hrunning (by rintro p stage ⟨⟩; rfl) rfl rfl rfl rfl rfl)
      · cases hstep
        exact h.sameFor (sameFor_fail hpkg hroom hrunning _ _ now)
  · cases hstep

theorem Paced.publish (h : Paced pkg version done events s) {success : Bool} {now : Int64} (hnow : 0 ≤ now)
    (hroom : s.failedPackages.lru.len < failedPackagesMax) (hstep : s.publishStep success now = .ok t) :
    Paced pkg version (done ++ [a]) (events ++ failureIn pkg s t) t := by
  unfold publishStep at hstep
  split at hstep
  · next pkg' copied hrunning =>
    by_cases hpkg : pkg = pkg'
    · subst hpkg
      have hmeta := h.known (.publish copied) hrunning (by rintro ⟨⟩)
      split at hstep
      · cases hstep
        refine h.ends hrunning rfl hmeta rfl rfl ?_
        intro e he
        cases (LruMap.lookup_drop_self s.failedPackages pkg).symm.trans he
      · cases hstep
        exact h.fail hrunning hmeta hroom hnow _
    · rw [failureIn_other hpkg hrunning, List.append_nil]
      split at hstep
      · cases hstep
        exact h.sameFor (.of_running hpkg hrunning (by rintro p stage ⟨⟩) rfl rfl
          (LruMap.lookup_drop_ne _ hpkg) rfl rfl)
      · cases hstep
        exact h.sameFor (sameFor_fail hpkg hroom hrunning _ _ now)
  · cases hstep

/-- **One step** keeps the pace. -/
theorem Paced.step (h : Paced pkg version done events s) (hversion : ∀ v, a ≠ .upgrade pkg v)
    (hunhurried : s.Unhurried pkg a)
    (hclock : ∀ now, a.time? = some now → 0 ≤ now ∧ ∀ e, Over done e → e.over ≤ now.toInt)
    (hstep : s.step a = .ok t) : Paced pkg version (done ++ [a]) (events ++ buildEvents pkg s a t) t := by
  have hquiet : t.running = s.running → failureIn pkg s t = [] := by
    intro hrunning
    refine if_neg fun hended => ?_
    rw [← hrunning, hended.2] at hended
    cases hended.1
  cases a with
  | upgrade pkg' v =>
    have hpkg : pkg ≠ pkg' := by
      rintro rfl
      exact hversion v rfl
    cases hstep
    rw [show buildEvents pkg s (.upgrade pkg' v) _ = [] from hquiet rfl, List.append_nil]
    exact h.sameFor ⟨AList.lookup_insert_ne hpkg, rfl, rfl, rfl, fun _ => Iff.rfl⟩
  | prepareAsync pkg' packageInfo now =>
    obtain ⟨hroom, hlaunch⟩ := hunhurried
    cases hstep
    rw [show buildEvents pkg s (.prepareAsync pkg' packageInfo now) _ = [] from
      hquiet (running_prepareAsync s pkg' packageInfo now), List.append_nil]
    by_cases hpkg : pkg' = pkg
    · subst hpkg
      cases packageInfo with
      | false => exact h.prepareAsync_unread now (hlaunch rfl)
      | true => exact h.prepareAsync (hclock now rfl).1 (hlaunch rfl)
    · exact h.sameFor (sameFor_prepareAsync (Ne.symm hpkg) hroom packageInfo now)
  | check i =>
    have hidle : s.running = none := by
      change s.checkStep i = .ok t at hstep
      unfold checkStep at hstep
      split at hstep
      · next hidle _ => exact hidle
      · cases hstep
    have hnone : buildEvents pkg s (.check i) t = [] := by
      refine if_neg fun hended => ?_
      rw [hidle] at hended
      cases hended.1
    rw [hnone, List.append_nil]
    exact h.check hstep
  | readMeta packageInfo sourceDir now => exact h.readMeta (hclock now rfl).1 hunhurried hstep
  | copy success now => exact h.copy (hclock now rfl).1 hunhurried (hclock now rfl).2 hstep
  | publish success now => exact h.publish (hclock now rfl).1 hunhurried hstep

/-- The clock has passed all its earlier readings. -/
theorem clock_at {actions : List RegistryAction} (hclock : Clocked actions) (hpre : done ++ [a] <+: actions)
    {now : Int64} (hnow : a.time? = some now) : 0 ≤ now ∧ ∀ e, Over done e → e.over ≤ now.toInt := by
  obtain ⟨rest, rfl⟩ := hpre
  obtain ⟨hordered, hnonneg⟩ := hclock
  rw [List.filterMap_append, List.filterMap_append, List.filterMap_cons_some hnow] at hordered hnonneg
  refine ⟨hnonneg now (by simp), ?_⟩
  rintro e ⟨b, hb, earlier, hearlier, hover⟩
  have hbefore : earlier ≤ now := by
    refine (List.pairwise_append.1 (List.pairwise_append.1 hordered).1).2.2 earlier ?_ now
      (List.mem_singleton_self now)
    exact List.mem_filterMap.2 ⟨b, hb, hearlier⟩
  exact hover.trans (Int64.le_iff_toInt_le.1 hbefore)

/-- **Failed builds are backed off**: where no build of a package is launched while another one waits or runs, the
package manager answers and no failure record is evicted, every attempt to copy the APK of a package whose version
stays comes at least `computeBackoffMs` after every failure before it. -/
theorem copies_backed_off (installed : Table String PackageMeta) (pkg : String) (version : PackageMeta)
    (hinstalled : installed.lookup pkg = some version) (actions : List RegistryAction)
    (hversion : ∀ v, .upgrade pkg v ∉ actions) (hclock : Clocked actions)
    (hunhurried : StepsMeet step (Unhurried pkg) { installed } actions) :
    ∀ s, run step { installed } actions = .ok s →
      (observations step (buildEvents pkg) { installed } actions).Pairwise BackedOff := by
  intro s hs
  have hpaced : Paced pkg version actions (observations step (buildEvents pkg) { installed } actions) s := by
    refine run_along (P := fun done s =>
      Paced pkg version done (observations step (buildEvents pkg) { installed } done) s) ?_ ?_ hs
    · exact ⟨hinstalled, by rintro v ⟨⟩, by rintro stage ⟨⟩, Nat.zero_le 1, fun e he => absurd he List.not_mem_nil,
        List.Pairwise.nil⟩
    · intro done a m t hpre hm hpaced hstep
      rw [observations_snoc hm hstep]
      refine hpaced.step ?_ (hunhurried done a hpre m hm) (fun now hnow => clock_at hclock hpre hnow) hstep
      rintro v rfl
      exact hversion v (hpre.subset (List.mem_append_right _ (List.mem_singleton_self _)))
  exact hpaced.ordered

/-- A failed copy, a request that comes too early, and one that does not. -/
def patientRequests : List RegistryAction :=
  [.prepareAsync "p" true 0, .check 0, .readMeta true true 5, .copy false 10, .prepareAsync "p" true 20,
    .prepareAsync "p" true 30010, .check 0, .readMeta true true 30015, .copy true 30020, .publish true 30030]

theorem copies_backed_off_patientRequests :
    ∃ s, run step { installed := firstVersion } patientRequests = .ok s ∧
      observations step (buildEvents "p") { installed := firstVersion } patientRequests =
        [.attempt 10, .failure ⟨10, 10, 1, 1, 10, .transient⟩, .attempt 30020] ∧
      (observations step (buildEvents "p") { installed := firstVersion } patientRequests).Pairwise BackedOff := by
  obtain ⟨s, hs, -⟩ : ∃ s, run step { installed := firstVersion } patientRequests = .ok s ∧ s.queued = [] :=
    exists_of_endsIn (by decide +kernel)
  exact ⟨s, hs, by decide +kernel, copies_backed_off firstVersion "p" ⟨1, 10⟩ (by decide +kernel) patientRequests
    (by simp [patientRequests]) (by decide +kernel) (stepsMeet_of_eval (by decide +kernel)) s hs⟩

/-- A second request before the first build has failed: its attempt comes one millisecond after the failure. -/
theorem second_request_not_backed_off :
    let actions : List RegistryAction :=
      [.prepareAsync "p" true 0, .prepareAsync "p" true 1, .check 0, .readMeta true true 5, .copy false 10, .check 0,
        .readMeta true true 10, .copy true 11]
    Clocked actions ∧ (∃ s, run step { installed := firstVersion } actions = .ok s ∧ s.queued = []) ∧
      observations step (buildEvents "p") { installed := firstVersion } actions =
        [.attempt 10, .failure ⟨10, 10, 1, 1, 10, .transient⟩, .attempt 11] ∧
      computeBackoffMs 1 .transient = 30000 ∧
      ¬(observations step (buildEvents "p") { installed := firstVersion } actions).Pairwise BackedOff := by
  refine ⟨by decide +kernel, exists_of_endsIn (by decide +kernel), by decide +kernel, by decide +kernel,
    by decide +kernel⟩

end Registry
end BinderTracer.App
