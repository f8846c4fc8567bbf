import BinderTracer.Lib.Runs
import BinderTracer.Lib.LruMap
import BinderTracer.App.PersistentSignatureCache

/-!
# The registry of class loaders

`AppClassLoaderRegistry`: the APK of a package is copied and a class loader made of the copy, by a coroutine
that `prepareAsync` launches. The coroutines take turns by a mutex; `prepareAsync`, which notices that a
package was upgraded and then throws its loader away, does not take it.

A call of `prepareAsync` is one step, and a build is four: the check after the mutex was obtained, the
reading of the metadata, the copying and the publishing. The outcomes of what a build asks of the system
are given with its steps. Of a loader the registry keeps which version was installed when its APK was copied.
The package manager may fail for a package that is installed, and is then taken to say that it is not.
-/

namespace BinderTracer.App

open BinderTracer.Lib

/-! ### Failures -/

inductive ErrorKind where
  | transient
  | permanent
deriving DecidableEq, Repr

structure FailedEntry where
  firstFailAt : Int64
  lastFailAt : Int64
  failCount : Int32
  versionCode : Int32
  lastUpdateTime : Int64
  errorKind : ErrorKind
deriving DecidableEq, Repr

/-- The longest wait: an hour, or a day if the failure is permanent. -/
def ErrorKind.backoffCapMs : ErrorKind → Int64
  | .transient => 3600000
  | .permanent => 86400000

/-- `computeBackoffMs`: 30 s, twice as long after each failure. -/
def computeBackoffMs (failCount : Int32) (kind : ErrorKind) : Int64 :=
  let shift : Int32 := min (max (failCount - 1) 0) 7
  min (30000 <<< shift.toInt64) kind.backoffCapMs

/-- `FAILED_PACKAGES_MAX`. -/
def failedPackagesMax : Nat := 256

abbrev FailedPackages := LruMap String FailedEntry

/-- `shouldRetry`. A failure of another version does not count. -/
def FailedPackages.shouldRetry (failed : FailedPackages) (pkg : String) (current : PackageMeta) (now : Int64) :
    Bool × FailedPackages :=
  match failed.get pkg with
  | (none, failed) => (true, failed)
  | (some e, failed) =>
    if e.versionCode ≠ current.versionCode ∨ e.lastUpdateTime ≠ current.lastUpdateTime then
      (true, LruMap.drop failed pkg)
    else (decide (now - e.lastFailAt ≥ computeBackoffMs e.failCount e.errorKind), failed)

/-- `recordFailure`. -/
def FailedPackages.recordFailure (failed : FailedPackages) (pkg : String) (kind : ErrorKind)
    (info : Option PackageMeta) (now : Int64) : FailedPackages :=
  let (prev, failed) := LruMap.get failed pkg
  let entry : FailedEntry :=
    { firstFailAt := prev.elim now FailedEntry.firstFailAt
      lastFailAt := now
      failCount := prev.elim 1 fun e => e.failCount + 1
      versionCode := info.elim (-1) PackageMeta.versionCode
      lastUpdateTime := info.elim (-1) PackageMeta.lastUpdateTime
      errorKind := if prev.map FailedEntry.errorKind = some .permanent then .permanent else kind }
  ((LruMap.assign failed pkg entry).evict failedPackagesMax).1

/-! ### The registry -/

/-- Where a build is, after its check. -/
inductive BuildStage where
  | readMeta
  | copy
  /-- The APK was copied when this version was installed. -/
  | publish (copied : PackageMeta)
deriving DecidableEq, Repr

/-- The registry, the versions that are installed, and the builds that wait for the mutex or hold it. `upgraded`
are the packages upgraded since `prepareAsync` was last called for them. -/
structure Registry where
  installed : Table String PackageMeta := ∅
  classLoaders : Table String PackageMeta := ∅
  packageMeta : Table String PackageMeta := ∅
  failedPackages : FailedPackages := {}
  /-- The packages whose other caches were cleared. -/
  invalidated : List String := []
  queued : List String := []
  running : Option (String × BuildStage) := none
  upgraded : List String := []
  /-- What the callers were told. -/
  answers : List (String × Bool) := []

inductive RegistryAction where
  | upgrade (pkg : String) (version : PackageMeta)
  /-- `packageInfo` says whether the package manager answers. -/
  | prepareAsync (pkg : String) (packageInfo : Bool) (now : Int64)
  /-- The build at this place of the queue gets the mutex. -/
  | check (i : Nat)
  | readMeta (packageInfo sourceDir : Bool) (now : Int64)
  | copy (success : Bool) (now : Int64)
  | publish (success : Bool) (now : Int64)
deriving DecidableEq, Repr

namespace Registry

/-- `onReady`. -/
def answer (s : Registry) (pkg : String) (ready : Bool) : Registry :=
  { s with answers := s.answers ++ [(pkg, ready)] }

/-- What `prepareAsync` does about a package whose version is not the recorded one. -/
def noticeUpgrade (s : Registry) (pkg : String) (pmSnapshot : PackageMeta) : Registry :=
  match s.packageMeta.lookup pkg with
  | none => s
  | some cached =>
    if cached ≠ pmSnapshot then
      { s with
        packageMeta := s.packageMeta.insert pkg pmSnapshot
        invalidated := s.invalidated ++ [pkg]
        classLoaders := s.classLoaders.erase pkg
        failedPackages := LruMap.drop s.failedPackages pkg }
    else s

/-- The end of `prepareAsync`: a build is launched unless there is a loader, or a failure to wait after. -/
def launchBuild (s : Registry) (pkg : String) (pmSnapshot : PackageMeta) (now : Int64) : Registry :=
  if (s.classLoaders.lookup pkg).isSome then s.answer pkg true
  else
    match s.failedPackages.shouldRetry pkg pmSnapshot now with
    | (false, failedPackages) => { s with failedPackages }.answer pkg false
    | (true, failedPackages) => { s with failedPackages, queued := s.queued ++ [pkg] }

/-- `readPackageMetaFromPm`: any exception is caught. -/
def readPackageMetaFromPm (s : Registry) (pkg : String) (packageInfo : Bool) : Option PackageMeta :=
  if packageInfo then s.installed.lookup pkg else none

/-- `prepareAsync`. -/
def prepareAsync (s : Registry) (pkg : String) (packageInfo : Bool) (now : Int64) : Registry :=
  let s := { s with upgraded := s.upgraded.filter (· ≠ pkg) }
  match s.readPackageMetaFromPm pkg packageInfo with
  | none =>
    { s with failedPackages := s.failedPackages.recordFailure pkg .permanent none now }.answer pkg false
  | some pmSnapshot => (s.noticeUpgrade pkg pmSnapshot).launchBuild pkg pmSnapshot now

/-- `recordPackageMeta`, with the metadata that were read. -/
def recordPackageMeta (s : Registry) (pkg : String) (newMeta : PackageMeta) : Registry :=
  let changed := (s.packageMeta.lookup pkg).any fun old => old ≠ newMeta
  { s with
    invalidated := if changed then s.invalidated ++ [pkg] else s.invalidated
    packageMeta := s.packageMeta.insert pkg newMeta }

/-- A build ends: the mutex is free, and the caller is told whether there is a loader. -/
def finish (s : Registry) (pkg : String) : Registry :=
  { s with running := none }.answer pkg (s.classLoaders.lookup pkg).isSome

/-- A build ends with a failure. -/
def fail (s : Registry) (pkg : String) (kind : ErrorKind) (info : Option PackageMeta) (now : Int64) : Registry :=
  { s with failedPackages := s.failedPackages.recordFailure pkg kind info now }.finish pkg

/-- The first step of `buildClassLoader`, with the mutex. -/
def checkStep (s : Registry) (i : Nat) : Except Blocked Registry :=
  match s.running, s.queued[i]? with
  | none, some pkg =>
    let s := { s with queued := s.queued.eraseIdx i }
    if (s.classLoaders.lookup pkg).isSome then .ok (s.finish pkg)
    else .ok { s with running := some (pkg, .readMeta) }
  | _, _ => .error .blocked

/-- The metadata are read and recorded; `sourceDir` says whether the package has an APK. -/
def readMetaStep (s : Registry) (packageInfo sourceDir : Bool) (now : Int64) : Except Blocked Registry :=
  match s.running with
  | some (pkg, .readMeta) =>
    match s.installed.lookup pkg with
    | none => .ok (s.fail pkg .permanent none now)
    | some newMeta =>
      let s := if packageInfo then s.recordPackageMeta pkg newMeta else s
      if sourceDir then .ok { s with running := some (pkg, .copy) }
      else .ok (s.fail pkg .permanent (s.packageMeta.lookup pkg) now)
  | _ => .error .blocked

/-- The APK that is installed is copied. -/
def copyStep (s : Registry) (success : Bool) (now : Int64) : Except Blocked Registry :=
  match s.running with
  | some (pkg, .copy) =>
    match success, s.installed.lookup pkg with
    | true, some installed => .ok { s with running := some (pkg, .publish installed) }
    | _, _ => .ok (s.fail pkg .transient (s.packageMeta.lookup pkg) now)
  | _ => .error .blocked

/-- The loader is made and published. -/
def publishStep (s : Registry) (success : Bool) (now : Int64) : Except Blocked Registry :=
  match s.running with
  | some (pkg, .publish copied) =>
    if success then
      .ok ({ s with
        classLoaders := s.classLoaders.insert pkg copied
        failedPackages := LruMap.drop s.failedPackages pkg }.finish pkg)
    else .ok (s.fail pkg .transient (s.packageMeta.lookup pkg) now)
  | _ => .error .blocked

def step (s : Registry) : RegistryAction → Except Blocked Registry
  | .upgrade pkg version =>
    .ok { s with installed := s.installed.insert pkg version, upgraded := pkg :: s.upgraded }
  | .prepareAsync pkg packageInfo now => .ok (s.prepareAsync pkg packageInfo now)
  | .check i => s.checkStep i
  | .readMeta packageInfo sourceDir now => s.readMetaStep packageInfo sourceDir now
  | .copy success now => s.copyStep success now
  | .publish success now => s.publishStep success now

end Registry

end BinderTracer.App
