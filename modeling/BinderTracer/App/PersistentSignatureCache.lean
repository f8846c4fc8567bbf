import BinderTracer.App.BinderEvent
import BinderTracer.Lib.Table

/-!
# The persistent signature cache

`PersistentSignatureCache`: method signatures per interface and version metadata per package, held in
memory by a single writer and flushed to disk as one JSON object. The disk is modelled as the parsed
object; the lengths of the texts, which decide what is truncated and evicted, are parameters of the
configuration. Maps hand out their entries in an unspecified order, which a step is given, together with
the reading of the clock. `get` is taken between two steps of the writer.
-/

namespace BinderTracer.App

open BinderTracer.Lib

/-- The signatures of an interface, by the name of the method. -/
abbrev Signatures := Table String MethodSignature

structure PackageMeta where
  versionCode : Int32
  lastUpdateTime : Int64
deriving DecidableEq, Repr

structure PackageData where
  version : Int32
  lastUpdated : Int64
  interfaces : Table String Signatures

abbrev Packages := Table String PackageData

/-- The object on disk. -/
structure DiskJson where
  schemaVersion : Int32
  packages : Packages

/-- `CURRENT_SCHEMA_VERSION`. -/
abbrev currentSchemaVersion : Int32 := 1

/-- The parameters of the constructor, and the lengths of the texts of a package and of all of them. -/
structure CacheConfig where
  maxPackages : Nat := 64
  maxBytesPerPackage : Nat := 4096
  totalSoftLimitBytes : Nat := 262144
  debounceMs : Int64 := 100
  debounceMaxBatch : Nat := 16
  packageLength : PackageData → Nat
  packagesLength : Packages → Nat

/-! ### The copy in memory -/

/-- `HotCopy`; the field `meta` of the source is `packageMeta` here. -/
structure HotCopy where
  interfaces : Table String (Table String Signatures) := ∅
  packageMeta : Table String PackageMeta := ∅
  lastAccess : Table String Int64 := ∅

namespace HotCopy

def put (hot : HotCopy) (pkg iface : String) (sig : Signatures) (now : Int64) : HotCopy :=
  let m := (hot.interfaces.lookup pkg).getD ∅
  { hot with
    interfaces := hot.interfaces.insert pkg (m.insert iface sig)
    lastAccess := hot.lastAccess.insert pkg now }

def putPackageMeta (hot : HotCopy) (pkg : String) (ver : Int32) (mtime : Int64) : HotCopy :=
  { hot with packageMeta := hot.packageMeta.insert pkg ⟨ver, mtime⟩ }

def hasPackageMeta (hot : HotCopy) (pkg : String) : Bool := (hot.packageMeta.lookup pkg).isSome

def removePackage (hot : HotCopy) (pkg : String) : HotCopy where
  interfaces := hot.interfaces.erase pkg
  packageMeta := hot.packageMeta.erase pkg
  lastAccess := hot.lastAccess.erase pkg

def get (hot : HotCopy) (pkg iface : String) : Option Signatures :=
  (hot.interfaces.lookup pkg).bind (·.lookup iface)

def contains (hot : HotCopy) (pkg iface : String) : Bool := (hot.get pkg iface).isSome

/-- `applyPut`. -/
def applyPut (hot : HotCopy) (pkg iface : String) (versionCode : Int32) (lastUpdateTime : Int64)
    (sig : Signatures) (now : Int64) : HotCopy :=
  (hot.putPackageMeta pkg versionCode lastUpdateTime).put pkg iface sig now

/-- The body of the inner loop of `applyLoadComplete`. -/
def loadInterface (now : Int64) (pkg : String) (hot : HotCopy) (entry : Sigma fun _ : String => Signatures) :
    HotCopy :=
  if hot.contains pkg entry.1 then hot else hot.put pkg entry.1 entry.2 now

/-- The body of the outer loop of `applyLoadComplete`. -/
def loadPackage (now : Int64) (hot : HotCopy) (entry : Sigma fun _ : String => PackageData) : HotCopy :=
  let hot := entry.2.interfaces.entries.foldl (loadInterface now entry.1) hot
  if hot.hasPackageMeta entry.1 then hot
  else hot.putPackageMeta entry.1 entry.2.version entry.2.lastUpdated

/-- `applyLoadComplete`. -/
def applyLoadComplete (hot : HotCopy) (staging : Packages) (now : Int64) : HotCopy :=
  staging.entries.foldl (loadPackage now) hot

end HotCopy

/-! ### Flushing -/

/-- The orders in which the maps are iterated over, and the time. -/
structure StepEnv where
  now : Int64
  packageOrder : IterationOrder String PackageData
  interfaceOrder : IterationOrder String Signatures

namespace CacheConfig

/-- `truncatePackageInterfaces`, over the keys that are left to remove. -/
def truncatePackageInterfaces (cfg : CacheConfig) : List String → PackageData → PackageData
  | [], d => d
  | victim :: keys, d =>
    if cfg.maxBytesPerPackage < cfg.packageLength d ∧ 1 < d.interfaces.size then
      cfg.truncatePackageInterfaces keys { d with interfaces := d.interfaces.erase victim }
    else d

/-- The rewriting of one dirty package. -/
def rewritePackage (cfg : CacheConfig) (env : StepEnv) (hot : HotCopy) (packages : Packages) (pkg : String) :
    Packages :=
  match hot.packageMeta.lookup pkg, hot.interfaces.lookup pkg with
  | some info, some ifaceMap =>
    if ifaceMap.entries = [] then packages.erase pkg
    else
      let d : PackageData :=
        { version := info.versionCode, lastUpdated := info.lastUpdateTime, interfaces := ifaceMap }
      let keys := (env.interfaceOrder.iterate ifaceMap.entries).map Sigma.fst
      packages.insert pkg (cfg.truncatePackageInterfaces keys d)
  | _, _ => packages.erase pkg

/-- The loop of the two evictions: packages go, from the disk and from memory, while there is too much. -/
def evictWhile {V : Type} (tooMuch : Table String V → Bool) :
    List String → Table String V × HotCopy → Table String V × HotCopy
  | [], s => s
  | victim :: keys, (packages, hot) =>
    if tooMuch packages then evictWhile tooMuch keys (packages.erase victim, hot.removePackage victim)
    else (packages, hot)

/-- The packages on disk, those that were not accessed for longest first. -/
def keysByAccess (env : StepEnv) (packages : Packages) (hot : HotCopy) : List String :=
  ((env.packageOrder.iterate packages.entries).map Sigma.fst).insertionSort fun a b =>
    (hot.lastAccess.lookup a).getD 0 ≤ (hot.lastAccess.lookup b).getD 0

/-- `evictPackagesIfOverflow`. -/
def evictPackagesIfOverflow (cfg : CacheConfig) (env : StepEnv) (s : Packages × HotCopy) : Packages × HotCopy :=
  evictWhile (fun packages => cfg.maxPackages < packages.size) (keysByAccess env s.1 s.2) s

/-- `evictTotalIfOverflow`. -/
def evictTotalIfOverflow (cfg : CacheConfig) (env : StepEnv) (s : Packages × HotCopy) : Packages × HotCopy :=
  evictWhile (fun packages => cfg.totalSoftLimitBytes < cfg.packagesLength packages) (keysByAccess env s.1 s.2) s

/-- `readDiskJsonForMergeOrEmpty`: the packages on disk, none if the object has another schema. -/
def readDiskJsonForMergeOrEmpty : Option DiskJson → Packages
  | some obj => if obj.schemaVersion ≠ currentSchemaVersion then ∅ else obj.packages
  | none => ∅

/-- `flushToDisk`. -/
def flushToDisk (cfg : CacheConfig) (env : StepEnv) (dirty : List String) (disk : Option DiskJson)
    (hot : HotCopy) : DiskJson × HotCopy :=
  let packages := dirty.foldl (cfg.rewritePackage env hot) (readDiskJsonForMergeOrEmpty disk)
  let (packages, hot) := cfg.evictTotalIfOverflow env (cfg.evictPackagesIfOverflow env (packages, hot))
  ({ schemaVersion := currentSchemaVersion, packages }, hot)

end CacheConfig

/-! ### The writer -/

/-- `WriteOp`. -/
inductive WriteOp where
  | put (packageName interfaceName : String) (versionCode : Int32) (lastUpdateTime : Int64) (sig : Signatures)
  | invalidate (packageName : String)
  | loadComplete (staging : Packages)
  | flush

/-- What wakes the writer up. -/
inductive WriterEvent where
  | received (op : WriteOp) (env : StepEnv)
  | timeout (env : StepEnv)

def WriterEvent.now : WriterEvent → Int64
  | .received _ env => env.now
  | .timeout env => env.now

/-- The state of the writer. -/
structure SignatureWriter where
  hot : HotCopy := {}
  pendingDirty : List String := []
  firstDirtyAt : Int64 := 0
  disk : Option DiskJson := none

namespace SignatureWriter

/-- `flushToDisk(pendingDirty)` and what follows it. -/
def flushPending (cfg : CacheConfig) (s : SignatureWriter) (env : StepEnv) : SignatureWriter :=
  let (disk, hot) := cfg.flushToDisk env s.pendingDirty s.disk s.hot
  { hot, pendingDirty := [], firstDirtyAt := 0, disk := some disk }

/-- A package becomes dirty. -/
def markDirty (s : SignatureWriter) (pkg : String) (now : Int64) : SignatureWriter :=
  { s with
    firstDirtyAt := if s.pendingDirty = [] then now else s.firstDirtyAt
    pendingDirty := if pkg ∈ s.pendingDirty then s.pendingDirty else s.pendingDirty ++ [pkg] }

/-- The check at the end of the loop. -/
def flushBatch (cfg : CacheConfig) (s : SignatureWriter) (env : StepEnv) : SignatureWriter :=
  if cfg.debounceMaxBatch ≤ s.pendingDirty.length then s.flushPending cfg env else s

/-- One turn of the loop of `startActor`. -/
def step (cfg : CacheConfig) (s : SignatureWriter) : WriterEvent → SignatureWriter
  | .timeout env => if 0 < s.firstDirtyAt ∧ s.pendingDirty ≠ [] then s.flushPending cfg env else s
  | .received (.put pkg iface ver mtime sig) env =>
    ({ s with hot := s.hot.applyPut pkg iface ver mtime sig env.now }.markDirty pkg env.now).flushBatch cfg env
  | .received (.invalidate pkg) env =>
    ({ s with hot := s.hot.removePackage pkg }.markDirty pkg env.now).flushBatch cfg env
  | .received (.loadComplete staging) env =>
    { s with hot := s.hot.applyLoadComplete staging env.now }.flushBatch cfg env
  | .received .flush env => if s.pendingDirty ≠ [] then s.flushPending cfg env else s

/-- The state after a sequence of events. -/
def run (cfg : CacheConfig) (s : SignatureWriter) (events : List WriterEvent) : SignatureWriter :=
  events.foldl (step cfg) s

/-- `get`. -/
def get (s : SignatureWriter) (packageName interfaceName : String) (currentVer : Int32)
    (currentMtime : Int64) : Option Signatures :=
  match s.hot.packageMeta.lookup packageName with
  | none => none
  | some info =>
    if info.versionCode ≠ currentVer ∨ info.lastUpdateTime ≠ currentMtime then none
    else s.hot.get packageName interfaceName

/-! ### The debounce -/

/-- The packages that wait for a flush are distinct and fewer than a batch, and a timeout is armed exactly
while there are any. -/
structure Debounced (cfg : CacheConfig) (s : SignatureWriter) : Prop where
  nodup : s.pendingDirty.Nodup
  short : s.pendingDirty.length < cfg.debounceMaxBatch
  armed : 0 < s.firstDirtyAt ↔ s.pendingDirty ≠ []

theorem debounced_flushPending {cfg : CacheConfig} (hbatch : 0 < cfg.debounceMaxBatch) (s : SignatureWriter)
    (env : StepEnv) : (s.flushPending cfg env).Debounced cfg :=
  ⟨List.nodup_nil, hbatch, by simp [flushPending]⟩

/-- The check at the end of the loop restores the bound. -/
theorem debounced_flushBatch {cfg : CacheConfig} (hbatch : 0 < cfg.debounceMaxBatch) {s : SignatureWriter}
    (hnodup : s.pendingDirty.Nodup) (harmed : 0 < s.firstDirtyAt ↔ s.pendingDirty ≠ []) (env : StepEnv) :
    (s.flushBatch cfg env).Debounced cfg := by
  rw [flushBatch]
  split
  · exact debounced_flushPending hbatch s env
  · next hshort => exact ⟨hnodup, Nat.lt_of_not_le hshort, harmed⟩

theorem debounced_markDirty {cfg : CacheConfig} {s : SignatureWriter} (h : s.Debounced cfg) (hot : HotCopy)
    (pkg : String) {now : Int64} (hnow : 0 < now) :
    let s' := { s with hot }.markDirty pkg now
    s'.pendingDirty.Nodup ∧ (0 < s'.firstDirtyAt ↔ s'.pendingDirty ≠ []) := by
  intro s'
  have hne : s'.pendingDirty ≠ [] := by
    change (if pkg ∈ s.pendingDirty then s.pendingDirty else s.pendingDirty ++ [pkg]) ≠ []
    split
    · next hmem => exact List.ne_nil_of_mem hmem
    · simp
  refine ⟨?_, iff_of_true ?_ hne⟩
  · change (if pkg ∈ s.pendingDirty then s.pendingDirty else s.pendingDirty ++ [pkg]).Nodup
    split
    · exact h.nodup
    · next hmem =>
      rw [← List.concat_eq_append]
      exact h.nodup.concat hmem
  · change 0 < if s.pendingDirty = [] then now else s.firstDirtyAt
    split
    · exact hnow
    · next hdirty => exact h.armed.2 hdirty

/-- **No dirty package is forgotten**: at every point of a run, either nothing waits for a flush or the
timeout that flushes it is armed. -/
theorem debounced_run {cfg : CacheConfig} (hbatch : 0 < cfg.debounceMaxBatch) {events : List WriterEvent}
    (hclock : ∀ e ∈ events, 0 < e.now) {s : SignatureWriter} (h : s.Debounced cfg) :
    (run cfg s events).Debounced cfg := by
  induction events generalizing s with
  | nil => exact h
  | cons e events ih =>
    refine ih (fun e' he' => hclock e' (List.mem_cons_of_mem e he')) ?_
    have hnow := hclock e List.mem_cons_self
    match e with
    | .timeout env =>
      rw [step]
      split
      · exact debounced_flushPending hbatch s env
      · exact h
    | .received (.put pkg iface ver mtime sig) env =>
      obtain ⟨hnodup, harmed⟩ := debounced_markDirty h _ pkg hnow
      exact debounced_flushBatch hbatch hnodup harmed env
    | .received (.invalidate pkg) env =>
      obtain ⟨hnodup, harmed⟩ := debounced_markDirty h _ pkg hnow
      exact debounced_flushBatch hbatch hnodup harmed env
    | .received (.loadComplete staging) env =>
      apply debounced_flushBatch hbatch
      · exact h.nodup
      · exact h.armed
    | .received .flush env =>
      rw [step]
      split
      · exact debounced_flushPending hbatch s env
      · exact h

theorem debounced_run_twoDirty :
    ∃ cfg : CacheConfig, ∃ env : StepEnv,
      (run cfg {} [.received (.invalidate "a") env, .received (.invalidate "b") env]).pendingDirty = ["a", "b"] ∧
      (run cfg {} [.received (.invalidate "a") env, .received (.invalidate "b") env]).Debounced cfg := by
  refine ⟨{ packageLength := fun _ => 0, packagesLength := fun _ => 0 },
    ⟨1, ⟨id, fun _ => .refl _⟩, ⟨id, fun _ => .refl _⟩⟩, by decide, debounced_run (by decide) ?_ ?_⟩
  · simp [WriterEvent.now]
  · exact ⟨List.nodup_nil, by decide, by simp⟩

end SignatureWriter

end BinderTracer.App
