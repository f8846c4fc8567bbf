import BinderTracer.App.PersistentSignatureCache
import BinderTracer.Lib.JsonText

/-!
# The file of the signature cache

`flushToDisk` and `parseJsonString` of `PersistentSignatureCache` on the text that is stored: the packages on
disk are the members of a JSON object, of which the dirty ones are written anew from memory, and the lengths
that decide on truncation and eviction are those of the texts. Objects and maps hand out their keys in an
unspecified order, which a flush is given.
-/

namespace BinderTracer.App

open BinderTracer.Lib

/-- The limits among the parameters of the constructor. -/
structure FileLimits where
  maxPackages : Nat := 64
  maxBytesPerPackage : Nat := 4096
  totalSoftLimitBytes : Nat := 262144

/-- The orders in which keys are handed out. -/
structure FlushOrder where
  packageKeys : List String → List String
  interfaceKeys : List String → List String
  packageKeys_perm : ∀ keys, (packageKeys keys).Perm keys
  interfaceKeys_perm : ∀ keys, (interfaceKeys keys).Perm keys

namespace SignatureFile

/-! ### Writing -/

def methodObj (sig : MethodSignature) : JsonObject :=
  (∅ : JsonObject)
    |>.put "code" (.num (-1))
    |>.put "paramTypes" (.ofStrings sig.paramTypes)
    |>.put "returnType" (sig.returnType.elim .null .str)

def methodsObj (sigMap : Signatures) : JsonObject := sigMap.mapValues fun sig => .ofObject (methodObj sig)

def ifacesObj (ifaceMap : Table String Signatures) : JsonObject :=
  ifaceMap.mapValues fun sigMap => .ofObject (methodsObj sigMap)

/-- The object of a package, around the object of its interfaces. -/
def pkgObj (info : PackageMeta) (ifacesObj : JsonObject) : JsonObject :=
  (∅ : JsonObject)
    |>.put "version" (.num info.versionCode.toInt64)
    |>.put "lastUpdated" (.num info.lastUpdateTime)
    |>.put "interfaces" (.ofObject ifacesObj)

section
variable (codec : JsonCodec) (limits : FileLimits) (order : FlushOrder)

/-- `truncatePackageInterfaces`, over the keys that are left to remove. -/
def truncatePackageInterfaces : List String → JsonObject → JsonObject → JsonObject
  | [], pkgObj, _ => pkgObj
  | victim :: keys, pkgObj, ifacesObj =>
    if limits.maxBytesPerPackage < utf16Length (codec.text pkgObj) ∧ 1 < ifacesObj.size then
      let ifacesObj := ifacesObj.erase victim
      truncatePackageInterfaces keys (pkgObj.put "interfaces" (.ofObject ifacesObj)) ifacesObj
    else pkgObj

/-- The object of a package as it is in memory, if it is there. -/
def memoryObj (hot : HotCopy) (pkg : String) : Option JsonObject :=
  match hot.packageMeta.lookup pkg, hot.interfaces.lookup pkg with
  | some info, some ifaceMap =>
    if ifaceMap.entries = [] then none
    else
      let obj := pkgObj info (ifacesObj ifaceMap)
      if limits.maxBytesPerPackage < utf16Length (codec.text obj) then
        some (truncatePackageInterfaces codec limits (order.interfaceKeys ifaceMap.keys) obj (ifacesObj ifaceMap))
      else some obj
  | _, _ => none

/-- The rewriting of one dirty package. -/
def rewritePackage (hot : HotCopy) (packagesObj : JsonObject) (pkg : String) : JsonObject :=
  match memoryObj codec limits order hot pkg with
  | some obj => packagesObj.put pkg (.ofObject obj)
  | none => packagesObj.erase pkg

/-- The packages on disk, those that were not accessed for longest first. -/
def keysByAccess (packagesObj : JsonObject) (hot : HotCopy) : List String :=
  (order.packageKeys packagesObj.keys).insertionSort fun a b =>
    (hot.lastAccess.lookup a).getD 0 ≤ (hot.lastAccess.lookup b).getD 0

def evictPackagesIfOverflow (s : JsonObject × HotCopy) : JsonObject × HotCopy :=
  CacheConfig.evictWhile (fun packagesObj => limits.maxPackages < packagesObj.size) (keysByAccess order s.1 s.2) s

def evictTotalIfOverflow (s : JsonObject × HotCopy) : JsonObject × HotCopy :=
  CacheConfig.evictWhile (fun packagesObj => limits.totalSoftLimitBytes < utf16Length (codec.text packagesObj))
    (keysByAccess order s.1 s.2) s

/-- An object without packages. -/
def emptyFile : JsonObject :=
  (∅ : JsonObject)
    |>.put "schemaVersion" (.num currentSchemaVersion.toInt64)
    |>.put "packages" (.ofObject ∅)

theorem optObject_emptyFile : emptyFile.optObject "packages" = some ∅ := by
  simp [emptyFile, JsonObject.optObject]

def readDiskJsonForMergeOrEmpty (raw : Option String) : JsonObject :=
  match raw.bind codec.object with
  | some obj => if obj.optInt "schemaVersion" (-1) ≠ currentSchemaVersion then emptyFile else obj
  | none => emptyFile

/-- The packages that are there when the dirty ones have been written. -/
def mergedPackages (dirty : List String) (raw : Option String) (hot : HotCopy) : JsonObject :=
  dirty.foldl (rewritePackage codec limits order hot)
    (((readDiskJsonForMergeOrEmpty codec raw).optObject "packages").getD ∅)

/-- `flushToDisk`: the text on disk and the copy in memory afterwards. -/
def flushToDisk (dirty : List String) (raw : Option String) (hot : HotCopy) : String × HotCopy :=
  let (packagesObj, hot') := evictTotalIfOverflow codec limits order
    (evictPackagesIfOverflow limits order (mergedPackages codec limits order dirty raw hot, hot))
  let merged := (readDiskJsonForMergeOrEmpty codec raw).put "packages" (.ofObject packagesObj)
    |>.put "schemaVersion" (.num currentSchemaVersion.toInt64)
  (codec.text merged, hot')

end

/-! ### Reading -/

/-- The body of the innermost loop of `parseJsonString`; `none` skips the member. -/
def parseMethod (mname : String) (value : Json) : Option MethodSignature :=
  value.asObject.map fun mobj =>
    { methodName := mname
      paramTypes := ((mobj.optArray "paramTypes").map fun arr => arr.filterMap Json.asString).getD []
      returnType :=
        if mobj.isNull "returnType" then none else (some (mobj.optString "returnType" "")).filter (· ≠ "") }

/-- The body of the loop over interfaces. -/
def parseInterface (value : Json) : Option Signatures :=
  value.asObject.bind fun methodsObj =>
    let methods := methodsObj.filterMapValues parseMethod
    if methods.entries ≠ [] then some methods else none

/-- The body of the loop over packages. -/
def parsePackage (value : Json) : Option PackageData := do
  let pkgObj ← value.asObject
  let ifacesObj ← pkgObj.optObject "interfaces"
  let interfaces := ifacesObj.filterMapValues fun _ => parseInterface
  if interfaces.entries ≠ [] then
    some
      { version := pkgObj.optInt "version" (-1), lastUpdated := pkgObj.optLong "lastUpdated" (-1), interfaces }
  else none

/-- The packages of an object of the current schema. -/
def packagesOf (obj : JsonObject) : Option JsonObject :=
  if obj.optInt "schemaVersion" (-1) ≠ currentSchemaVersion then none else obj.optObject "packages"

/-- `parseJsonString`. -/
def parseJsonString (codec : JsonCodec) (json : String) : Packages :=
  match (codec.object json).bind packagesOf with
  | some packages => packages.filterMapValues fun _ => parsePackage
  | none => ∅

/-- `parseJsonFromDisk`. -/
def parseJsonFromDisk (codec : JsonCodec) (raw : Option String) : Packages :=
  (raw.map (parseJsonString codec)).getD ∅

end SignatureFile

/-! ### Records are read back -/

/-- The methods of an interface, under their names. -/
structure Signatures.KeyedByName (sigMap : Signatures) : Prop where
  nonempty : sigMap.entries ≠ []
  named : ∀ mname sig, sigMap.lookup mname = some sig → sig.methodName = mname ∧ sig.returnType ≠ some ""

/-- The interfaces of a package, none without methods. -/
def InterfacesKeyed (ifaceMap : Table String Signatures) : Prop :=
  ∀ iface sigMap, ifaceMap.lookup iface = some sigMap → sigMap.KeyedByName

theorem InterfacesKeyed.erase {ifaceMap : Table String Signatures} (h : InterfacesKeyed ifaceMap)
    (victim : String) : InterfacesKeyed (ifaceMap.erase victim) := by
  intro iface sigMap hlookup
  by_cases hvictim : iface = victim
  · rw [hvictim, AList.lookup_erase] at hlookup
    cases hlookup
  · rw [AList.lookup_erase_ne hvictim] at hlookup
    exact h iface sigMap hlookup

def HotCopy.Keyed (hot : HotCopy) : Prop :=
  ∀ pkg ifaceMap, hot.interfaces.lookup pkg = some ifaceMap → InterfacesKeyed ifaceMap

namespace SignatureFile

theorem parseMethod_methodObj {mname : String} {sig : MethodSignature} (hname : sig.methodName = mname)
    (hreturn : sig.returnType ≠ some "") : parseMethod mname (.ofObject (methodObj sig)) = some sig := by
  obtain ⟨methodName, paramTypes, returnType⟩ := sig
  subst hname
  have hparams : (methodObj ⟨methodName, paramTypes, returnType⟩).optArray "paramTypes" =
      some (paramTypes.map Json.str) := by
    simp [methodObj, JsonObject.optArray, Json.ofStrings]
  have hmember : (methodObj ⟨methodName, paramTypes, returnType⟩).lookup "returnType" =
      some (returnType.elim .null .str) := by
    simp [methodObj]
  rw [parseMethod, Json.asObject_ofObject, Option.map_some, hparams, Option.map_some, Json.filterMap_asString,
    JsonObject.isNull, JsonObject.optString, hmember]
  cases returnType with
  | none => rfl
  | some text =>
    have htext : text ≠ "" := fun h => hreturn (by rw [h])
    simp [htext]

theorem parseInterface_methodsObj {sigMap : Signatures} (h : sigMap.KeyedByName) :
    parseInterface (.ofObject (methodsObj sigMap)) = some sigMap := by
  have hmethods : (methodsObj sigMap).filterMapValues parseMethod = sigMap :=
    AList.filterMapValues_mapValues fun mname sig hsig =>
      parseMethod_methodObj (h.named mname sig hsig).1 (h.named mname sig hsig).2
  rw [parseInterface, Json.asObject_ofObject, Option.bind_some, hmethods]
  exact if_pos h.nonempty

theorem parsePackage_pkgObj {info : PackageMeta} {ifaceMap : Table String Signatures}
    (hempty : ifaceMap.entries ≠ []) (h : InterfacesKeyed ifaceMap) :
    parsePackage (.ofObject (pkgObj info (ifacesObj ifaceMap))) =
      some ⟨info.versionCode, info.lastUpdateTime, ifaceMap⟩ := by
  have hinterfaces : (ifacesObj ifaceMap).filterMapValues (fun _ => parseInterface) = ifaceMap :=
    AList.filterMapValues_mapValues fun iface sigMap hsig => parseInterface_methodsObj (h iface sigMap hsig)
  have hmember : (pkgObj info (ifacesObj ifaceMap)).optObject "interfaces" = some (ifacesObj ifaceMap) := by
    simp [pkgObj, JsonObject.optObject]
  have hversion : (pkgObj info (ifacesObj ifaceMap)).optInt "version" (-1) = info.versionCode := by
    simp [pkgObj, JsonObject.optInt]
  have hupdated : (pkgObj info (ifacesObj ifaceMap)).optLong "lastUpdated" (-1) = info.lastUpdateTime := by
    simp [pkgObj, JsonObject.optLong]
  rw [parsePackage, Json.asObject_ofObject, Option.bind_eq_bind, Option.bind_some, hmember, Option.bind_some,
    hinterfaces, hversion, hupdated]
  exact if_pos hempty

/-! ### One package -/

section
variable {codec : JsonCodec} {limits : FileLimits} {order : FlushOrder} {hot : HotCopy}

/-- The package is too long, and has interfaces to give up. -/
def Truncates (codec : JsonCodec) (limits : FileLimits) (info : PackageMeta)
    (ifaceMap : Table String Signatures) : Prop :=
  limits.maxBytesPerPackage < utf16Length (codec.text (pkgObj info (ifacesObj ifaceMap))) ∧ 1 < ifaceMap.size

theorem put_interfaces_pkgObj (info : PackageMeta) (before after : JsonObject) :
    (pkgObj info before).put "interfaces" (.ofObject after) = pkgObj info after :=
  AList.insert_insert ..

theorem truncate_of_not_truncates {info : PackageMeta} {ifaceMap : Table String Signatures}
    (h : ¬Truncates codec limits info ifaceMap) (keys : List String) :
    truncatePackageInterfaces codec limits keys (pkgObj info (ifacesObj ifaceMap)) (ifacesObj ifaceMap) =
      pkgObj info (ifacesObj ifaceMap) := by
  cases keys with
  | nil => rfl
  | cons victim keys =>
    rw [truncatePackageInterfaces, if_neg]
    rw [ifacesObj, AList.size_mapValues]
    exact h

/-- A truncation removes interfaces, but not the last one. -/
theorem truncate_eq_pkgObj (codec : JsonCodec) (limits : FileLimits) (info : PackageMeta) (keys : List String)
    {ifaceMap : Table String Signatures} (hempty : ifaceMap.entries ≠ []) (h : InterfacesKeyed ifaceMap) :
    ∃ left : Table String Signatures, left.entries ≠ [] ∧ InterfacesKeyed left ∧
      truncatePackageInterfaces codec limits keys (pkgObj info (ifacesObj ifaceMap)) (ifacesObj ifaceMap) =
        pkgObj info (ifacesObj left) := by
  induction keys generalizing ifaceMap with
  | nil => exact ⟨ifaceMap, hempty, h, rfl⟩
  | cons victim keys ih =>
    rw [truncatePackageInterfaces]
    split
    · next hlong =>
      have hleft : (ifaceMap.erase victim).entries ≠ [] := by
        have hsize := AList.size_le_size_erase ifaceMap victim
        have hmany := hlong.2
        rw [ifacesObj, AList.size_mapValues] at hmany
        intro hnil
        have : (ifaceMap.erase victim).size = 0 := congrArg List.length hnil
        omega
      have herase : (ifacesObj ifaceMap).erase victim = ifacesObj (ifaceMap.erase victim) :=
        AList.mapValues_erase ..
      dsimp only
      rw [herase, put_interfaces_pkgObj]
      exact ih hleft (h.erase victim)
    · exact ⟨ifaceMap, hempty, h, rfl⟩

/-- What is written for a package that is in memory. -/
theorem memoryObj_eq {pkg : String} {info : PackageMeta} {ifaceMap : Table String Signatures}
    (hinfo : hot.packageMeta.lookup pkg = some info) (hifaces : hot.interfaces.lookup pkg = some ifaceMap) :
    memoryObj codec limits order hot pkg =
      if ifaceMap.entries = [] then none
      else some (truncatePackageInterfaces codec limits (order.interfaceKeys ifaceMap.keys)
        (pkgObj info (ifacesObj ifaceMap)) (ifacesObj ifaceMap)) := by
  rw [memoryObj, hinfo, hifaces]
  dsimp only
  split
  · rfl
  · split
    · rfl
    · next hfits => rw [truncate_of_not_truncates fun ht => hfits ht.1]

/-- What is written for a package comes from memory. -/
theorem memoryObj_eq_some {pkg : String} {obj : JsonObject}
    (h : memoryObj codec limits order hot pkg = some obj) :
    ∃ info ifaceMap, hot.packageMeta.lookup pkg = some info ∧ hot.interfaces.lookup pkg = some ifaceMap ∧
      ifaceMap.entries ≠ [] ∧
      obj = truncatePackageInterfaces codec limits (order.interfaceKeys ifaceMap.keys)
        (pkgObj info (ifacesObj ifaceMap)) (ifacesObj ifaceMap) := by
  cases hinfo : hot.packageMeta.lookup pkg with
  | none =>
    rw [memoryObj, hinfo] at h
    cases h
  | some info =>
    cases hifaces : hot.interfaces.lookup pkg with
    | none =>
      rw [memoryObj, hinfo, hifaces] at h
      cases h
    | some ifaceMap =>
      rw [memoryObj_eq hinfo hifaces] at h
      split at h
      · cases h
      · next hempty => exact ⟨info, ifaceMap, rfl, rfl, hempty, (Option.some.inj h).symm⟩

theorem parsePackage_memoryObj {pkg : String} {obj : JsonObject} (hhot : hot.Keyed)
    (h : memoryObj codec limits order hot pkg = some obj) : ∃ d, parsePackage (.ofObject obj) = some d := by
  obtain ⟨info, ifaceMap, -, hifaces, hempty, rfl⟩ := memoryObj_eq_some h
  obtain ⟨left, hleft, hkeyed, heq⟩ := truncate_eq_pkgObj codec limits info
    (order.interfaceKeys ifaceMap.keys) hempty (hhot pkg ifaceMap hifaces)
  rw [heq]
  exact ⟨_, parsePackage_pkgObj hleft hkeyed⟩

/-- The dirty packages are those of memory, the others those of the disk. -/
theorem lookup_rewritePackages (dirty : List String) (packagesObj : JsonObject) (pkg : String) :
    (dirty.foldl (rewritePackage codec limits order hot) packagesObj).lookup pkg =
      if pkg ∈ dirty then (memoryObj codec limits order hot pkg).map .ofObject else packagesObj.lookup pkg := by
  induction dirty generalizing packagesObj with
  | nil => rfl
  | cons victim dirty ih =>
    have hone : (rewritePackage codec limits order hot packagesObj victim).lookup pkg =
        if pkg = victim then (memoryObj codec limits order hot pkg).map .ofObject
        else packagesObj.lookup pkg := by
      rw [rewritePackage]
      by_cases hpkg : pkg = victim
      · subst hpkg
        cases memoryObj codec limits order hot pkg <;> simp
      · cases memoryObj codec limits order hot victim <;> simp [hpkg, AList.lookup_erase_ne]
    rw [List.foldl_cons, ih, hone]
    by_cases hdirty : pkg ∈ dirty <;> simp [hdirty]

end

end SignatureFile

/-! ### The flush of records -/

namespace SignatureFile

def packageObj (d : PackageData) : JsonObject := pkgObj ⟨d.version, d.lastUpdated⟩ (ifacesObj d.interfaces)

def packagesObj (packages : Packages) : JsonObject := packages.mapValues fun d => .ofObject (packageObj d)

def fileObj (disk : DiskJson) : JsonObject :=
  (∅ : JsonObject)
    |>.put "packages" (.ofObject (packagesObj disk.packages))
    |>.put "schemaVersion" (.num disk.schemaVersion.toInt64)

section
variable (codec : JsonCodec) (limits : FileLimits) (order : FlushOrder)

/-- The configuration in which records are as long as their texts. -/
def config : CacheConfig where
  maxPackages := limits.maxPackages
  maxBytesPerPackage := limits.maxBytesPerPackage
  totalSoftLimitBytes := limits.totalSoftLimitBytes
  packageLength d := utf16Length (codec.text (packageObj d))
  packagesLength packages := utf16Length (codec.text (packagesObj packages))

/-- The orders of entries that come from those of keys. -/
def stepEnv (now : Int64) : StepEnv where
  now
  packageOrder := .ofKeys order.packageKeys
  interfaceOrder := .ofKeys order.interfaceKeys

theorem truncatePackageInterfaces_packageObj (keys : List String) (d : PackageData) :
    truncatePackageInterfaces codec limits keys (packageObj d) (ifacesObj d.interfaces) =
      packageObj ((config codec limits).truncatePackageInterfaces keys d) := by
  induction keys generalizing d with
  | nil => rfl
  | cons victim keys ih =>
    have herase : (ifacesObj d.interfaces).erase victim = ifacesObj (d.interfaces.erase victim) :=
      AList.mapValues_erase ..
    have hsize : (ifacesObj d.interfaces).size = d.interfaces.size := AList.size_mapValues ..
    rw [truncatePackageInterfaces, CacheConfig.truncatePackageInterfaces, hsize, herase]
    by_cases hlong : (config codec limits).maxBytesPerPackage < (config codec limits).packageLength d ∧
        1 < d.interfaces.size
    · rw [if_pos hlong]
      refine (if_pos hlong).trans ?_
      dsimp only
      rw [packageObj, put_interfaces_pkgObj]
      exact ih { d with interfaces := d.interfaces.erase victim }
    · rw [if_neg hlong]
      exact if_neg hlong

theorem rewritePackage_packagesObj (now : Int64) (hot : HotCopy) (packages : Packages) (pkg : String) :
    rewritePackage codec limits order hot (packagesObj packages) pkg =
      packagesObj ((config codec limits).rewritePackage (stepEnv order now) hot packages pkg) := by
  have herase : (packagesObj packages).erase pkg = packagesObj (packages.erase pkg) := AList.mapValues_erase ..
  rw [rewritePackage, CacheConfig.rewritePackage]
  cases hinfo : hot.packageMeta.lookup pkg with
  | none => rw [memoryObj, hinfo, herase]
  | some info =>
    cases hifaces : hot.interfaces.lookup pkg with
    | none => rw [memoryObj, hinfo, hifaces, herase]
    | some ifaceMap =>
      have hkeys : ((stepEnv order now).interfaceOrder.iterate ifaceMap.entries).map Sigma.fst =
          order.interfaceKeys ifaceMap.keys :=
        IterationOrder.map_fst_ofKeys order.interfaceKeys_perm ifaceMap
      rw [memoryObj_eq hinfo hifaces]
      dsimp only
      rw [hkeys]
      by_cases hempty : ifaceMap.entries = []
      · rw [if_pos hempty, if_pos hempty, herase]
      · have hinsert : ∀ d, packagesObj (packages.insert pkg d) =
            (packagesObj packages).put pkg (.ofObject (packageObj d)) := fun d => AList.mapValues_insert ..
        rw [if_neg hempty, if_neg hempty, hinsert, ← truncatePackageInterfaces_packageObj]
        rfl

theorem rewritePackages_packagesObj (now : Int64) (hot : HotCopy) (dirty : List String) (packages : Packages) :
    dirty.foldl (rewritePackage codec limits order hot) (packagesObj packages) =
      packagesObj (dirty.foldl ((config codec limits).rewritePackage (stepEnv order now) hot) packages) := by
  induction dirty generalizing packages with
  | nil => rfl
  | cons pkg dirty ih => rw [List.foldl_cons, List.foldl_cons, rewritePackage_packagesObj codec limits order now, ih]

/-- Converting the values does not change what is evicted. -/
theorem evictWhile_mapValues {V W : Type} (f : V → W) (tooMuch : Table String W → Bool) (keys : List String)
    (packages : Table String V) (hot : HotCopy) :
    CacheConfig.evictWhile tooMuch keys (packages.mapValues f, hot) =
      Prod.map (AList.mapValues f) id
        (CacheConfig.evictWhile (fun packages => tooMuch (packages.mapValues f)) keys (packages, hot)) := by
  induction keys generalizing packages hot with
  | nil => rfl
  | cons victim keys ih =>
    rw [CacheConfig.evictWhile, CacheConfig.evictWhile, AList.mapValues_erase]
    split
    · exact ih (packages.erase victim) (hot.removePackage victim)
    · rfl

theorem keysByAccess_packagesObj (now : Int64) (packages : Packages) (hot : HotCopy) :
    keysByAccess order (packagesObj packages) hot =
      CacheConfig.keysByAccess (stepEnv order now) packages hot := by
  have hkeys : ((stepEnv order now).packageOrder.iterate packages.entries).map Sigma.fst =
      order.packageKeys packages.keys :=
    IterationOrder.map_fst_ofKeys order.packageKeys_perm packages
  have hsame : (packagesObj packages).keys = packages.keys := AList.keys_mapValues ..
  rw [keysByAccess, CacheConfig.keysByAccess, hkeys, hsame]

theorem evictPackagesIfOverflow_packagesObj (now : Int64) (packages : Packages) (hot : HotCopy) :
    evictPackagesIfOverflow limits order (packagesObj packages, hot) =
      Prod.map packagesObj id
        ((config codec limits).evictPackagesIfOverflow (stepEnv order now) (packages, hot)) := by
  rw [evictPackagesIfOverflow, CacheConfig.evictPackagesIfOverflow, keysByAccess_packagesObj order now]
  refine (evictWhile_mapValues ..).trans ?_
  simp only [AList.size_mapValues]
  rfl

theorem evictTotalIfOverflow_packagesObj (now : Int64) (packages : Packages) (hot : HotCopy) :
    evictTotalIfOverflow codec limits order (packagesObj packages, hot) =
      Prod.map packagesObj id
        ((config codec limits).evictTotalIfOverflow (stepEnv order now) (packages, hot)) := by
  rw [evictTotalIfOverflow, CacheConfig.evictTotalIfOverflow, keysByAccess_packagesObj order now]
  exact evictWhile_mapValues ..

theorem readDisk_fileObj (disk : Option DiskJson) :
    (readDiskJsonForMergeOrEmpty codec (disk.map fun d => codec.text (fileObj d))).optObject "packages" =
      some (packagesObj (CacheConfig.readDiskJsonForMergeOrEmpty disk)) := by
  have hempty : emptyFile.optObject "packages" = some (packagesObj ∅) := optObject_emptyFile
  cases disk with
  | none => exact hempty
  | some d =>
    have hschema : (fileObj d).optInt "schemaVersion" (-1) = d.schemaVersion := by
      simp [fileObj, JsonObject.optInt]
    rw [readDiskJsonForMergeOrEmpty, Option.map_some, Option.bind_some, codec.object_text]
    dsimp only
    rw [hschema, CacheConfig.readDiskJsonForMergeOrEmpty]
    split
    · exact hempty
    · simp [fileObj, JsonObject.optObject]

theorem put_readDisk (disk : Option DiskJson) (packages : Packages) :
    ((readDiskJsonForMergeOrEmpty codec (disk.map fun d => codec.text (fileObj d))).put "packages"
      (.ofObject (packagesObj packages))).put "schemaVersion" (.num currentSchemaVersion.toInt64) =
      fileObj ⟨currentSchemaVersion, packages⟩ := by
  have hempty : (emptyFile.put "packages" (.ofObject (packagesObj packages))).put "schemaVersion"
      (.num currentSchemaVersion.toInt64) = fileObj ⟨currentSchemaVersion, packages⟩ := rfl
  cases disk with
  | none => exact hempty
  | some d =>
    rw [readDiskJsonForMergeOrEmpty, Option.map_some, Option.bind_some, codec.object_text]
    dsimp only
    split
    · exact hempty
    · rfl

/-- **The flush of texts is the flush of records**, with the lengths of the texts of the records. -/
theorem flushToDisk_fileObj (now : Int64) (dirty : List String) (disk : Option DiskJson) (hot : HotCopy) :
    flushToDisk codec limits order dirty (disk.map fun d => codec.text (fileObj d)) hot =
      Prod.map (fun d => codec.text (fileObj d)) id
        ((config codec limits).flushToDisk (stepEnv order now) dirty disk hot) := by
  have hevict : evictTotalIfOverflow codec limits order (evictPackagesIfOverflow limits order
      (mergedPackages codec limits order dirty (disk.map fun d => codec.text (fileObj d)) hot, hot)) =
      Prod.map packagesObj id ((config codec limits).evictTotalIfOverflow (stepEnv order now)
        ((config codec limits).evictPackagesIfOverflow (stepEnv order now)
          (dirty.foldl ((config codec limits).rewritePackage (stepEnv order now) hot)
            (CacheConfig.readDiskJsonForMergeOrEmpty disk), hot))) := by
    rw [mergedPackages, readDisk_fileObj, Option.getD_some, rewritePackages_packagesObj codec limits order now,
      evictPackagesIfOverflow_packagesObj codec limits order now]
    exact evictTotalIfOverflow_packagesObj codec limits order now _ _
  rw [flushToDisk, hevict]
  exact congrArg (fun o => (codec.text o, _)) (put_readDisk codec disk _)

end

end SignatureFile

end BinderTracer.App
